import ConfigBinding.Property
import ConfigBinding.Proofs.Reference.Evaluation
import ConfigBinding.Proofs.Text.Splitting
import ConfigBinding.Proofs.Value.Merging

/-!
# What a lookup depends on

A lookup reads the key that it is asked for, and the keys that references lead to from there.
Whatever else a store holds makes no difference to it.  A default is therefore as good as a stored
text, as long as its references do not lead back to the key.

## Main Definitions

* `Store.LeadsTo` — references in a row
* `Store.LeadsFrom` — the keys that the references of a literal lead to

## Main Statements

* `Store.lookupWithin_congr` — stores that agree on those keys give the same result
* `Store.raw?_set_of_apart` — storing under one key leaves the keys apart from it as they were
* `Store.default_reads_as_stored` — a default is read as the same text under the key is

## Design Notes

A literal counts as the first of the texts that are looked up in a row.  So its references may be
followed as far as those of a stored text, which needs one link for its own key.
-/

namespace ConfigBinding

open Placeholder

/-! ### Fillings that agree -/

/-- Only the paths among the holes are looked up. -/
theorem Reference.fill_congr {lookup other : String → Except PropertyError (Option Value)}
    {unclosed : PropertyError} {parts : List Piece}
    (agree : ∀ j, .hole j ∈ parts → isPath j = true → other j = lookup j) :
    fill (resolve other) unclosed parts = fill (resolve lookup) unclosed parts := by
  refine Placeholder.fill_congr fun j hole => ?_
  by_cases path : isPath j = true
  · rw [resolve, resolve, agree j hole path]
  · have malformed : isPath j = false := by simpa using path
    rw [resolve_notPath malformed, resolve_notPath malformed]

namespace Store

variable {store other : Store} {k j literal : String}

/-! ### Keys within reach -/

/-- References in a row lead from `k` to `j`. -/
def LeadsTo (store : Store) : String → String → Prop :=
  Relation.ReflTransGen store.Refers

/-- The references of a literal, and those of the texts they lead to, lead to `j`. -/
def LeadsFrom (store : Store) (literal j : String) : Prop :=
  ∃ i, .hole i ∈ pieces literal.toList ∧ Reference.isPath i = true ∧ store.LeadsTo i j

/-- **A lookup depends only on the keys within reach**: stores that hold the same there give the
same result, value or error, however many links are left. -/
theorem lookupWithin_congr (agree : ∀ j, store.LeadsTo k j → other.raw? j = store.raw? j)
    (links : Nat) : other.lookupWithin links k = store.lookupWithin links k := by
  induction links generalizing k with
  | zero => rfl
  | succ links ih =>
    have here : other.raw? k = store.raw? k := agree k .refl
    cases raw : store.raw? k with
    | none => rw [lookupWithin, lookupWithin, here, raw]
    | some value =>
      by_cases isText : ∃ text, value = .string text
      · obtain ⟨text, rfl⟩ := isText
        rw [lookupWithin_eq_fill raw, lookupWithin_eq_fill (here.trans raw)]
        refine congrArg _ (Reference.fill_congr fun j hole path => ih fun further leads => ?_)
        exact agree further (.head ⟨text, raw, hole, path⟩ leads)
      · have notText : ∀ text, value ≠ .string text := fun text same => isText ⟨text, same⟩
        rw [lookupWithin_of_notText raw notText, lookupWithin_of_notText (here.trans raw) notText]

/-- A literal depends only on the keys that its references lead to. -/
theorem fill_literal_congr
    (agree : ∀ j, store.LeadsFrom literal j → other.raw? j = store.raw? j)
    (links : Nat) (unclosed : PropertyError) :
    fill (Reference.resolve (other.lookupWithin links)) unclosed (pieces literal.toList) =
      fill (Reference.resolve (store.lookupWithin links)) unclosed (pieces literal.toList) := by
  refine Reference.fill_congr fun i hole path => ?_
  exact lookupWithin_congr (fun j leads => agree j ⟨i, hole, path, leads⟩) links

/-! ### Storing under one key -/

/-- Neither key is a prefix of the other, segment by segment. -/
def Apart (k j : String) : Prop :=
  Path.Apart (Text.splitDots k) (Text.splitDots j)

/-- A key has at least one segment. -/
theorem splitDots_ne_nil (key : String) : Text.splitDots key ≠ [] :=
  mt List.map_eq_nil_iff.mp (Text.splitAtChar_ne_nil '.' key.toList)

/-- A text that was stored under a key is there. -/
theorem raw?_set_string (store : Store) (key text : String) :
    (store.set key (.string text)).raw? key = some (.string text) :=
  Dictionary.at?_mergeAt_self (splitDots_ne_nil key) (Value.isLeaf_string text) store.contents

/-- **Storing under one key** leaves the keys apart from it as they were. -/
theorem raw?_set_of_apart (apart : Apart k j) (value : Value) (store : Store) :
    (store.set k value).raw? j = store.raw? j :=
  Dictionary.at?_mergeAt_of_apart apart value store.contents

/-- The text that is stored under a key is filled like a literal with one link less, if it does not
lead back to the key. -/
theorem lookupWithin_set_string (apart : ∀ j, store.LeadsFrom literal j → Apart k j) (links : Nat) :
    (store.set k (.string literal)).lookupWithin (links + 1) k =
      (Reference.interpolate (store.lookupWithin links) literal).map
        fun text => some (.string text) := by
  have agree : ∀ j, store.LeadsFrom literal j →
      (store.set k (.string literal)).raw? j = store.raw? j :=
    fun j leads => raw?_set_of_apart (apart j leads) _ store
  rw [lookupWithin_eq_fill (raw?_set_string store k literal), fill_literal_congr agree,
    Reference.interpolate, expand]
  cases fill (Reference.resolve (store.lookupWithin links)) (.unclosedReference literal)
      (pieces literal.toList) with
  | error e => rfl
  | ok chars => rfl

end Store

/-- A text is converted to a kind by decoding it; the kinds that take a text as it is decode it to
itself. -/
theorem Decoder.convert_string_standard (kind : Kind) (text : String) :
    standard.convert kind (.string text) = standard.decode kind text := by
  cases kind <;> rfl

namespace Store

variable {store : Store} {k literal : String}

/-- **A default is read like a stored text.**  If a key holds nothing, and the references of a
literal lead only to keys apart from it, then the key with the literal for its default is read as
the key is read once the literal is stored under it, whatever the kind.  The literal itself comes to
what is then looked up, faults and the limit of the references included. -/
theorem default_reads_as_stored (absent : store.raw? k = none)
    (apart : ∀ j, store.LeadsFrom literal j → Apart k j) :
    (∀ kind, Property.read ⟨k, kind, some literal⟩ .standard store =
      Property.read ⟨k, kind, none⟩ .standard (store.set k (.string literal))) ∧
    (store.set k (.string literal)).lookup k =
      (store.interpolate literal).map fun text => some (.string text) := by
  have stored : (store.set k (.string literal)).lookup k =
      (store.interpolate literal).map fun text => some (.string text) :=
    lookupWithin_set_string apart maxLinks
  have missing : store.lookup k = .ok none := by
    rw [lookup, lookupWithin, absent]
  refine ⟨fun kind => ?_, stored⟩
  unfold Property.read
  simp only [missing, stored]
  cases store.interpolate literal with
  | error e => rfl
  | ok text => exact (Decoder.convert_string_standard kind text).symm

/-- A store with the first digits of a port. -/
def ports : Store :=
  ⟨⟨[("app", .table ⟨[("base", .integer 40), ("name", .string "${app.name}")]⟩)]⟩⟩

/-- The port is read from a default that refers to its first digits, as it is read once the default
is stored.  Storing it does not reach the text that refers to itself. -/
theorem ports_default_read :
    ports.raw? "app.port" = none ∧
      (∀ j, ports.LeadsFrom "${app.base}80" j → Apart "app.port" j) ∧
      Property.read ⟨"app.port", .integer, some "${app.base}80"⟩ .standard ports =
        .ok (.integer 4080) ∧
      Property.read ⟨"app.port", .integer, none⟩ .standard
        (ports.set "app.port" (.string "${app.base}80")) = .ok (.integer 4080) := by
  have absent : ports.raw? "app.port" = none := rfl
  have apart : ∀ j, ports.LeadsFrom "${app.base}80" j → Apart "app.port" j := by
    rintro j ⟨i, hole, -, leads⟩
    have toBase : Piece.hole i ∈ Piece.hole "app.base" :: "80".toList.map Piece.char := hole
    obtain rfl : i = "app.base" := by simpa using toBase
    -- a number has no references, so they end here
    have base : ports.raw? "app.base" = some (.integer 40) := rfl
    rcases Relation.ReflTransGen.cases_head leads with rfl | ⟨next, ⟨text, raw, -⟩, -⟩
    · exact ⟨by decide, by decide⟩
    · rw [base] at raw
      cases raw
  have fromDefault : Property.read ⟨"app.port", .integer, some "${app.base}80"⟩ .standard ports =
      .ok (.integer 4080) := rfl
  refine ⟨absent, apart, fromDefault, ?_⟩
  exact ((default_reads_as_stored absent apart).1 .integer).symm.trans fromDefault

end Store

end ConfigBinding
