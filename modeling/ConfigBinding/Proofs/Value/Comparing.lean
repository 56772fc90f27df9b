import ConfigBinding.Proofs.Value.Merging
import ConfigBinding.Store

/-!
# Comparing values

An ordered value is what is found at its paths, and so two of them can be compared path by path.

## Main Definitions

* `Value.Touches` — a value makes something of a path below it

## Main Statements

* `Value.eq_of_place_eq` — ordered values with the same at every path are the same
* `Value.Ordered.over`, `Dictionary.ordered_mergeAt` — merging keeps values ordered
* `Value.over_eq_self_iff` — when nothing of an old value is left over below a new one

## Design Notes

Of a table it is again only compared that it is one.  That this suffices for whole tables is what
the order of their keys is needed for, and nothing else: without it, the same values could be listed
in two ways.
-/

namespace ConfigBinding

theorem Place.of_eq_absent_iff {found : Option Value} :
    Place.of found = .absent ↔ found = none := by
  cases found with
  | none => exact ⟨fun _ => rfl, fun _ => rfl⟩
  | some value => cases value <;> exact ⟨nofun, nofun⟩

namespace Value

variable {value other there : Value} {path : Path}

/-- What is below an ordered value is ordered. -/
theorem Ordered.of_at? (ordered : value.Ordered) (found : value.at? path = some there) :
    there.Ordered := by
  induction path generalizing value with
  | nil =>
    cases found
    exact ordered
  | cons key rest ih =>
    rcases value.isLeaf_or_table with isLeaf | ⟨entries, rfl⟩
    · rw [isLeaf.at?_cons] at found
      cases found
    · obtain ⟨inner, listed, further⟩ := Option.bind_eq_some_iff.mp found
      exact ih (ordered.of_find? listed) further

/-- **Ordered values with the same at every path are the same**, by induction on one of them. -/
theorem eq_of_place_eq (ordered : value.Ordered) (ordered' : other.Ordered)
    (same : ∀ path, Place.of (value.at? path) = .of (other.at? path)) : value = other := by
  induction ordered generalizing other with
  | leaf isLeaf =>
    have here := same []
    rw [at?_nil, at?_nil, Place.of_leaf isLeaf] at here
    exact (Place.eq_of_of_eq_leaf here.symm).1.symm
  | @table entries ascending _ ih =>
    rcases other.isLeaf_or_table with isLeaf | ⟨entries', rfl⟩
    · have here := same []
      rw [at?_nil, at?_nil, Place.of_leaf isLeaf] at here
      cases here
    · refine congrArg table (Dictionary.eq_of_find?_eq ascending ordered'.ascending fun key => ?_)
      have below (rest : Path) :
          Place.of ((entries.find? key).bind (·.at? rest)) =
            .of ((entries'.find? key).bind (·.at? rest)) := same (key :: rest)
      cases found : entries.find? key with
      | none =>
        rw [found] at below
        cases found' : entries'.find? key with
        | none => rfl
        | some value' =>
          rw [found'] at below
          exact absurd (Place.of_eq_absent_iff.mp (below []).symm) nofun
      | some value =>
        rw [found] at below
        cases found' : entries'.find? key with
        | none =>
          rw [found'] at below
          exact absurd (Place.of_eq_absent_iff.mp (below [])) nofun
        | some value' =>
          rw [found'] at below
          have listed := Dictionary.mem_of_lookup found
          exact congrArg some (ih key value listed (ordered'.of_find? found') below)

end Value

/-! ### Merging keeps values ordered -/

theorem Dictionary.ordered_mergeEntries {entries : List (String × Value)} {base : Table}
    (ordered : (Value.table base).Ordered)
    (orderedNew : ∀ key new, (key, new) ∈ entries → ∀ old : Option Value,
      (∀ value, old = some value → value.Ordered) → (new.over old).Ordered) :
    (Value.table (base.mergeEntries entries)).Ordered := by
  induction entries generalizing base with
  | nil => exact ordered
  | cons entry rest ih =>
    obtain ⟨key, new⟩ := entry
    have first : (new.over (base.find? key)).Ordered :=
      orderedNew key new List.mem_cons_self _ fun value found => ordered.of_find? found
    exact ih (ordered_insert ordered first key) fun other value inRest =>
      orderedNew other value (List.mem_cons_of_mem _ inRest)

/-- **An ordered value that is laid over another is ordered.** -/
theorem Value.Ordered.over {new : Value} (ordered : new.Ordered) {old : Option Value}
    (orderedOld : ∀ value, old = some value → value.Ordered) : (new.over old).Ordered := by
  induction ordered generalizing old with
  | leaf isLeaf =>
    rw [over_of_isLeaf isLeaf]
    exact .leaf isLeaf
  | @table overlay ascending inner ih =>
    rcases exists_or_forall_not fun base => old = some (.table base) with ⟨base, rfl⟩ | notTable
    · rw [table_over_table]
      exact Dictionary.ordered_mergeEntries (orderedOld _ rfl) fun key value listed _ orderedHere =>
        ih key value listed orderedHere
    · rw [over_of_notTable notTable]
      exact .table ascending inner

namespace Dictionary

variable {t : Table} {value : Value} {entries : List Entry}

/-- A table stays ordered when an ordered value is laid over it at a path. -/
theorem ordered_mergeAt (ordered : (Value.table t).Ordered) (orderedNew : value.Ordered)
    (path : Path) : (Value.table (t.mergeAt path value)).Ordered := by
  rcases (value.under path).isLeaf_or_table with isLeaf | ⟨overlay, placed⟩
  · unfold mergeAt
    split
    · next overlay placed => exact absurd placed (isLeaf overlay)
    · exact ordered
  · rw [table_mergeAt placed]
    refine (orderedNew.under path).over fun old same => ?_
    obtain rfl := Option.some.inj same
    exact ordered

theorem ordered_mergeAll (ordered : (Value.table t).Ordered)
    (orderedNew : ∀ entry ∈ entries, entry.value.Ordered) :
    (Value.table (t.mergeAll entries)).Ordered := by
  induction entries generalizing t with
  | nil => exact ordered
  | cons entry rest ih =>
    have first := ordered_mergeAt ordered (orderedNew entry List.mem_cons_self) entry.path
    exact ih first fun other inRest => orderedNew other (List.mem_cons_of_mem _ inRest)

end Dictionary

/-! ### What is left over -/

namespace Value

variable {value new : Value} {path : Path} {place : Place}

/-- A value touches the paths below it that it makes something of. -/
def Touches (value : Value) (path : Path) : Prop :=
  ∃ place, value.Makes path place

/-- What a value makes of a path is what is found there in the value itself. -/
theorem Makes.eq_place (makes : value.Makes path place) : place = .of (value.at? path) := by
  induction path generalizing value with
  | nil => exact makes.eq_of_nil
  | cons key rest ih =>
    rcases value.isLeaf_or_table with isLeaf | ⟨entries, rfl⟩
    · rw [makes.eq_of_leaf_cons isLeaf, isLeaf.at?_cons]
      rfl
    · obtain ⟨inner, listed, further⟩ := makes_table_cons.mp makes
      rw [ih further, at?_table_cons, listed, Option.bind_some]

theorem at?_eq_none_of_not_touches (untouched : ¬ value.Touches path) : value.at? path = none := by
  cases found : value.at? path with
  | none => rfl
  | some there => exact absurd ⟨_, .found found⟩ untouched

/-- **What a value that is laid over another touches** is there as in the value itself, and what it
does not touch is there as it was before. -/
theorem place_over_of_touches (ordered : new.Ordered) (old : Option Value) (path : Path) :
    (new.Touches path → Place.of ((new.over old).at? path) = .of (new.at? path)) ∧
      (¬ new.Touches path → Place.of ((new.over old).at? path) = .of (old.bind (·.at? path))) := by
  obtain ⟨touched, untouched⟩ := place_over ordered old path
  constructor
  · rintro ⟨place, makes⟩
    rw [touched place makes, makes.eq_place]
  · intro leaves
    exact untouched fun place makes => leaves ⟨place, makes⟩

/-- **When nothing is left over.**  A value that is laid over another is there as it is if and only
if the other one has nothing at the paths that the new one does not touch. -/
theorem over_eq_self_iff (ordered : new.Ordered) {old : Option Value}
    (orderedOld : ∀ value, old = some value → value.Ordered) :
    new.over old = new ↔ ∀ path, ¬ new.Touches path → old.bind (·.at? path) = none := by
  constructor
  · intro same path untouched
    have kept := (place_over_of_touches ordered old path).2 untouched
    rw [same, at?_eq_none_of_not_touches untouched] at kept
    exact Place.of_eq_absent_iff.mp kept.symm
  · intro nothingElse
    refine eq_of_place_eq (ordered.over orderedOld) ordered fun path => ?_
    obtain ⟨touched, untouched⟩ := place_over_of_touches ordered old path
    by_cases touches : new.Touches path
    · exact touched touches
    · rw [untouched touches, nothingElse path touches, at?_eq_none_of_not_touches touches]

end Value

end ConfigBinding
