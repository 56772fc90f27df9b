import ConfigBinding.Proofs.Placeholder.Filling
import ConfigBinding.Store
import Mathlib.Data.List.Chain
import Mathlib.Logic.Relation

/-!
# Lookups and unbounded evaluation

What a lookup finds is compared with an evaluation that follows references without counting them.
The two agree as long as no chain of references is longer than a lookup may follow; and where a
chain is longer, a lookup fails.

## Main Definitions

* `Store.Refers` — the text under one key has a hole for another key
* `Store.Evaluates`, `Store.Expands` — evaluation of a key and of the pieces of a text, as relations
* `Store.ChainsWithin` — a bound on the chains of references from a key

## Main Statements

* `Store.lookupWithin_eq_fill` — a text is filled, whether or not it is looked at for holes first
* `Store.evaluates_iff_lookupWithin` — with enough links, a lookup is the evaluation
* `Store.exists_error_of_chain` — with too few, it fails
* `Store.lookup_spec` — both for the links of a lookup

## Design Notes

A derivation is finite, so where references go round in a circle there may be no result at all.  A
bound on the chains from a key is all that is needed for a result, and for only one.
-/

namespace ConfigBinding

/-! ### What fills a hole -/

namespace Reference

variable {lookup : String → Except PropertyError (Option Value)} {path : String}

theorem resolve_notPath (malformed : isPath path = false) :
    resolve lookup path = .error (.invalidReferencePath path) := by
  simp [resolve, malformed]

theorem resolve_error (valid : isPath path = true) {e : PropertyError}
    (found : lookup path = .error e) : resolve lookup path = .error e := by
  simp [resolve, valid, found]

theorem resolve_none (valid : isPath path = true) (found : lookup path = .ok none) :
    resolve lookup path = .error (.referenceNotFound path) := by
  simp [resolve, valid, found]

theorem resolve_nonScalar (valid : isPath path = true) {value : Value}
    (found : lookup path = .ok (some value)) (compound : value.plain? = none) :
    resolve lookup path = .error (.nonScalarReference path) := by
  simp [resolve, valid, found, compound]

theorem resolve_some (valid : isPath path = true) {value : Value} {text : String}
    (found : lookup path = .ok (some value)) (scalar : value.plain? = some text) :
    resolve lookup path = .ok (some text) := by
  simp [resolve, valid, found, scalar]

end Reference

namespace Store

open Placeholder

/-! ### References -/

variable {store : Store} {k j : String} {links : Nat}

/-- The text that is stored under `k` has a hole for the path `j`. -/
def Refers (store : Store) (k j : String) : Prop :=
  ∃ text, store.raw? k = some (.string text) ∧ .hole j ∈ pieces text.toList ∧
    Reference.isPath j = true

theorem Refers.hole_mem {text : String} (refers : store.Refers k j)
    (raw : store.raw? k = some (.string text)) : .hole j ∈ pieces text.toList := by
  obtain ⟨text', raw', hole, -⟩ := refers
  obtain rfl : text' = text := by simpa using raw'.symm.trans raw
  exact hole

/-- Chains of references that begin at `k` have at most so many links. -/
def ChainsWithin (store : Store) (links : Nat) (k : String) : Prop :=
  ∀ rest, List.IsChain store.Refers (k :: rest) → rest.length ≤ links

/-- One link is used up by a reference. -/
theorem ChainsWithin.of_refers (within : store.ChainsWithin links k) (refers : store.Refers k j) :
    ∃ fewer, links = fewer + 1 ∧ store.ChainsWithin fewer j := by
  have one : 1 ≤ links := within [j] (List.isChain_pair.mpr refers)
  refine ⟨links - 1, by omega, fun rest chain => ?_⟩
  have longer := within (j :: rest) (List.isChain_cons_cons.mpr ⟨refers, chain⟩)
  rw [List.length_cons] at longer
  omega

/-- From a key that leads to a circle of references, chains go on without an end. -/
theorem exists_chain_of_circle {k : String} (leads : Relation.ReflTransGen store.Refers k j)
    (circle : Relation.TransGen store.Refers j j) (length : Nat) :
    ∃ rest, List.IsChain store.Refers (k :: rest) ∧ rest.length = length := by
  induction length generalizing k with
  | zero => exact ⟨[], List.isChain_singleton k, rfl⟩
  | succ length ih =>
    have goesOn : Relation.TransGen store.Refers k j := Relation.TransGen.trans_right leads circle
    obtain ⟨next, refers, further⟩ := Relation.TransGen.head'_iff.mp goesOn
    obtain ⟨rest, chain, rfl⟩ := ih further
    exact ⟨next :: rest, List.isChain_cons_cons.mpr ⟨refers, chain⟩, rfl⟩

/-! ### Evaluation -/

mutual

/-- **Evaluation of a key**, however many references that takes. -/
inductive Evaluates (store : Store) : String → Except PropertyError (Option Value) → Prop
  | absent {key} (raw : store.raw? key = none) : Evaluates store key (.ok none)
  | stored {key value} (raw : store.raw? key = some value)
      (notText : ∀ text, value ≠ .string text) :
      Evaluates store key (.ok (some value))
  | text {key text outcome} (raw : store.raw? key = some (.string text))
      (expands : Expands store text (pieces text.toList) outcome) :
      Evaluates store key (outcome.map fun chars => some (.string (.ofList chars)))

/-- The text of the pieces of a literal, of which every hole is evaluated.  The first fault from the
left counts. -/
inductive Expands (store : Store) :
    String → List Piece → Except PropertyError (List Char) → Prop
  | nil {literal} : Expands store literal [] (.ok [])
  | char {literal c rest outcome} (others : Expands store literal rest outcome) :
      Expands store literal (.char c :: rest) (outcome.map (c :: ·))
  | hole {literal name rest value text outcome} (path : Reference.isPath name = true)
      (here : Evaluates store name (.ok (some value))) (scalar : value.plain? = some text)
      (others : Expands store literal rest outcome) :
      Expands store literal (.hole name :: rest) (outcome.map (text.toList ++ ·))
  | notPath {literal name rest} (malformed : Reference.isPath name = false) :
      Expands store literal (.hole name :: rest) (.error (.invalidReferencePath name))
  | failed {literal name rest e} (path : Reference.isPath name = true)
      (here : Evaluates store name (.error e)) :
      Expands store literal (.hole name :: rest) (.error e)
  | missing {literal name rest} (path : Reference.isPath name = true)
      (here : Evaluates store name (.ok none)) :
      Expands store literal (.hole name :: rest) (.error (.referenceNotFound name))
  | notScalar {literal name rest value} (path : Reference.isPath name = true)
      (here : Evaluates store name (.ok (some value))) (compound : value.plain? = none) :
      Expands store literal (.hole name :: rest) (.error (.nonScalarReference name))
  | unclosed {literal rest} :
      Expands store literal (.unclosed :: rest) (.error (.unclosedReference literal))

end

/-! ### Faults of an evaluation -/

theorem map_ne_error {ε α β : Type} {outcome : Except ε α} {e : ε} (f : α → β)
    (differs : outcome ≠ .error e) : outcome.map f ≠ .error e :=
  mt map_eq_error_iff.mp differs

mutual

/-- An evaluation follows circles for ever, and so never reports one. -/
theorem Evaluates.ne_circularReference {circle : String} : ∀ {key result},
    store.Evaluates key result → result ≠ .error (.circularReference circle)
  | _, _, .absent _ => nofun
  | _, _, .stored _ _ => nofun
  | _, _, .text _ expands => map_ne_error _ (Expands.ne_circularReference expands)

theorem Expands.ne_circularReference {circle : String} : ∀ {literal parts outcome},
    store.Expands literal parts outcome → outcome ≠ .error (.circularReference circle)
  | _, _, _, .nil => nofun
  | _, _, _, .char others => map_ne_error _ (Expands.ne_circularReference others)
  | _, _, _, .hole _ _ _ others => map_ne_error _ (Expands.ne_circularReference others)
  | _, _, _, .notPath _ => nofun
  | _, _, _, .failed _ here => fun same =>
    Evaluates.ne_circularReference here (by cases same; rfl)
  | _, _, _, .missing _ _ => nofun
  | _, _, _, .notScalar _ _ _ => nofun
  | _, _, _, .unclosed => nofun

end

/-! ### Lookups -/

theorem lookupWithin_of_notText {value : Value} (raw : store.raw? k = some value)
    (notText : ∀ text, value ≠ .string text) (links : Nat) :
    store.lookupWithin (links + 1) k = .ok (some value) := by
  rw [lookupWithin, raw]
  cases value with
  | string text => exact absurd rfl (notText text)
  | _ => rfl

/-- **The text under a key is interpolated**; that a text without marks is passed over makes no
difference. -/
theorem lookupWithin_eq_interpolate {text : String} (raw : store.raw? k = some (.string text))
    (links : Nat) :
    store.lookupWithin (links + 1) k =
      (Reference.interpolate (store.lookupWithin links) text).map fun t => some (.string t) := by
  unfold lookupWithin
  rw [raw]
  by_cases mayHave : mayHavePlaceholders text = true
  · simp only [if_pos mayHave]
    cases Reference.interpolate (store.lookupWithin links) text with
    | error e => rfl
    | ok resolved => rfl
  · simp only [if_neg mayHave]
    rw [Reference.interpolate, expand_of_not_mayHavePlaceholders (by simpa using mayHave)]
    rfl

/-- The pieces of the text under a key are filled, whether or not it has marks. -/
theorem lookupWithin_eq_fill {text : String} (raw : store.raw? k = some (.string text))
    (links : Nat) :
    store.lookupWithin (links + 1) k =
      (fill (Reference.resolve (store.lookupWithin links)) (.unclosedReference text)
        (pieces text.toList)).map fun chars => some (.string (.ofList chars)) := by
  rw [lookupWithin_eq_interpolate raw, Reference.interpolate, expand]
  cases fill (Reference.resolve (store.lookupWithin links)) (.unclosedReference text)
      (pieces text.toList) with
  | error e => rfl
  | ok chars => rfl

/-- Filling is an evaluation if what fills the holes is. -/
theorem expands_fill {lookup : String → Except PropertyError (Option Value)} {literal : String}
    {parts : List Piece}
    (evaluated : ∀ j, .hole j ∈ parts → Reference.isPath j = true → store.Evaluates j (lookup j)) :
    store.Expands literal parts
      (fill (Reference.resolve lookup) (.unclosedReference literal) parts) := by
  induction parts with
  | nil => exact .nil
  | cons part rest ih =>
    have others := ih fun j hole path => evaluated j (List.mem_cons_of_mem _ hole) path
    cases part with
    | char c =>
      rw [fill_char_cons]
      exact .char others
    | hole j =>
      by_cases path : Reference.isPath j = true
      · have here := evaluated j List.mem_cons_self path
        cases found : lookup j with
        | error e =>
          rw [found] at here
          rw [fill_hole_error (Reference.resolve_error path found)]
          exact .failed path here
        | ok result =>
          rw [found] at here
          cases result with
          | none =>
            rw [fill_hole_error (Reference.resolve_none path found)]
            exact .missing path here
          | some value =>
            cases scalar : value.plain? with
            | none =>
              rw [fill_hole_error (Reference.resolve_nonScalar path found scalar)]
              exact .notScalar path here scalar
            | some text =>
              rw [fill_hole_cons (Reference.resolve_some path found scalar)]
              exact .hole path here scalar others
      · have malformed : Reference.isPath j = false := by simpa using path
        rw [fill_hole_error (Reference.resolve_notPath malformed)]
        exact .notPath malformed
    | unclosed => exact .unclosed

/-- **A lookup is an evaluation** if no chain of references is longer than it may follow. -/
theorem evaluates_lookupWithin (links : Nat) :
    ∀ {k}, store.ChainsWithin links k → store.Evaluates k (store.lookupWithin (links + 1) k) := by
  induction links using Nat.strong_induction_on with
  | _ links ih =>
    intro k within
    cases raw : store.raw? k with
    | none =>
      have absent : store.lookupWithin (links + 1) k = .ok none := by rw [lookupWithin, raw]
      rw [absent]
      exact .absent raw
    | some value =>
      by_cases isText : ∃ text, value = .string text
      · obtain ⟨text, rfl⟩ := isText
        rw [lookupWithin_eq_fill raw]
        -- every valid hole is a link of some chain, so that there is one left to follow it
        refine .text raw (expands_fill fun j hole path => ?_)
        obtain ⟨fewer, rfl, shorter⟩ := within.of_refers ⟨text, raw, hole, path⟩
        exact ih fewer (Nat.lt_succ_self fewer) shorter
      · have notText : ∀ text, value ≠ .string text := fun text same => isText ⟨text, same⟩
        rw [lookupWithin_of_notText raw notText]
        exact .stored raw notText

mutual

/-- **An evaluation is what a lookup finds** if it may follow every chain of references. -/
theorem Evaluates.lookupWithin_eq : ∀ {key result}, store.Evaluates key result →
    ∀ {links}, store.ChainsWithin links key → store.lookupWithin (links + 1) key = result
  | _, _, .absent raw, _, _ => by
    rw [lookupWithin, raw]
  | _, _, .stored raw notText, links, _ =>
    lookupWithin_of_notText raw notText links
  | _, _, .text raw expands, links, within => by
    rw [lookupWithin_eq_fill raw, Expands.fill_eq expands]
    intro j hole path
    exact within.of_refers ⟨_, raw, hole, path⟩

/-- What the holes refer to is within reach of one link less. -/
theorem Expands.fill_eq : ∀ {literal parts outcome}, store.Expands literal parts outcome →
    ∀ {links}, (∀ j, .hole j ∈ parts → Reference.isPath j = true →
      ∃ fewer, links = fewer + 1 ∧ store.ChainsWithin fewer j) →
    fill (Reference.resolve (store.lookupWithin links)) (.unclosedReference literal) parts = outcome
  | _, _, _, .nil, _, _ => rfl
  | _, _, _, .char others, _, within => by
    rw [fill_char_cons, Expands.fill_eq others]
    intro j hole path
    exact within j (List.mem_cons_of_mem _ hole) path
  | _, _, _, .hole path here scalar others, _, within => by
    obtain ⟨fewer, rfl, shorter⟩ := within _ List.mem_cons_self path
    have found := Evaluates.lookupWithin_eq here shorter
    rw [fill_hole_cons (Reference.resolve_some path found scalar), Expands.fill_eq others]
    intro j hole path
    exact within j (List.mem_cons_of_mem _ hole) path
  | _, _, _, .notPath malformed, _, _ => fill_hole_error (Reference.resolve_notPath malformed) _
  | _, _, _, .failed path here, _, within => by
    obtain ⟨fewer, rfl, shorter⟩ := within _ List.mem_cons_self path
    have found := Evaluates.lookupWithin_eq here shorter
    exact fill_hole_error (Reference.resolve_error path found) _
  | _, _, _, .missing path here, _, within => by
    obtain ⟨fewer, rfl, shorter⟩ := within _ List.mem_cons_self path
    have found := Evaluates.lookupWithin_eq here shorter
    exact fill_hole_error (Reference.resolve_none path found) _
  | _, _, _, .notScalar path here compound, _, within => by
    obtain ⟨fewer, rfl, shorter⟩ := within _ List.mem_cons_self path
    have found := Evaluates.lookupWithin_eq here shorter
    exact fill_hole_error (Reference.resolve_nonScalar path found compound) _
  | _, _, _, .unclosed, _, _ => rfl

end

theorem evaluates_iff_lookupWithin (within : store.ChainsWithin links k)
    (result : Except PropertyError (Option Value)) :
    store.Evaluates k result ↔ store.lookupWithin (links + 1) k = result := by
  constructor
  · intro evaluates
    exact evaluates.lookupWithin_eq within
  · rintro rfl
    exact evaluates_lookupWithin links within

/-- **A chain of references that is too long spoils the lookup**, though it may be another fault
that is reported. -/
theorem exists_error_of_chain (links : Nat) : ∀ {k rest},
    List.IsChain store.Refers (k :: rest) → links ≤ rest.length →
      ∃ e, store.lookupWithin links k = .error e := by
  induction links with
  | zero =>
    intro k rest _ _
    exact ⟨.circularReference k, rfl⟩
  | succ links ih =>
    intro k rest chain long
    cases rest with
    | nil => simp at long
    | cons j rest =>
      obtain ⟨⟨text, raw, hole, path⟩, further⟩ := List.isChain_cons_cons.mp chain
      obtain ⟨e, found⟩ := ih further (Nat.le_of_succ_le_succ long)
      -- whatever stands to the left of this hole, the text is not filled
      obtain ⟨e', failed⟩ := exists_error_of_mem hole (Reference.resolve_error path found)
        (.unclosedReference text)
      refine ⟨e', ?_⟩
      rw [lookupWithin_eq_fill raw, failed]
      rfl

/-- A lookup that finds something may follow every chain of references. -/
theorem chainsWithin_of_lookupWithin {result : Option Value}
    (found : store.lookupWithin (links + 1) k = .ok result) : store.ChainsWithin links k := by
  intro rest chain
  by_contra long
  obtain ⟨e, failed⟩ := exists_error_of_chain (links + 1) chain (by omega)
  rw [found] at failed
  cases failed

/-- What is found with some links is found with more of them. -/
theorem lookupWithin_of_le {result : Option Value} (found : store.lookupWithin links k = .ok result)
    {more : Nat} (le : links ≤ more) : store.lookupWithin more k = .ok result := by
  cases links with
  | zero => cases found
  | succ links =>
    have within := chainsWithin_of_lookupWithin found
    have further : store.ChainsWithin (more - 1) k := by
      intro rest chain
      have length := within rest chain
      omega
    have evaluates := (evaluates_iff_lookupWithin within _).mpr found
    have enough := (evaluates_iff_lookupWithin further _).mp evaluates
    rwa [Nat.sub_add_cancel (by omega)] at enough

/-! ### The limit of a lookup -/

/-- **What a lookup finds.**  If no chain of references from a key has more links than a lookup may
follow, the lookup is the evaluation of the key, which always comes to an end, and no circle is
reported.  If one has, and so if the key leads to a circle, the lookup fails. -/
theorem lookup_spec (store : Store) (k : String) :
    (store.ChainsWithin 32 k →
      (∀ result, store.Evaluates k result ↔ store.lookup k = result) ∧
      ∀ circle, store.lookup k ≠ .error (.circularReference circle)) ∧
    (∀ rest, List.IsChain store.Refers (k :: rest) → 32 < rest.length →
      ∃ e, store.lookup k = .error e) ∧
    (∀ j, Relation.ReflTransGen store.Refers k j → Relation.TransGen store.Refers j j →
      ∃ e, store.lookup k = .error e) := by
  refine ⟨fun within => ⟨?_, ?_⟩, ?_, ?_⟩
  · intro result
    exact evaluates_iff_lookupWithin within result
  · intro circle
    exact (evaluates_lookupWithin 32 within).ne_circularReference
  · intro rest chain long
    exact exists_error_of_chain 33 chain long
  · intro j leads circle
    obtain ⟨rest, chain, long⟩ := exists_chain_of_circle leads circle 33
    exact exists_error_of_chain 33 chain long.ge

/-- A greeting that refers to a name, and a text that refers to itself. -/
def greetings : Store :=
  ⟨⟨[("again", .string "${again}"), ("greeting", .string "hello ${name}"),
    ("name", .string "you")]⟩⟩

/-- The greeting is evaluated, and the text that refers to itself is not. -/
theorem greetings_lookup :
    greetings.ChainsWithin 32 "greeting" ∧
      greetings.Evaluates "greeting" (.ok (some (.string "hello you"))) ∧
      ∃ e, greetings.lookup "again" = .error e := by
  have within : greetings.ChainsWithin 32 "greeting" := by
    intro rest chain
    match rest with
    | [] => simp
    | [_] => simp
    | j :: j' :: _ =>
      -- the chain ends at the name, whose text has no holes
      obtain ⟨first, further⟩ := List.isChain_cons_cons.mp chain
      have hello : greetings.raw? "greeting" = some (.string "hello ${name}") := rfl
      have toName : Piece.hole j ∈ "hello ".toList.map Piece.char ++ [.hole "name"] :=
        first.hole_mem hello
      obtain rfl : j = "name" := by simpa using toName
      have you : greetings.raw? "name" = some (.string "you") := rfl
      have nowhere : Piece.hole j' ∈ "you".toList.map Piece.char :=
        (List.isChain_cons_cons.mp further).1.hole_mem you
      simp at nowhere
  have itself : greetings.Refers "again" "again" := ⟨_, rfl, by decide, rfl⟩
  refine ⟨within, (((lookup_spec greetings "greeting").1 within).1 _).mpr rfl, ?_⟩
  exact (lookup_spec greetings "again").2.2 _ .refl (.single itself)

end Store

end ConfigBinding
