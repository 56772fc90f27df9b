import ConfigBinding.Proofs.Placeholder.Marks
import ConfigBinding.Proofs.Reference.Evaluation

/-!
# Texts that are not interpolated

A store passes over the texts that have no mark.  This is sound: interpolation leaves such a text as
it is and asks for nothing.  So a lookup finds what it would find if every stored text were
interpolated.

## Main Definitions

* `Reference.interpolateRemembering` — interpolation by a lookup that has a memory
* `Store.lookupInterpolating` — a lookup that passes over no text

## Main Statements

* `Reference.interpolateRemembering_fst` — a memory that no answer depends on changes nothing
* `Reference.interpolateRemembering_of_passedOver` — a text without marks is left as it is, and so
  is the memory
* `Store.lookupWithin_eq_lookupInterpolating` — lookups with and without the shortcut
* `Store.passing_over_is_sound` — all of this, and that no more texts could be passed over

## Design Notes

A lookup that only answers leaves no trace of having been asked.  One with a memory does: it may
count its calls, or write them down.  That nothing is asked is said of every such lookup, whatever
it keeps.  The memory is handed on from hole to hole, also where a hole cannot be filled.
-/

namespace ConfigBinding

variable {σ ε : Type}

/-! ### Holes that are filled from a memory -/

namespace Placeholder

/-- The text of the pieces, as `fill` has it, if the resolver has a memory: it is asked for the
holes from the left, and not any more after a fault. -/
def fillRemembering (resolve : String → σ → Except ε (Option String) × σ) (unclosed : ε) :
    List Piece → σ → Except ε (List Char) × σ
  | [], memory => (.ok [], memory)
  | .char c :: rest, memory =>
    let (text, after) := fillRemembering resolve unclosed rest memory
    (text.map (c :: ·), after)
  | .hole name :: rest, memory =>
    match resolve name memory with
    | (.error e, after) => (.error e, after)
    | (.ok value, between) =>
      let (text, after) := fillRemembering resolve unclosed rest between
      (text.map ((value.map String.toList).getD (holeText name) ++ ·), after)
  | .unclosed :: _, memory => (.error unclosed, memory)

/-- A text with its holes filled from a memory. -/
def expandRemembering (resolve : String → σ → Except ε (Option String) × σ) (unclosed : ε)
    (text : String) (memory : σ) : Except ε String × σ :=
  let (filled, after) := fillRemembering resolve unclosed (pieces text.toList) memory
  (filled.map String.ofList, after)

variable {remembering : String → σ → Except ε (Option String) × σ}
variable {resolve : String → Except ε (Option String)} {unclosed : ε}

theorem fillRemembering_fst (answers : ∀ name memory, (remembering name memory).1 = resolve name)
    (parts : List Piece) (memory : σ) :
    (fillRemembering remembering unclosed parts memory).1 = fill resolve unclosed parts := by
  induction parts generalizing memory with
  | nil => rfl
  | cons part rest ih =>
    cases part with
    | char c => rw [fill_char_cons, ← ih memory, fillRemembering]
    | hole name =>
      have here := answers name memory
      rw [fillRemembering, fill, ← here]
      cases asked : remembering name memory with
      | mk answer between =>
        cases answer with
        | error e => rfl
        | ok value =>
          simp only [ih between]
          cases fill resolve unclosed rest <;> rfl
    | unclosed => rfl

/-- Pieces without holes are their characters, and the memory is left as it was. -/
theorem fillRemembering_chars (text : List Char) (memory : σ) :
    fillRemembering remembering unclosed (text.map .char) memory = (.ok text, memory) := by
  induction text with
  | nil => rfl
  | cons c text ih =>
    rw [List.map_cons, fillRemembering, ih]
    rfl

end Placeholder

namespace Reference

open Placeholder

/-- The bare text of the value that a reference leads to, as `resolve` has it, if the lookup has a
memory.  It is not asked for what is no path. -/
def resolveRemembering (lookup : String → σ → Except PropertyError (Option Value) × σ)
    (path : String) (memory : σ) : Except PropertyError (Option String) × σ :=
  if isPath path then
    let (found, after) := lookup path memory
    (resolve (fun _ => found) path, after)
  else (.error (.invalidReferencePath path), memory)

/-- A literal with its references replaced by what a lookup with a memory finds. -/
def interpolateRemembering (lookup : String → σ → Except PropertyError (Option Value) × σ)
    (literal : String) (memory : σ) : Except PropertyError String × σ :=
  expandRemembering (resolveRemembering lookup) (.unclosedReference literal) literal memory

variable {remembering : String → σ → Except PropertyError (Option Value) × σ}
variable {lookup : String → Except PropertyError (Option Value)} {text : String}

theorem resolveRemembering_fst
    (answers : ∀ path memory, (remembering path memory).1 = lookup path)
    (path : String) (memory : σ) :
    (resolveRemembering remembering path memory).1 = resolve lookup path := by
  unfold resolveRemembering
  by_cases valid : isPath path = true
  · rw [if_pos valid]
    simp only [resolve, answers]
  · rw [if_neg valid, resolve, if_neg valid]

/-- **A memory that no answer depends on changes nothing**: what comes of the interpolation is what
comes of it without a memory. -/
theorem interpolateRemembering_fst
    (answers : ∀ path memory, (remembering path memory).1 = lookup path)
    (literal : String) (memory : σ) :
    (interpolateRemembering remembering literal memory).1 = interpolate lookup literal := by
  show (fillRemembering _ _ _ _).1.map String.ofList = _
  rw [fillRemembering_fst (resolveRemembering_fst answers)]
  rfl

/-- **A text without marks is left as it is, and so is the memory**: nothing is asked. -/
theorem interpolateRemembering_of_passedOver (passedOver : mayHavePlaceholders text = false)
    (memory : σ) : interpolateRemembering remembering text memory = (.ok text, memory) := by
  rw [interpolateRemembering, expandRemembering, pieces_of_not_mayHavePlaceholders passedOver,
    fillRemembering_chars]
  simp [Except.map]

/-- Only texts without marks are left as they are by every lookup: one that always fails leaves no
others. -/
theorem passedOver_of_interpolate (left : ∀ lookup, interpolate lookup text = .ok text) :
    mayHavePlaceholders text = false := by
  let failing : String → Except PropertyError (Option Value) :=
    fun path => .error (.referenceNotFound path)
  have refused : ∀ path, ∃ e, resolve failing path = .error e := by
    intro path
    cases valid : isPath path with
    | false => exact ⟨_, resolve_notPath valid⟩
    | true => exact ⟨_, resolve_error valid rfl⟩
  exact (expand_eq_self_iff refused).mp (left failing)

end Reference

namespace Store

open Placeholder

/-- The value under a key, as `lookupWithin` has it, where every stored text is interpolated. -/
def lookupInterpolating (store : Store) : Nat → String → Except PropertyError (Option Value)
  | 0, key => .error (.circularReference key)
  | links + 1, key =>
    match store.raw? key with
    | some (.string text) =>
      match Reference.interpolate (store.lookupInterpolating links) text with
      | .ok resolved => .ok (some (.string resolved))
      | .error e => .error e
    | other => .ok other

/-- **Passing over texts without marks makes no difference**, however many links are left. -/
theorem lookupWithin_eq_lookupInterpolating (store : Store) (links : Nat) :
    store.lookupWithin links = store.lookupInterpolating links := by
  induction links with
  | zero => rfl
  | succ links ih =>
    funext key
    cases raw : store.raw? key with
    | none => simp only [lookupWithin, lookupInterpolating, raw]
    | some value =>
      cases value with
      | string text =>
        rw [lookupWithin_eq_interpolate raw, lookupInterpolating, raw, ih]
        simp only
        cases Reference.interpolate (store.lookupInterpolating links) text <;> rfl
      | _ => simp only [lookupWithin, lookupInterpolating, raw]

/-- **The texts that a store passes over need no interpolation.**  They are those in which neither a
`$` stands before a `{` nor a `$` before a `$`.  Interpolation leaves such a text as it is, whatever
the lookup, and asks the lookup for nothing: no memory that it may have changes.  No other text is
left as it is by every lookup.  And under every key, with any number of links left, a store finds
what it would find if every text were interpolated. -/
theorem passing_over_is_sound :
    (∀ text : String, mayHavePlaceholders text = false ↔
      ¬ ['$', '{'] <:+: text.toList ∧ ¬ ['$', '$'] <:+: text.toList) ∧
    (∀ text, mayHavePlaceholders text = false ↔
      ∀ lookup, Reference.interpolate lookup text = .ok text) ∧
    (∀ text, mayHavePlaceholders text = false ↔
      ∀ (σ : Type) (lookup : String → σ → Except PropertyError (Option Value) × σ) (memory : σ),
        Reference.interpolateRemembering lookup text memory = (.ok text, memory)) ∧
    ∀ (store : Store) (links : Nat) (key : String),
      store.lookupWithin links key = store.lookupInterpolating links key := by
  refine ⟨fun text => mayHavePlaceholders_eq_false_iff, fun text => ⟨?_, ?_⟩, fun text => ⟨?_, ?_⟩,
    fun store links key => congrFun (lookupWithin_eq_lookupInterpolating store links) key⟩
  · exact fun passedOver lookup => expand_of_not_mayHavePlaceholders passedOver
  · exact Reference.passedOver_of_interpolate
  · exact fun passedOver σ lookup => Reference.interpolateRemembering_of_passedOver passedOver
  · intro left
    refine Reference.passedOver_of_interpolate fun lookup => ?_
    -- a lookup that has nothing to remember
    let forgetful : String → Unit → Except PropertyError (Option Value) × Unit :=
      fun path memory => (lookup path, memory)
    have answers : ∀ path memory, (forgetful path memory).1 = lookup path := fun _ _ => rfl
    rw [← Reference.interpolateRemembering_fst answers text (), left Unit forgetful ()]

end Store

end ConfigBinding
