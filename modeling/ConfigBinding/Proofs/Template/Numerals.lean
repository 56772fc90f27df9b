import ConfigBinding.Proofs.Decimal.Numerals
import ConfigBinding.Proofs.Placeholder.Opening
import ConfigBinding.Proofs.Template.Arguments

/-!
# Numerals in templates

A template is checked for holes that are not closed, and for holes that name an argument which the
method does not take.  What it says at its holes is told here without reading the template.

## Main Definitions

* `Template.NamesOnly` — the holes of a template are closed, and the numbers they name are allowed

## Main Statements

* `Template.check_eq_ok_iff_namesOnly` — which templates are accepted

## Design Notes

A hole whose name is not a number is no hole of a template and may have any name.  A numeral that
does not fit a word counts among these, although it is one: the hole stays in the key as it is
written, and nothing is said about it when the interface is bound.
-/

namespace ConfigBinding.Template

open Placeholder

/-- **The holes of a template are closed**, and the numbers that they name are allowed. -/
def NamesOnly (allowed : Nat → Prop) (template : String) : Prop :=
  ∀ part, OpenedIn template.toList part →
    ∃ name, part = .hole name ∧ ∀ n, Decimal.Numeral name.toList n → allowed n

variable {template name : String} {params : Nat}

theorem not_openedIn_char (text : List Char) (c : Char) : ¬ OpenedIn text (.char c) := by
  rintro ⟨before, rest, -, -, opened⟩
  cases opened

/-- **A hole is accepted** if the number that it names is one of a parameter, or does not fit a
word. -/
theorem fault?_hole_eq_none_iff :
    (Piece.hole name).fault? (parameter template params) (.malformedTemplate template) = none ↔
      ∀ n, Decimal.Numeral name.toList n → n < params ∨ UInt64.size ≤ n := by
  rw [Option.eq_none_iff_forall_ne_some]
  constructor
  · intro sound n numeral
    by_contra! outside
    obtain ⟨beyond, fits⟩ := outside
    have named : index? name = some n := Decimal.readIndex?_eq_some_iff.mpr ⟨numeral, fits⟩
    have refused : parameter template params name = _ :=
      parameter_eq_error_iff.mpr ⟨n, named, beyond, rfl⟩
    exact sound _ (Piece.fault?_eq_some_iff.mpr (.inl ⟨name, rfl, refused⟩))
  · intro allowed fault found
    rcases Piece.fault?_eq_some_iff.mp found with ⟨_, same, refused⟩ | ⟨same, -⟩
    · cases same
      obtain ⟨n, named, beyond, -⟩ := parameter_eq_error_iff.mp refused
      obtain ⟨numeral, fits⟩ := Decimal.readIndex?_eq_some_iff.mp named
      rcases allowed n numeral with among | tooLarge
      · exact Nat.not_le.mpr among beyond
      · exact Nat.not_le.mpr fits tooLarge
    · cases same

/-- **Which templates are accepted.**  It is those in which every hole that is opened is closed, and
every number that a hole names is one of a parameter, however it is written; except that a number
that does not fit a word may be named in any template. -/
theorem check_eq_ok_iff_namesOnly (template : String) (params : Nat) :
    check template params = .ok () ↔
      NamesOnly (fun n => n < params ∨ UInt64.size ≤ n) template := by
  rw [check_eq_ok_iff]
  constructor
  · intro sound part opened
    cases part with
    | char c => exact absurd opened (not_openedIn_char _ c)
    | hole name =>
      have listed := hole_mem_pieces_iff.mpr opened
      exact ⟨name, rfl, fault?_hole_eq_none_iff.mp (sound _ listed)⟩
    | unclosed =>
      have listed := unclosed_mem_pieces_iff.mpr opened
      cases sound _ listed
  · intro names part listed
    cases part with
    | char c => rfl
    | hole name =>
      obtain ⟨_, same, allowed⟩ := names _ (hole_mem_pieces_iff.mp listed)
      cases same
      exact fault?_hole_eq_none_iff.mpr allowed
    | unclosed =>
      obtain ⟨_, same, -⟩ := names _ (unclosed_mem_pieces_iff.mp listed)
      cases same

/-- Seven is no parameter of a method that takes seven, with a sign and zeros in front as well. -/
theorem padded_seven_refused :
    check "shards.${+007}" 8 = .ok () ∧
      NamesOnly (fun n => n < 8 ∨ UInt64.size ≤ n) "shards.${+007}" ∧
      ¬ NamesOnly (fun n => n < 7 ∨ UInt64.size ≤ n) "shards.${+007}" := by
  have accepted : check "shards.${+007}" 8 = .ok () := rfl
  have refused : check "shards.${+007}" 7 ≠ .ok () := nofun
  exact ⟨accepted, (check_eq_ok_iff_namesOnly _ 8).mp accepted,
    fun names => refused ((check_eq_ok_iff_namesOnly _ 7).mpr names)⟩

/-- The least number that does not fit a word is accepted for one parameter, and stays in the key as
it is written. -/
theorem huge_number_accepted :
    check "shards.${18446744073709551616}" 1 = .ok () ∧
      ¬ NamesOnly (· < 1) "shards.${18446744073709551616}" ∧
      substitute "shards.${18446744073709551616}" ["eu"] =
        .ok "shards.${18446744073709551616}" := by
  refine ⟨rfl, fun names => ?_, rfl⟩
  have opened : OpenedIn "shards.${18446744073709551616}".toList (.hole "18446744073709551616") :=
    hole_mem_pieces_iff.mp (by decide)
  obtain ⟨_, same, allowed⟩ := names _ opened
  cases same
  have numeral : Decimal.Numeral "18446744073709551616".toList 18446744073709551616 :=
    .bare (Decimal.readNat?_eq_some_iff.mp rfl)
  exact absurd (allowed _ numeral) (by decide)

end ConfigBinding.Template
