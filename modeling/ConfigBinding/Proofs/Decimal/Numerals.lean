import ConfigBinding.Decimal.Digits
import Mathlib.Data.List.Induction
import Mathlib.Data.Nat.Digits.Defs

/-!
# Numerals

Which texts are read as an index, and as which.

## Main Definitions

* `Denotes` — the number that a run of digits denotes in base ten
* `Numeral` — digits after a plus sign or none

## Main Statements

* `readIndex?_eq_some_iff` — the numerals that fit a word are read, and nothing else

## Design Notes

There is no limit to the length of a numeral.  Zeros in front make it longer and denote nothing, so
it is the number and not its text that has to fit a word.
-/

namespace ConfigBinding.Decimal

/-- **The number that a run of digits denotes** in base ten.  There is at least one digit. -/
structure Denotes (digits : List Char) (n : Nat) : Prop where
  nonempty : digits ≠ []
  all : ∀ c ∈ digits, isDigit c = true
  value : n = Nat.ofDigits 10 (digits.reverse.map digitValue)

/-- **A numeral**: a run of digits, with a plus sign in front or without. -/
inductive Numeral : List Char → Nat → Prop
  | bare {digits : List Char} {n : Nat} (denotes : Denotes digits n) : Numeral digits n
  | plus {digits : List Char} {n : Nat} (denotes : Denotes digits n) : Numeral ('+' :: digits) n

variable {text digits : List Char} {n : Nat}

/-- One more digit at the end is one more digit for the units. -/
theorem digitsValue_append_singleton (digits : List Char) (c : Char) :
    digitsValue (digits ++ [c]) = 10 * digitsValue digits + digitValue c :=
  List.foldl_append

/-- Reading digits from the left gives what they denote, by induction from the units on. -/
theorem digitsValue_eq_ofDigits (digits : List Char) :
    digitsValue digits = Nat.ofDigits 10 (digits.reverse.map digitValue) := by
  induction digits using List.reverseRecOn with
  | nil => rfl
  | append_singleton digits c ih =>
    rw [digitsValue_append_singleton, ih, List.reverse_concat, List.map_cons, Nat.ofDigits_cons,
      Nat.add_comm]

theorem readNat?_eq_some_iff : readNat? digits = some n ↔ Denotes digits n := by
  rw [readNat?, Option.ite_none_right_eq_some, Option.some.injEq, digitsValue_eq_ofDigits,
    Bool.and_eq_true, Bool.not_eq_true', List.isEmpty_eq_false_iff, List.all_eq_true]
  constructor
  · rintro ⟨⟨nonempty, all⟩, rfl⟩
    exact ⟨nonempty, all, rfl⟩
  · rintro ⟨nonempty, all, rfl⟩
    exact ⟨⟨nonempty, all⟩, rfl⟩

/-- No digit is a plus sign, so the one in front is not among the digits. -/
theorem numeral_plus_iff : Numeral ('+' :: digits) n ↔ Denotes digits n := by
  constructor
  · rintro (denotes | denotes)
    · exact absurd (denotes.all '+' List.mem_cons_self) (by decide)
    · exact denotes
  · exact .plus

theorem numeral_iff_of_ne (bare : ∀ rest, text ≠ '+' :: rest) :
    Numeral text n ↔ Denotes text n := by
  constructor
  · rintro (denotes | denotes)
    · exact denotes
    · exact absurd rfl (bare _)
  · exact .bare

/-- **The numerals that fit a word are read as an index**, and nothing else is. -/
theorem readIndex?_eq_some_iff : readIndex? text = some n ↔ Numeral text n ∧ n < UInt64.size := by
  rcases exists_or_forall_not fun rest => text = '+' :: rest with ⟨rest, rfl⟩ | bare
  · rw [readIndex?, Option.filter_eq_some_iff, readNat?_eq_some_iff, numeral_plus_iff,
      decide_eq_true_iff]
  · rw [readIndex?, Option.filter_eq_some_iff, readNat?_eq_some_iff, numeral_iff_of_ne bare,
      decide_eq_true_iff]
    exact bare

end ConfigBinding.Decimal
