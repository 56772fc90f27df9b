import ConfigBinding.Decimal.Digits
import ConfigBinding.Text.Blank

/-!
# Numbers that are read back

The decimal text of a number is read as the number.  For words of 64 bits that holds over their
whole range: the least of them has no positive counterpart, but its text is read with the sign in
front.

## Main Statements

* `readNat?_natDigits`, `readInt?_intText` — natural numbers and integers
* `readInt64?_intText` — signed words
* `isBlank_of_mem_intText` — their texts have no blanks

## Design Notes

Reading is wider than writing: leading zeros and a `+` are read and never written.  So there is no
converse.
-/

namespace ConfigBinding.Decimal

open Text

variable {c : Char} {n : Nat}

/-! ### Digits -/

/-- A digit is neither a sign nor a blank. -/
theorem ne_sign_of_isDigit (digit : isDigit c = true) : c ≠ '-' ∧ c ≠ '+' := by
  constructor
  · rintro rfl
    exact absurd digit (by decide)
  · rintro rfl
    exact absurd digit (by decide)

theorem isBlank_of_isDigit (digit : isDigit c = true) : isBlank c = false := by
  simp only [isDigit, Bool.and_eq_true, decide_eq_true_eq, Char.le_def] at digit
  have least : 48 ≤ c.toNat := digit.1
  have greatest : c.toNat ≤ 57 := digit.2
  simp only [isBlank, Bool.or_eq_false_iff, Bool.and_eq_false_iff, decide_eq_false_iff_not,
    beq_eq_false_iff_ne]
  omega

/-- The digits of a number are digits. -/
theorem isDigit_of_mem_natDigits (found : c ∈ natDigits n) : isDigit c = true :=
  Nat.isDigit_of_mem_toDigits (by decide) (by decide) found

theorem natDigits_ne_nil : natDigits n ≠ [] :=
  Nat.toDigits_ne_nil

/-- The digits of a number denote the number. -/
@[simp] theorem digitsValue_natDigits (n : Nat) : digitsValue (natDigits n) = n :=
  Nat.ofDigitChars_ten_toDigits

theorem digitValue_lt (digit : isDigit c = true) : digitValue c < 10 := by
  simp only [isDigit, Bool.and_eq_true, decide_eq_true_eq, Char.le_def] at digit
  have greatest : c.toNat ≤ 57 := digit.2
  have zero : '0'.toNat = 48 := rfl
  unfold digitValue
  omega

/-- What digits denote is bounded by how many there are, and by what stands to their left. -/
theorem foldl_digits_lt {digits : List Char} (all : ∀ c ∈ digits, isDigit c = true) (left : Nat) :
    digits.foldl (fun value c => 10 * value + digitValue c) left <
      (left + 1) * Nat.pow 10 digits.length := by
  induction digits generalizing left with
  | nil => simp
  | cons c digits ih =>
    have first : digitValue c < 10 := digitValue_lt (all c List.mem_cons_self)
    have rest := ih (fun d found => all d (List.mem_cons_of_mem _ found)) (10 * left + digitValue c)
    have shifted : 10 * left + digitValue c + 1 ≤ (left + 1) * 10 := by omega
    calc (c :: digits).foldl (fun value c => 10 * value + digitValue c) left
        < (10 * left + digitValue c + 1) * Nat.pow 10 digits.length := rest
      _ ≤ (left + 1) * 10 * Nat.pow 10 digits.length := Nat.mul_le_mul_right _ shifted
      _ = (left + 1) * Nat.pow 10 (c :: digits).length := by
        rw [Nat.mul_assoc, Nat.mul_comm 10]
        rfl

theorem digitsValue_lt {digits : List Char} (all : ∀ c ∈ digits, isDigit c = true) :
    digitsValue digits < Nat.pow 10 digits.length := by
  have bound := foldl_digits_lt all 0
  rwa [Nat.zero_add, Nat.one_mul] at bound

/-! ### Numbers -/

/-- **A natural number** is read back from its digits. -/
theorem readNat?_natDigits (n : Nat) : readNat? (natDigits n) = some n := by
  have digits : (natDigits n).all isDigit = true :=
    List.all_eq_true.mpr fun _ => isDigit_of_mem_natDigits
  simp [readNat?, natDigits_ne_nil, digits]

/-- A text that begins with a digit has no sign. -/
theorem splitSign_of_isDigit (digit : isDigit c = true) (rest : List Char) :
    splitSign (c :: rest) = (false, c :: rest) := by
  obtain ⟨notMinus, notPlus⟩ := ne_sign_of_isDigit digit
  rw [splitSign]
  · rintro _ same
    exact notMinus (List.cons_eq_cons.mp same).1
  · rintro _ same
    exact notPlus (List.cons_eq_cons.mp same).1

/-- **An integer** is read back from its text. -/
theorem readInt?_intText (i : Int) : readInt? (intText i).toList = some i := by
  cases i with
  | ofNat n =>
    rw [intText, natText, String.toList_ofList]
    cases digits : natDigits n with
    | nil => exact absurd digits natDigits_ne_nil
    | cons c rest =>
      have first : isDigit c = true := isDigit_of_mem_natDigits (n := n) (by simp [digits])
      rw [readInt?, splitSign_of_isDigit first, ← digits]
      simp [readNat?_natDigits]
  | negSucc n =>
    rw [intText, String.toList_ofList, readInt?, splitSign]
    simp [readNat?_natDigits, Int.negSucc_eq]

/-- A word fits a word. -/
theorem toInt64?_toInt (word : Int64) : toInt64? word.toInt = some word := by
  have least := word.le_toInt
  have greatest := word.toInt_lt
  have fits : -9223372036854775808 ≤ word.toInt ∧ word.toInt ≤ 9223372036854775807 := by omega
  simp [toInt64?, fits]

/-- **A signed word** is read back from its text, whichever it is. -/
theorem readInt64?_intText (word : Int64) :
    readInt64? (intText word.toInt).toList = some word := by
  rw [readInt64?, readInt?_intText, Option.bind_some, toInt64?_toInt]

/-- The text of a number has no blanks. -/
theorem isBlank_of_mem_intText {i : Int} (found : c ∈ (intText i).toList) : isBlank c = false := by
  cases i with
  | ofNat n =>
    rw [intText, natText, String.toList_ofList] at found
    exact isBlank_of_isDigit (isDigit_of_mem_natDigits found)
  | negSucc n =>
    rw [intText, String.toList_ofList] at found
    rcases List.mem_cons.mp found with rfl | digit
    · decide
    · exact isBlank_of_isDigit (isDigit_of_mem_natDigits digit)

end ConfigBinding.Decimal
