import Mathlib.Data.Char
import Mathlib.Data.UInt
import Mathlib.Tactic.SplitIfs

/-!
# The order of texts

Texts are ordered by their characters, and so dictionaries list their keys.  This is the order of
the bytes of their UTF-8 forms as well.

## Main Definitions

* `Text.bytes` — the bytes of a text

## Main Statements

* `Text.bytes_lt_of_lt` — an earlier text has earlier bytes

## Design Notes

A character of more bytes begins with a greater byte, and for characters of one length the bytes
hold the digits of the code point, the highest first.  So different characters differ at a byte that
both of them have, and what follows them does not matter.
-/

namespace ConfigBinding.Text

/-- The bytes of a text in UTF-8. -/
def bytes (text : String) : List UInt8 :=
  text.toUTF8.data.toList

/-- The bytes of a text are those of its characters, one after the other. -/
theorem bytes_eq (text : String) : bytes text = text.toList.flatMap String.utf8EncodeChar := by
  have encoded : text.toByteArray = text.toList.utf8Encode := by
    conv_lhs => rw [← String.ofList_toList (s := text)]
    exact String.toByteArray_ofList
  rw [bytes, String.toUTF8_eq_toByteArray, encoded, List.utf8Encode]
  simp

theorem ofNat_cons_lt_iff {a b : Nat} (below : a < 256) (below' : b < 256)
    (rest rest' : List UInt8) :
    UInt8.ofNat a :: rest < UInt8.ofNat b :: rest' ↔ a < b ∨ a = b ∧ rest < rest' := by
  rw [List.cons_lt_cons_iff, UInt8.lt_iff_toNat_lt, ← UInt8.toNat_inj,
    UInt8.toNat_ofNat_of_lt' below, UInt8.toNat_ofNat_of_lt' below']

/-- **An earlier character has earlier bytes**, whatever follows. -/
theorem utf8EncodeChar_append_lt {c d : Char} (less : c < d) (rest rest' : List UInt8) :
    String.utf8EncodeChar c ++ rest < String.utf8EncodeChar d ++ rest' := by
  have lessThan : c.val.toNat < d.val.toNat := less
  have high : d.val.toNat < 1114112 := by
    rcases d.valid with below | ⟨-, below⟩
    · exact below.trans (by decide)
    · exact below
  unfold String.utf8EncodeChar
  generalize c.val.toNat = v at *
  generalize d.val.toNat = u at *
  -- the digits in base 64, each from the one before
  have v₂ := Nat.div_div_eq_div_mul v 64 64
  have v₃ := Nat.div_div_eq_div_mul v 4096 64
  have u₂ := Nat.div_div_eq_div_mul u 64 64
  have u₃ := Nat.div_div_eq_div_mul u 4096 64
  have v₄ : v / 262144 % 8 = v / 262144 := Nat.mod_eq_of_lt (by omega)
  have u₄ : u / 262144 % 8 = u / 262144 := Nat.mod_eq_of_lt (by omega)
  dsimp only
  split_ifs
  all_goals
    simp (disch := omega) only [List.cons_append, List.nil_append, ofNat_cons_lt_iff]
    omega

theorem utf8EncodeChar_ne_nil (c : Char) : String.utf8EncodeChar c ≠ [] := by
  unfold String.utf8EncodeChar
  dsimp only
  split_ifs <;> exact List.cons_ne_nil _ _

/-- The first character at which two texts differ decides about their bytes. -/
theorem flatMap_utf8EncodeChar_lt {l l' : List Char} (less : l < l') :
    l.flatMap String.utf8EncodeChar < l'.flatMap String.utf8EncodeChar := by
  induction l generalizing l' with
  | nil =>
    cases l' with
    | nil => exact absurd less (List.lt_irrefl _)
    | cons d rest' =>
      rw [List.flatMap_nil, List.flatMap_cons]
      cases encoded : String.utf8EncodeChar d with
      | nil => exact absurd encoded (utf8EncodeChar_ne_nil d)
      | cons byte more => exact List.nil_lt_cons _ _
  | cons c rest ih =>
    cases l' with
    | nil => exact absurd less (List.not_lt_nil _)
    | cons d rest' =>
      rw [List.flatMap_cons, List.flatMap_cons]
      rcases List.cons_lt_cons_iff.mp less with earlier | ⟨rfl, later⟩
      · exact utf8EncodeChar_append_lt earlier _ _
      · exact List.append_left_lt (ih later)

/-- **An earlier text has earlier bytes.** -/
theorem bytes_lt_of_lt {text other : String} (less : text < other) : bytes text < bytes other := by
  have characters : text.toList < other.toList := less
  rw [bytes_eq, bytes_eq]
  exact flatMap_utf8EncodeChar_lt characters

end ConfigBinding.Text
