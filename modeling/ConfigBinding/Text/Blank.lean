/-!
# Blank characters

White space as it is cut from the ends of a literal before the literal is read.

## Main Definitions

* `isBlank` — the characters with the White_Space property
* `trim` — a text without the blanks at its two ends
-/

namespace ConfigBinding.Text

/-- The twenty-five white space characters, ASCII or not. -/
def isBlank (c : Char) : Bool :=
  let code := c.toNat
  (0x9 ≤ code && code ≤ 0xD) || code == 0x20 || code == 0x85 || code == 0xA0 || code == 0x1680 ||
    (0x2000 ≤ code && code ≤ 0x200A) || code == 0x2028 || code == 0x2029 || code == 0x202F ||
    code == 0x205F || code == 0x3000

/-- A text without the blanks at its start. -/
def trimStart (text : List Char) : List Char :=
  text.dropWhile isBlank

/-- A text without the blanks at its end. -/
def trimEnd (text : List Char) : List Char :=
  (text.reverse.dropWhile isBlank).reverse

/-- A text without the blanks at its two ends; blanks inside it stay. -/
def trim (text : List Char) : List Char :=
  trimEnd (trimStart text)

/-- From a text without blanks nothing is cut. -/
theorem trim_eq_self {text : List Char} (solid : ∀ c ∈ text, isBlank c = false) :
    trim text = text := by
  have kept : ∀ {text : List Char}, (∀ c ∈ text, isBlank c = false) →
      text.dropWhile isBlank = text := by
    intro text solid
    cases text with
    | nil => rfl
    | cons c rest => exact List.dropWhile_cons_of_neg (by simp [solid c List.mem_cons_self])
  have backwards : ∀ c ∈ text.reverse, isBlank c = false :=
    fun c found => solid c (List.mem_reverse.mp found)
  rw [trim, trimStart, kept solid, trimEnd, kept backwards, List.reverse_reverse]

end ConfigBinding.Text
