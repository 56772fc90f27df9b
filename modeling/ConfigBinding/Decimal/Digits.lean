/-!
# Whole numbers in decimal

Writing and reading of whole numbers. Writing is canonical: no sign for a natural number, no
leading zero. Reading is wider (leading zeros, an explicit `+`) and bounded by the word the number
is meant for.

## Main Definitions

* `natText`, `intText` — the decimal text of a number
* `readNat?` — one or more ASCII digits
* `readInt64?` — an optional sign and digits, within 64 signed bits
* `readIndex?` — an optional `+` and digits, within 64 unsigned bits
-/

namespace ConfigBinding.Decimal

/-- Whether a character is an ASCII digit. -/
def isDigit (c : Char) : Bool :=
  '0' ≤ c && c ≤ '9'

/-- The value of an ASCII digit. -/
def digitValue (c : Char) : Nat :=
  c.toNat - '0'.toNat

/-- The digits of a natural number, most significant first. -/
def natDigits (n : Nat) : List Char :=
  Nat.toDigits 10 n

/-- The decimal text of a natural number. -/
def natText (n : Nat) : String :=
  .ofList (natDigits n)

/-- The decimal text of an integer: a `-` in front of a negative one. -/
def intText : Int → String
  | .ofNat n => natText n
  | .negSucc n => .ofList ('-' :: natDigits (n + 1))

/-- The number that a run of digits denotes in base ten. -/
def digitsValue (digits : List Char) : Nat :=
  digits.foldl (fun value c => 10 * value + digitValue c) 0

/-- One or more ASCII digits, of any length. -/
def readNat? (text : List Char) : Option Nat :=
  if !text.isEmpty && text.all isDigit then some (digitsValue text) else none

/-- A sign, if there is one, and what follows it. `true` stands for `-`. -/
def splitSign : List Char → Bool × List Char
  | '-' :: rest => (true, rest)
  | '+' :: rest => (false, rest)
  | text => (false, text)

/-- An integer with an optional sign, of any size. -/
def readInt? (text : List Char) : Option Int :=
  let (negative, digits) := splitSign text
  (readNat? digits).map fun n => if negative then -(n : Int) else n

/-- An integer as a signed 64-bit word, if it fits. -/
def toInt64? (i : Int) : Option Int64 :=
  if -9223372036854775808 ≤ i && i ≤ 9223372036854775807 then some (Int64.ofInt i) else none

/-- An integer with an optional sign that fits a signed 64-bit word. -/
def readInt64? (text : List Char) : Option Int64 :=
  (readInt? text).bind toInt64?

/-- A natural number with an optional `+` that fits an unsigned 64-bit word. -/
def readIndex? (text : List Char) : Option Nat :=
  let digits := match text with
    | '+' :: rest => rest
    | _ => text
  (readNat? digits).filter (· < UInt64.size)

end ConfigBinding.Decimal
