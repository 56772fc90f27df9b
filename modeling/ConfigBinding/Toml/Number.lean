import ConfigBinding.Decimal.Scientific
import ConfigBinding.Toml.Scan
import ConfigBinding.Value

/-!
# Numbers of TOML

Integers in four bases and floats. Underscores may stand between digits.

## Main Definitions

* `basedInteger` — an integer with the mark of its base
* `decimalNumber` — an integer or a float in decimal
* `specialFloat` — the infinities and no number
* `number` — any of them
-/

namespace ConfigBinding.Toml

open Decimal

/-- The digits at the beginning of a text that already began with a digit. An underscore counts only
between two digits, and is left out. -/
def furtherDigits (isDigit : Char → Bool) : List Char → List Char × List Char
  | '_' :: c :: rest =>
    if isDigit c then
      let (digits, rest) := furtherDigits isDigit rest
      (c :: digits, rest)
    else ([], '_' :: c :: rest)
  | c :: rest =>
    if isDigit c then
      let (digits, rest) := furtherDigits isDigit rest
      (c :: digits, rest)
    else ([], c :: rest)
  | [] => ([], [])

/-- One or more digits. -/
def digits (isDigit : Char → Bool) : Scan (List Char)
  | [] => none
  | c :: rest =>
    if isDigit c then
      let (further, rest) := furtherDigits isDigit rest
      some (c :: further, rest)
    else none

/-- The digits of a whole number without leading zeros. -/
def wholeDigits : Scan (List Char)
  | '0' :: rest => some (['0'], rest)
  | input => digits isDigit input

/-- An integer that fits its word. -/
def integer? (i : Int) : Option Value :=
  (toInt64? i).map .integer

/-- An unsigned integer in a base, after the mark of the base. -/
def inBase (base : Nat) : Scan Value := fun input => do
  let (chars, rest) ← digits (fun c => (hexValue? c).any (· < base)) input
  let value ← integer? (valueInBase base chars)
  some (value, rest)

/-- An integer in base sixteen, eight or two. -/
def basedInteger : Scan Value
  | '0' :: 'x' :: rest => inBase 16 rest
  | '0' :: 'o' :: rest => inBase 8 rest
  | '0' :: 'b' :: rest => inBase 2 rest
  | _ => none

/-- The digits after a point. -/
def fractionPart : Scan (List Char)
  | '.' :: rest => digits isDigit rest
  | _ => none

/-- A power of ten. Leading zeros are allowed here. -/
def exponentPart : Scan Int
  | c :: rest =>
    if c = 'e' || c = 'E' then
      let (negative, rest) := splitSign rest
      (digits isDigit rest).map fun (chars, rest) =>
        (if negative then -(digitsValue chars : Int) else digitsValue chars, rest)
    else none
  | [] => none

/-- A decimal fraction as a float. One that is too great is refused; one that is too small to be
finite is the negative infinity. -/
def float? (x : Scientific) : Option Value :=
  let value := x.toFloat
  if !x.negative && value.isInf then none else some (.float value)

/-- A decimal number: an integer, or a float if a fraction or an exponent follows. -/
def decimalNumber : Scan Value := fun input => do
  let (negative, rest) := splitSign input
  let (whole, rest) ← wholeDigits rest
  match fractionPart rest, exponentPart rest with
  | some (fraction, rest), _ =>
    let (exponent, rest) := (exponentPart rest).getD (0, rest)
    let value ← float? (.ofParts negative whole fraction exponent)
    some (value, rest)
  | none, some (exponent, rest) =>
    let value ← float? (.ofParts negative whole [] exponent)
    some (value, rest)
  | none, none =>
    let magnitude : Int := digitsValue whole
    let value ← integer? (if negative then -magnitude else magnitude)
    some (value, rest)

/-- An infinity or no number, with an optional sign. -/
def specialFloat : Scan Value := fun input =>
  let (negative, rest) := splitSign input
  match rest with
  | 'i' :: 'n' :: 'f' :: rest => some (.float (if negative then -1.0 / 0.0 else 1.0 / 0.0), rest)
  | 'n' :: 'a' :: 'n' :: rest => some (.float (0.0 / 0.0), rest)
  | _ => none

/-- A number of any form. -/
def number : Scan Value := fun input =>
  (basedInteger input).or <| (specialFloat input).or <| decimalNumber input

end ConfigBinding.Toml
