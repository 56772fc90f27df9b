import ConfigBinding.Decimal.Digits

/-!
# Decimal fractions read as floats

A decimal fraction is kept exactly, as its digits and a power of ten, until it is rounded to the
nearest float.

## Main Definitions

* `Scientific` — a sign, digits and a power of ten
* `Scientific.toFloat` — the nearest float, an infinity where none is near
* `readFloat?` — the number texts of a literal: digits with an optional point and exponent, or the
  names of infinity and of no number

## Design Notes

Neither the number of digits nor the power of ten is bounded, but what is calculated with is. A
number of 400 digits before the point is beyond the greatest float, and one with 400 zeros after it
is closer to zero than to any other float. A float, or the middle between two floats, has fewer than
800 digits, so of further digits it matters only whether one of them is not zero.
-/

namespace ConfigBinding.Decimal

/-- The number `± digits × 10 ^ exponent`. -/
structure Scientific where
  negative : Bool
  digits : List Char
  exponent : Int

/-- The decimal written as `whole.fraction` with the given power of ten. -/
def Scientific.ofParts (negative : Bool) (whole fraction : List Char) (exponent : Int) :
    Scientific :=
  ⟨negative, whole ++ fraction, exponent - fraction.length⟩

/-- The first 800 digits, and one digit that tells whether more than zeros follow them. -/
def significantDigits (digits : List Char) : List Char :=
  match digits.drop 800 with
  | [] => digits
  | others => digits.take 800 ++ [if others.all (· == '0') then '0' else '1']

/-- The float nearest to the magnitude, ties to even. -/
def Scientific.magnitude (x : Scientific) : Float :=
  let digits := x.digits.dropWhile (· == '0')
  let leading : Int := digits.length + x.exponent
  if digits.isEmpty || leading < -400 then 0.0
  else if 400 < leading then 1.0 / 0.0
  else
    let digits := significantDigits digits
    let exponent := leading - digits.length
    Float.ofScientific (digitsValue digits) (exponent < 0) exponent.natAbs

/-- The float nearest to the number; zero keeps its sign. -/
def Scientific.toFloat (x : Scientific) : Float :=
  if x.negative then -x.magnitude else x.magnitude

/-- The digits at the start of a text, and what follows them. -/
def spanDigits (text : List Char) : List Char × List Char :=
  (text.takeWhile isDigit, text.dropWhile isDigit)

/-- The exponent at the end of a number: nothing, or an `e` of either case and an integer. -/
def readExponent? : List Char → Option Int
  | [] => some 0
  | c :: rest => if c = 'e' || c = 'E' then readInt? rest else none

/-- An unsigned decimal: digits, a point and digits, of which one of the two runs may be missing,
then an exponent. The point may be missing too. -/
def readDecimal? (negative : Bool) (text : List Char) : Option Scientific :=
  let (whole, afterWhole) := spanDigits text
  let (fraction, afterFraction) := match afterWhole with
    | '.' :: rest => spanDigits rest
    | _ => ([], afterWhole)
  if whole.isEmpty && fraction.isEmpty then none
  else (readExponent? afterFraction).map (Scientific.ofParts negative whole fraction)

/-- The lower case of the ASCII letters of a text. -/
def lowerAscii (text : List Char) : List Char :=
  text.map Char.toLower

/-- A number as a literal may write it: an optional sign, then a decimal, `inf`, `infinity` or
`nan`, the names in any case. -/
def readFloat? (text : List Char) : Option Float :=
  let (negative, number) := splitSign text
  let name := String.ofList (lowerAscii number)
  if name = "inf" || name = "infinity" then some (if negative then -1.0 / 0.0 else 1.0 / 0.0)
  else if name = "nan" then some (0.0 / 0.0)
  else (readDecimal? negative number).map Scientific.toFloat

end ConfigBinding.Decimal
