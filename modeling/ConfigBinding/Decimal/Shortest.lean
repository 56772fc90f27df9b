import ConfigBinding.Decimal.Digits

/-!
# Shortest decimals

The decimal text of a float: the fewest digits that read back to it, and of the candidates with so
few digits the one nearest to the float.

## Main Definitions

* `Binary` — a positive finite float as an exact number
* `Binary.readsBack` — whether a decimal lies among the reals that round to the float
* `Binary.shortest` — the digits and the power of ten that are written
* `FloatStyle` — what a text leaves open: the name of no number, and the tail of whole numbers
* `FloatStyle.render` — the text of a float

## Design Notes

All comparisons are between natural numbers. A real number `a × 2 ^ i` is compared with a decimal
`d × 10 ^ g` after both are multiplied by the powers that are missing, so nothing is rounded.
-/

namespace ConfigBinding.Decimal

/-- The number `significand × 2 ^ exponent`. Below a power of two the gap to the next float is half
the gap above it, which `narrowBelow` records. -/
structure Binary where
  significand : Nat
  exponent : Int
  narrowBelow : Bool

/-- The magnitude of a finite float, read off its bits. A normal float has a leading bit, worth
4503599627370496 units, that is not written. -/
def Binary.ofBits (bits : UInt64) : Binary :=
  let power := ((bits >>> 52) &&& 0x7FF).toNat
  let fraction := (bits &&& 0xFFFFFFFFFFFFF).toNat
  if power = 0 then ⟨fraction, -1074, false⟩
  else ⟨4503599627370496 + fraction, power - 1075, fraction == 0 && 1 < power⟩

namespace Binary

/-- A quarter of the number's unit: the number and the ends of its interval are whole multiples. -/
def quarter (x : Binary) : Int :=
  x.exponent - 2

/-- `d × 10 ^ grid`, on the scale on which `x` is compared with the decimals of that grid. -/
def scaleDecimal (x : Binary) (grid : Int) (d : Nat) : Nat :=
  d * Nat.pow 10 grid.toNat * Nat.pow 2 (-x.quarter).toNat

/-- `n` quarters of the unit of `x`, on the same scale. -/
def scaleQuarters (x : Binary) (grid : Int) (n : Nat) : Nat :=
  n * Nat.pow 2 x.quarter.toNat * Nat.pow 10 (-grid).toNat

/-- The quarters from zero to the lower end of the interval of reals that round to `x`. -/
def lower (x : Binary) : Nat :=
  4 * x.significand - if x.narrowBelow then 1 else 2

/-- The quarters from zero to the upper end of the interval. -/
def upper (x : Binary) : Nat :=
  4 * x.significand + 2

/-- Whether `d × 10 ^ grid` rounds to `x`. The ends of the interval are ties, which round to the
float with an even significand. -/
def readsBack (x : Binary) (grid : Int) (d : Nat) : Bool :=
  let decimal := x.scaleDecimal grid d
  let lower := x.scaleQuarters grid x.lower
  let upper := x.scaleQuarters grid x.upper
  if x.significand % 2 = 0 then lower ≤ decimal && decimal ≤ upper
  else lower < decimal && decimal < upper

/-- The greatest decimal of a grid that is not above `x`. -/
def below (x : Binary) (grid : Int) : Nat :=
  x.scaleQuarters grid (4 * x.significand) / x.scaleDecimal grid 1

/-- The decimal of a grid that reads back to `x`, if there is one. Only the two decimals around `x`
can; of two the nearer is taken, and the upper one if `x` lies halfway. -/
def onGrid? (x : Binary) (grid : Int) : Option Nat :=
  let down := x.below grid
  match x.readsBack grid down, x.readsBack grid (down + 1) with
  | true, true =>
    let middle := x.scaleDecimal grid (2 * down + 1)
    if 2 * x.scaleQuarters grid (4 * x.significand) < middle then some down else some (down + 1)
  | true, false => some down
  | false, true => some (down + 1)
  | false, false => none

/-- The least power of ten above `x`. No positive float is below `10 ^ -400`. -/
def scale (x : Binary) : Int :=
  (natDigits (x.below (-400))).length - 400

/-- Moves the zeros at the end of the digits into the power of ten. -/
def stripZeros : Nat → Nat × Int → Nat × Int
  | 0, d => d
  | limit + 1, (digits, grid) =>
    if digits % 10 = 0 then stripZeros limit (digits / 10, grid + 1) else (digits, grid)

/-- The first grid, from the coarsest, that has a decimal reading back to `x`, with that decimal.
Seventeen digits always suffice. -/
def shortest (x : Binary) : Nat × Int :=
  let grids := (List.range 17).map fun n : Nat => x.scale - 1 - n
  let found := grids.findSome? fun grid => (x.onGrid? grid).map (·, grid)
  stripZeros 17 (found.getD (x.below (x.scale - 17), x.scale - 17))

end Binary

/-- `digits × 10 ^ grid` without an exponent. Whole numbers get the tail, and others a point with
at least one digit before it. -/
def positional (wholeTail : String) (digits : List Char) : Int → List Char
  | .ofNat zeros => digits ++ List.replicate zeros '0' ++ wholeTail.toList
  | .negSucc n =>
    let padded := List.replicate (n + 2 - digits.length) '0' ++ digits
    let cut := padded.length - (n + 1)
    padded.take cut ++ '.' :: padded.drop cut

/-- What is left open by "the shortest digits, without an exponent". -/
structure FloatStyle where
  /-- The text of no number. -/
  noNumber : String
  /-- What follows the digits of a whole number. -/
  wholeTail : String

/-- The text of a float. Zero keeps its sign, and so do the infinities. -/
def FloatStyle.render (style : FloatStyle) (x : Float) : String :=
  let bits := x.toBits
  let sign := if bits >>> 63 = 0 then [] else ['-']
  let fraction := bits &&& 0xFFFFFFFFFFFFF
  if (bits >>> 52) &&& 0x7FF = 0x7FF then
    if fraction = 0 then .ofList (sign ++ ['i', 'n', 'f']) else style.noNumber
  else if bits <<< 1 = 0 then .ofList (sign ++ positional style.wholeTail ['0'] 0)
  else
    let (digits, grid) := (Binary.ofBits bits).shortest
    .ofList (sign ++ positional style.wholeTail (natDigits digits) grid)

end ConfigBinding.Decimal
