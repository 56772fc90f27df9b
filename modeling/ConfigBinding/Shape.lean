import ConfigBinding.Value

/-!
# Shapes of values

The types as which callers read values. Reading checks the shape of a value and does not decode
texts.

## Main Definitions

* `Shape` — the types
* `Shape.read?` — a value as a type sees it
-/

namespace ConfigBinding

/-- A type as which a value can be read. -/
inductive Shape where
  /-- Integers between two bounds, the bounds included. -/
  | integer (least greatest : Int)
  /-- Floats, and integers as floats. -/
  | float
  | boolean
  /-- Texts, and datetimes as texts. -/
  | string
  | list (item : Shape)
  | table (item : Shape)

namespace Shape

/-- Signed integers of a number of bits. -/
def signed (bits : Nat) : Shape :=
  let half : Int := Nat.pow 2 (bits - 1)
  .integer (-half) (half - 1)

/-- Unsigned integers of a number of bits. -/
def unsigned (bits : Nat) : Shape :=
  let size : Int := Nat.pow 2 bits
  .integer 0 (size - 1)

/-- What a type sees of a value, if the value has its shape. -/
def read? : Shape → Value → Option Value
  | .integer least greatest, .integer number =>
    if least ≤ number.toInt ∧ number.toInt ≤ greatest then some (.integer number) else none
  | .float, .float number => some (.float number)
  | .float, .integer number => some (.float number.toFloat)
  | .boolean, .boolean flag => some (.boolean flag)
  | .string, .string text => some (.string text)
  | .string, .datetime moment => some (.string moment.text)
  | .list item, .array items => (items.mapM item.read?).map .array
  | .table item, .table t =>
    (t.entries.mapM fun entry => (item.read? entry.2).map (entry.1, ·)).map fun entries =>
      .table ⟨entries⟩
  | _, _ => none

end Shape

end ConfigBinding
