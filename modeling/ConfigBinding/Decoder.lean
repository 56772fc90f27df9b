import ConfigBinding.Decimal.Scientific
import ConfigBinding.PropertyError
import ConfigBinding.Text.Blank
import ConfigBinding.Text.Split
import ConfigBinding.Value.Text

/-!
# Decoding literals and converting values

A decoder turns a literal into a value of a kind. Converting a stored value to a kind needs a
decoder only where the value is not of the kind already: it is then decoded from its bare text.

## Main Definitions

* `Decoder` — a way to decode literals
* `Decoder.standard` — the literals of each kind
* `Decoder.tagging` — a decoder that only records what it was asked to decode
* `Decoder.convert` — a stored value as a value of a kind
-/

namespace ConfigBinding

open Decimal Text

/-- A way to decode literals into values of a kind. -/
structure Decoder where
  decode : Kind → String → Except PropertyError Value

/-- The truth value of a literal without blanks at its ends, in any case. -/
def readBoolean? (text : List Char) : Option Bool :=
  let name := String.ofList (lowerAscii text)
  if name = "true" then some true
  else if name = "false" then some false
  else none

/-- The items of a list literal without blanks at its ends: the texts between the commas. A literal
with no characters has no items. -/
def readItems (text : List Char) : List String :=
  if text.isEmpty then []
  else (splitAtChar ',' text).map fun item => .ofList (trim item)

/-- The value of a literal as a kind, if it denotes one. Texts are taken as they are; all other
kinds are read between the blanks. -/
def readLiteral? (kind : Kind) (literal : String) : Option Value :=
  let text := trim literal.toList
  match kind with
  | .string | .any => some (.string literal)
  | .integer => (readInt64? text).map .integer
  | .float => (readFloat? text).map .float
  | .boolean => (readBoolean? text).map .boolean
  | .datetime => (Datetime.read? text).map .datetime
  | .list => some (.array ((readItems text).map .string))

namespace Decoder

/-- Literals as they are written by hand: numbers, truth values and datetimes, and lists with
commas. -/
def standard : Decoder where
  decode kind literal :=
    match readLiteral? kind literal with
    | some value => .ok value
    | none => .error (.undecodable literal kind)

/-- Decodes every literal as a text that names the kind and holds the literal. -/
def tagging : Decoder where
  decode kind literal := .ok (.string (kind.name ++ "<" ++ literal ++ ">"))

/-- A stored value as a value of a kind. A value of the kind is kept, integers are also floats, and
any other scalar is decoded from its bare text. -/
def convert (decoder : Decoder) (kind : Kind) (value : Value) : Except PropertyError Value :=
  if kind.admits value then .ok value
  else
    match kind, value with
    | .float, .integer number => .ok (.float number.toFloat)
    | _, _ =>
      match value.plain? with
      | some literal => decoder.decode kind literal
      | none => .error (.undecodable value.written kind)

end Decoder

end ConfigBinding
