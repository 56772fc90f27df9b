import ConfigBinding.Value

/-!
# Kinds

What an accessor expects a value to be.

## Main Definitions

* `Kind` — the expected kinds, and `Kind.name`
* `Kind.admits` — whether a value already is of a kind
-/

namespace ConfigBinding

/-- The kind of value that an accessor returns. A list is an array; `any` is whatever is there. -/
inductive Kind where
  | string
  | integer
  | float
  | boolean
  | datetime
  | list
  | any
  deriving DecidableEq

/-- The name of a kind in messages. -/
def Kind.name : Kind → String
  | .string => "string"
  | .integer => "integer"
  | .float => "float"
  | .boolean => "boolean"
  | .datetime => "datetime"
  | .list => "list"
  | .any => "any"

/-- Whether a value already is of a kind. -/
def Kind.admits : Kind → Value → Bool
  | .any, _ => true
  | .string, .string _ => true
  | .integer, .integer _ => true
  | .float, .float _ => true
  | .boolean, .boolean _ => true
  | .datetime, .datetime _ => true
  | .list, .array _ => true
  | _, _ => false

end ConfigBinding
