import ConfigBinding.Datetime
import ConfigBinding.Dictionary

/-!
# Configuration values

The values that a property store holds: scalars, arrays, and tables of further values under text
keys.

## Main Definitions

* `Value`, `Table` — values, and dictionaries of them
* `Value.isScalar` — whether a value has a text of its own
* `Value.at?` — the value at a path below a value
-/

namespace ConfigBinding

/-- A configuration value. -/
inductive Value where
  | string (text : String)
  | integer (number : Int64)
  | float (number : Float)
  | boolean (flag : Bool)
  | datetime (moment : Datetime)
  | array (items : List Value)
  | table (entries : Dictionary Value)

/-- Values under text keys. -/
abbrev Table := Dictionary Value

/-- A path: the keys from a table down to a value. -/
abbrev Path := List String

namespace Value

/-- The value at a path below this one. Only tables have anything below them. -/
def at? (value : Value) : Path → Option Value
  | [] => some value
  | key :: rest =>
    match value with
    | table entries => (entries.find? key).bind (at? · rest)
    | _ => none

@[simp] theorem at?_nil (value : Value) : value.at? [] = some value := rfl

@[simp] theorem at?_table_cons (entries : Table) (key : String) (rest : Path) :
    (table entries).at? (key :: rest) = (entries.find? key).bind (at? · rest) := rfl

end Value

/-- The value at a path of a table. The empty path leads to the table itself. -/
def Dictionary.at? (t : Table) (path : Path) : Option Value :=
  (Value.table t).at? path

end ConfigBinding
