import ConfigBinding.Store
import ConfigBinding.Text.LowerCase

/-!
# Environment variables

Properties from environment variables. With the prefix `APP` and the separator `__`, the variable
`APP__SERVER__NAME` holds the property at the path `server`, `name`.

## Main Definitions

* `Environment` — the variables
* `VariableSelection` — which variables are properties, and at which paths
* `VariableSelection.entries` — the properties among the variables
-/

namespace ConfigBinding

/-- Environment variables: names and texts, in no particular order. -/
abbrev Environment := List (String × String)

/-- The environment after variables were assigned one after the other. -/
def Environment.ofAssignments (assignments : List (String × String)) : Environment :=
  assignments.foldl (fun env (name, text) => env.filter (·.1 != name) ++ [(name, text)]) []

/-- Which variables are properties: those whose name begins with the prefix and a separator, and
goes on. The separator also separates the segments of the path. -/
structure VariableSelection where
  namePrefix : String
  separator : String
  /-- Whether the segments keep the case of the name. -/
  keepCase : Bool
  separator_ne : separator ≠ ""

namespace VariableSelection

/-- A selection with the given separator, which must not be empty. -/
def ofSeparator? (namePrefix separator : String) (keepCase : Bool) : Option VariableSelection :=
  if h : separator = "" then none else some ⟨namePrefix, separator, keepCase, h⟩

variable (selection : VariableSelection)

/-- What the name of a property begins with. -/
def opening : List Char :=
  selection.namePrefix.toList ++ selection.separator.toList

/-- Whether a variable with this name is a property. -/
def selects (name : String) : Bool :=
  selection.opening.isPrefixOf name.toList &&
    selection.opening.length < name.toList.length

/-- A segment of a path as it is stored. -/
def segment (text : List Char) : String :=
  .ofList (if selection.keepCase then text else Text.lowerCase text)

/-- The path of a property: the segments of the rest of its name. -/
def path (name : String) : Path :=
  let rest := name.toList.drop selection.opening.length
  (Text.splitAtText selection.separator.toList rest).map selection.segment

/-- Variables by name, and by text where names are equal. -/
def inOrder (a b : String × String) : Bool :=
  a.1 < b.1 || (a.1 == b.1 && a.2 ≤ b.2)

/-- The properties among the variables, in the order of the names, so that the order in which an
environment lists its variables has no effect. -/
def entries (env : Environment) : List Entry :=
  ((env.filter (selection.selects ·.1)).mergeSort inOrder).map fun (name, text) =>
    ⟨selection.path name, .string text⟩

end VariableSelection

end ConfigBinding
