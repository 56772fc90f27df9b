import ConfigBinding.BindError
import ConfigBinding.Text.LowerCase

/-!
# Keys of accessors

The property that an accessor reads is found by its name: the verb `get` or `is` is dropped, the
next letter is lowered, and the prefix of the interface is put in front. A declared name takes the
place of what would be derived.

## Main Definitions

* `Key.dotted` — a prefix that is empty or ends in a dot
* `Key.propertyName` — the name of a property, without the prefix
* `Key.derive` — the whole key
-/

namespace ConfigBinding.Key

/-- A prefix of keys: empty, or with a dot at its end. -/
def dotted (keyPrefix : String) : String :=
  if keyPrefix = "" || keyPrefix.toList.getLast? = some '.' then keyPrefix else keyPrefix ++ "."

/-- A method name without its verb, if it begins with one. -/
def dropVerb : List Char → List Char
  | 'g' :: 'e' :: 't' :: rest => rest
  | 'i' :: 's' :: rest => rest
  | name => name

/-- A name with its first letter in lower case. -/
def decapitalize : List Char → List Char
  | [] => []
  | c :: rest => Text.lowerChar c ++ rest

/-- The name of the property that a method reads: the declared one, or that of the method. -/
def propertyName (method : String) (declared : Option String) : String :=
  match declared with
  | some name => name
  | none => .ofList (decapitalize (dropVerb method.toList))

/-- The key that a method reads under a prefix. There is no property without a name. -/
def derive (keyPrefix method : String) (declared : Option String) : Except BindFault String :=
  let name := propertyName method declared
  if name = "" then .error .emptyPropertyName else .ok (keyPrefix ++ name)

end ConfigBinding.Key
