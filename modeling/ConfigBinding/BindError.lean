import ConfigBinding.PropertyError

/-!
# Bind errors

Why an interface could not be bound. A fault lies in one method of one interface; if that method
returns an interface, the fault may be an error in binding the returned one.

## Main Definitions

* `BindError`, `BindFault` — the causes
* `BindError.message` — their texts
-/

namespace ConfigBinding

mutual

/-- Why an interface could not be bound. -/
inductive BindError where
  /-- A method of the interface cannot be bound. -/
  | method (interfaceName methodName : String) (fault : BindFault)
  /-- The sources that the interface asks for could not be loaded. -/
  | sources (interfaceName : String) (cause : PropertyError)
  /-- The interface nests deeper than the limit that the walk was given. -/
  | tooDeep (interfaceName : String)

/-- Why a method could not be bound. -/
inductive BindFault where
  | emptyPropertyName
  | duplicateMethod
  | missingNameTemplate
  | templateArgumentOutOfRange (template : String) (index params : Nat)
  | malformedTemplate (template : String)
  | parameterizedInterface
  /-- Interfaces nest in a circle; the names go once around it, the first one again at the end. -/
  | cyclicInterface (names : List String)
  /-- The interface that the method returns could not be bound. -/
  | nested (error : BindError)

end

mutual

/-- The text of a bind error. -/
def BindError.message : BindError → String
  | .method interfaceName methodName fault =>
    "error binding method '" ++ methodName ++ "' of interface '" ++ interfaceName ++ "': " ++
      fault.message
  | .sources interfaceName cause =>
    "failed to load configuration sources for interface '" ++ interfaceName ++ "': " ++
      cause.message
  | .tooDeep interfaceName => "interface '" ++ interfaceName ++ "' is nested too deeply"

/-- The text of a method's fault. -/
def BindFault.message : BindFault → String
  | .emptyPropertyName => "derived property name is empty"
  | .duplicateMethod => "method is declared more than once"
  | .missingNameTemplate => "method takes parameters but has no property name template"
  | .templateArgumentOutOfRange template index params =>
    "template '" ++ template ++ "' references argument " ++ Decimal.natText index ++
      " but the method takes " ++ Decimal.natText params
  | .malformedTemplate template => "malformed property name template '" ++ template ++ "'"
  | .parameterizedInterface => "methods returning interfaces or maps cannot take parameters"
  | .cyclicInterface names => "cyclic interface reference: " ++ " -> ".intercalate names
  | .nested error => error.message

end

end ConfigBinding
