import ConfigBinding.BindError
import ConfigBinding.Template

/-!
# Access errors

Why a call of a bound interface has no result of the wanted sort.

## Main Definitions

* `Expected` — what a caller may want a method to return
* `AccessError` — the causes, with those of the layers below
* `AccessError.message` — their texts
-/

namespace ConfigBinding

/-- What a caller wants a method to return. Interfaces are known by their numbers. -/
inductive Expected where
  | value
  | map
  | interface (number : Nat)
  deriving DecidableEq

/-- The text of what a caller wants. -/
def Expected.text : Expected → String
  | .value => "a value"
  | .map => "a map"
  | .interface number => "I<" ++ Decimal.natText number ++ ">"

/-- Why a call, or the preparation of calls, failed. -/
inductive AccessError where
  | property (error : PropertyError)
  | template (error : TemplateError)
  | bind (error : BindError)
  | unsupportedMethod (interfaceName method : String)
  | unexpectedReturn (interfaceName method : String) (expected : Expected)
  /-- An application is set up without a store. -/
  | missingStore

/-- The text of an access error. -/
def AccessError.message : AccessError → String
  | property error => "configuration error: " ++ error.message
  | template error => error.message
  | bind error => error.message
  | unsupportedMethod interfaceName method => method ++ " not found on interface " ++ interfaceName
  | unexpectedReturn interfaceName method expected =>
    "method '" ++ method ++ "' of interface '" ++ interfaceName ++ "' does not return " ++
      expected.text
  | missingStore => "application context requires a property store"

end ConfigBinding
