import ConfigBinding.Decoder
import ConfigBinding.Store

/-!
# Properties

A property is a key that is read from a store as a value of a kind, with a default for when nothing
is stored under the key.

## Main Definitions

* `Property` — the key, the kind and the default
* `Property.read` — its value
-/

namespace ConfigBinding

/-- A key to be read as a value of a kind. The default is a literal, which may have references. -/
structure Property where
  key : String
  kind : Kind
  default? : Option String

/-- The value of a property. A stored value is converted to the kind; otherwise the default is
decoded, after its references have been replaced. -/
def Property.read (property : Property) (decoder : Decoder) (store : Store) :
    Except PropertyError Value :=
  match store.lookup property.key with
  | .error e => .error e
  | .ok (some value) => decoder.convert property.kind value
  | .ok none =>
    match property.default? with
    | none => .error (.missing property.key)
    | some literal =>
      match store.interpolate literal with
      | .error e => .error e
      | .ok text => decoder.decode property.kind text

end ConfigBinding
