import ConfigBinding.Key
import ConfigBinding.Template

/-!
# Interface declarations

An interface is a named list of accessor methods. Interfaces refer to one another as the results of
methods, so they are declared together, in a schema, and are known by their numbers in it.

## Main Definitions

* `Method`, `Interface`, `Schema` — the declarations
* `Strategy` — the ways in which a method can be bound
* `Method.classify` — the strategy of a method, or what is wrong with its declaration
-/

namespace ConfigBinding

/-- What a method returns: a value, an interface that is bound under the method's key, or a map of
such interfaces, each under a key of its own. -/
inductive Returns (n : Nat) where
  | value (kind : Kind)
  | interface (child : Fin n)
  | map (child : Fin n)
  deriving DecidableEq

/-- A declared method. For a method with parameters the property name is a template. -/
structure Method (n : Nat) where
  name : String
  returns : Returns n
  params : Nat
  propertyName? : Option String
  default? : Option String

/-- A declared interface. Its sources are loaded before it is bound. -/
structure Interface (n : Nat) where
  name : String
  keyPrefix? : Option String
  immutable : Bool
  sources? : Option (List String)
  methods : List (Method n)

/-- Finitely many interfaces, which refer to one another by number. -/
structure Schema where
  size : Nat
  interface : Fin size → Interface size

/-- The schema of a list of interfaces. -/
def Schema.ofVector {n : Nat} (interfaces : Vector (Interface n) n) : Schema :=
  ⟨n, fun i => interfaces[i]⟩

/-- How a method is bound. -/
inductive Strategy where
  /-- The property is read at every call. -/
  | dynamic
  /-- The first value that is read is kept. -/
  | immutable
  /-- An interface is bound together with the method. -/
  | nested
  /-- Interfaces are bound when they are asked for. -/
  | map
  /-- The key is made from the arguments at every call. -/
  | parameterized
  deriving DecidableEq

/-- The name of a strategy. -/
def Strategy.name : Strategy → String
  | .dynamic => "dynamic"
  | .immutable => "immutable"
  | .nested => "nested"
  | .map => "map"
  | .parameterized => "parameterized"

namespace Method

variable {n : Nat}

/-- The key of a method under a prefix. -/
def key (method : Method n) (keyPrefix : String) : Except BindFault String :=
  Key.derive keyPrefix method.name method.propertyName?

/-- The strategy of a method that has no parameters, which needs a property name. -/
def classifyPlain (method : Method n) (strategy : Strategy) : Except BindFault Strategy :=
  (method.key "").map fun _ => strategy

/-- The strategy of a method, where `immutable` says what becomes of plain values. Everything is
checked that depends neither on the prefix nor on the store. -/
def classify (method : Method n) (immutable : Bool) : Except BindFault Strategy :=
  match method.returns with
  | .value _ =>
    if method.params = 0 then
      method.classifyPlain (if immutable then .immutable else .dynamic)
    else
      match method.propertyName? with
      | none => .error .missingNameTemplate
      | some template => (Template.check template method.params).map fun _ => .parameterized
  | .interface _ =>
    if method.params = 0 then method.classifyPlain .nested else .error .parameterizedInterface
  | .map _ =>
    if method.params = 0 then method.classifyPlain .map else .error .parameterizedInterface

end Method

end ConfigBinding
