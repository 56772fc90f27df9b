import ConfigBinding.Interface
import ConfigBinding.Property

/-!
# Proxies

What binding makes of an interface: a list of bindings, one for each declared method, that say how
the method answers.

## Main Definitions

* `Leaf` — how a method that returns a value finds it
* `ProxyMap` — interfaces that are bound when they are asked for
* `Binding`, `Resolver` — one method and how it answers
* `Proxy` — a bound interface
* `Resolved` — what a call returns

## Design Notes

A proxy never changes. What does change in the course of calls, the values that immutable leaves
keep and the entries of maps, belongs to a session and is found there by number. Every proxy, every
map and every immutable leaf has a number of its own, so the number of a proxy tells whether two
proxies are the same one.
-/

namespace ConfigBinding

/-- How a method that returns a value finds it. -/
inductive Leaf where
  /-- Reads the property at every call. -/
  | dynamic (property : Property)
  /-- Reads the property until it has a value, and keeps that under a number. -/
  | immutable (property : Property) (serial : Nat)
  /-- Makes the key from the arguments and reads that property at every call. -/
  | parameterized (template : String) (kind : Kind) (default? : Option String)

/-- Interfaces of one type under texts of the caller's choice, bound on demand. -/
structure ProxyMap (n : Nat) where
  serial : Nat
  valueType : Fin n
  key : String
  immutable : Bool

/-- How a method answers. `α` stands for bound interfaces. -/
inductive Resolver (n : Nat) (α : Type) where
  | leaf (leaf : Leaf)
  | nested (child : α)
  | map (map : ProxyMap n)

/-- One bound method. The key of a parameterized method ends in its template. -/
structure Binding (n : Nat) (α : Type) where
  method : String
  key : String
  default? : Option String
  resolver : Resolver n α

/-- A bound interface. Its key prefix is empty or ends in a dot. -/
structure Proxy (n : Nat) where
  serial : Nat
  type : Fin n
  interfaceName : String
  keyPrefix : String
  bindings : List (Binding n (Proxy n))

/-- Whether a proxy was bound from the declaration of a number. A caller may ask for a number under
which nothing is declared. -/
def Proxy.isOf {n : Nat} (p : Proxy n) (number : Nat) : Bool :=
  p.type.val == number

/-- The strategy of a leaf. -/
def Leaf.strategy : Leaf → Strategy
  | .dynamic _ => .dynamic
  | .immutable _ _ => .immutable
  | .parameterized _ _ _ => .parameterized

/-- The strategy of a binding. -/
def Resolver.strategy {n : Nat} {α : Type} : Resolver n α → Strategy
  | .leaf l => l.strategy
  | .nested _ => .nested
  | .map _ => .map

/-- The binding of a method. -/
def Proxy.binding? {n : Nat} (p : Proxy n) (method : String) : Option (Binding n (Proxy n)) :=
  p.bindings.find? (·.method == method)

/-- A key without the prefix of the interface it belongs to. A key that does not begin with the
prefix is left as it is. -/
def ownKey (keyPrefix key : String) : String :=
  if keyPrefix.toList.isPrefixOf key.toList then .ofList (key.toList.drop keyPrefix.toList.length)
  else key

/-- What a call returns. -/
inductive Resolved (n : Nat) where
  | value (value : Value)
  | interface (proxy : Proxy n)
  | map (map : ProxyMap n)

end ConfigBinding
