import ConfigBinding.Analysis
import ConfigBinding.Session

/-!
# Binding

Binding makes a proxy of a declared interface. The schema is checked first, so that a declaration
at fault is reported before any source is loaded. Then the interface's sources are loaded and its
methods are bound in order, nested interfaces together with the method that returns them. The values
of maps are bound in the same way when they are asked for.

## Main Definitions

* `Application.build` — a proxy of an interface that has been checked
* `Application.bind` — check and build
* `Application.entry` — the entry of a map, built at the first request

## Design Notes

One flag says for a whole bind whether values are kept. It is fixed at the root and handed down to
nested interfaces and map entries, whatever those declare for themselves; and so is the prefix,
which for a nested interface is the key of the method that returns it.

Building recurses on a limit of its depth. Nested interfaces of a checked schema never form a
circle, so their depth is at most the number of interfaces.
-/

namespace ConfigBinding

namespace Application

variable {σ : Type} (app : Application σ)

/-- The sessions of an application. -/
abbrev State :=
  Session app.schema.size σ

/-- The proxies of an application. -/
abbrev Bound :=
  Proxy app.schema.size

/-- An attempt that may change the session, whether or not it succeeds. -/
abbrev Attempt (ε α : Type) :=
  app.State → Except ε α × app.State

/-- Loads the sources that an interface asks for. -/
def loadSources (i : Fin app.schema.size) : app.Attempt BindError Unit := fun w =>
  match (app.schema.interface i).sources? with
  | none => (.ok (), w)
  | some names =>
    match w.load app.loader names with
    | (.ok (), after) => (.ok (), after)
    | (.error e, after) => (.error (.sources (app.schema.name i) e), after)

/-- How a method answers that returns a value: with the property under its key, or with the one that
its template makes of the arguments. -/
def resolveValue (immutable : Bool) (keyPrefix : String) (method : Method app.schema.size)
    (kind : Kind) : app.Attempt BindFault (String × Resolver app.schema.size app.Bound) := fun w =>
  if method.params = 0 then
    match method.key keyPrefix with
    | .error fault => (.error fault, w)
    | .ok key =>
      let property : Property := ⟨key, kind, method.default?⟩
      if immutable then
        let (serial, after) := w.issue
        (.ok (key, .leaf (.immutable property serial)), after)
      else (.ok (key, .leaf (.dynamic property)), w)
  else
    match method.propertyName? with
    | none => (.error .missingNameTemplate, w)
    | some template =>
      (.ok (keyPrefix ++ template, .leaf (.parameterized template kind method.default?)), w)

/-- How a method answers that returns an interface: with a proxy that `child` builds under the key
of the method. -/
def resolveNested (child : Fin app.schema.size → String → app.Attempt BindError app.Bound)
    (keyPrefix : String) (method : Method app.schema.size) (i : Fin app.schema.size) :
    app.Attempt BindFault (String × Resolver app.schema.size app.Bound) := fun w =>
  match method.key keyPrefix with
  | .error fault => (.error fault, w)
  | .ok key =>
    match child i (Key.dotted key) w with
    | (.error e, after) => (.error (.nested e), after)
    | (.ok p, after) => (.ok (key, .nested p), after)

/-- How a method answers that returns a map: with a map that has no entries yet. -/
def resolveMap (immutable : Bool) (keyPrefix : String) (method : Method app.schema.size)
    (i : Fin app.schema.size) :
    app.Attempt BindFault (String × Resolver app.schema.size app.Bound) := fun w =>
  match method.key keyPrefix with
  | .error fault => (.error fault, w)
  | .ok key =>
    let (serial, after) := w.issue
    (.ok (key, .map ⟨serial, i, key, immutable⟩), after)

/-- How a method answers, and its key. -/
def resolve (child : Fin app.schema.size → String → app.Attempt BindError app.Bound)
    (immutable : Bool) (keyPrefix : String) (method : Method app.schema.size) :
    app.Attempt BindFault (String × Resolver app.schema.size app.Bound) :=
  match method.returns with
  | .value kind => app.resolveValue immutable keyPrefix method kind
  | .interface i => app.resolveNested child keyPrefix method i
  | .map i => app.resolveMap immutable keyPrefix method i

/-- Binds a method, whose declaration is classified once more. -/
def buildMethod (child : Fin app.schema.size → String → app.Attempt BindError app.Bound)
    (immutable : Bool) (keyPrefix : String) (method : Method app.schema.size) :
    app.Attempt BindFault (Binding app.schema.size app.Bound) := fun w =>
  match method.classify immutable with
  | .error fault => (.error fault, w)
  | .ok _ =>
    match app.resolve child immutable keyPrefix method w with
    | (.error fault, after) => (.error fault, after)
    | (.ok (key, resolver), after) =>
      (.ok ⟨method.name, key, method.default?, resolver⟩, after)

/-- Binds methods in order. The first fault ends it. -/
def buildMethods (child : Fin app.schema.size → String → app.Attempt BindError app.Bound)
    (immutable : Bool) (interfaceName keyPrefix : String) :
    List (Method app.schema.size) →
      app.Attempt BindError (List (Binding app.schema.size app.Bound))
  | [], w => (.ok [], w)
  | method :: rest, w =>
    match app.buildMethod child immutable keyPrefix method w with
    | (.error fault, after) => (.error (.method interfaceName method.name fault), after)
    | (.ok binding, after) =>
      match buildMethods child immutable interfaceName keyPrefix rest after with
      | (.error e, after) => (.error e, after)
      | (.ok bindings, after) => (.ok (binding :: bindings), after)

/-- Builds the proxy of an interface under a prefix, with nested interfaces down to a depth. -/
def buildWithin (immutable : Bool) : Nat → Fin app.schema.size → String →
    app.Attempt BindError app.Bound
  | 0, i, _, w => (.error (.tooDeep (app.schema.name i)), w)
  | limit + 1, i, keyPrefix, w =>
    match app.loadSources i w with
    | (.error e, after) => (.error e, after)
    | (.ok (), after) =>
      let (serial, after) := after.issue
      match app.buildMethods (buildWithin immutable limit) immutable (app.schema.name i) keyPrefix
          (app.schema.interface i).methods after with
      | (.error e, after) => (.error e, after)
      | (.ok bindings, after) =>
        (.ok ⟨serial, i, app.schema.name i, keyPrefix, bindings⟩, after)

/-- Builds the proxy of an interface that has been checked, under a prefix. -/
def build (immutable : Bool) (i : Fin app.schema.size) (keyPrefix : String) :
    app.Attempt BindError app.Bound :=
  app.buildWithin immutable app.schema.size i keyPrefix

/-- Binds an interface. The prefix and the flag that it declares hold unless they are given. -/
def bind (i : Fin app.schema.size) (keyPrefix? : Option String) (immutable? : Option Bool) :
    app.Attempt BindError app.Bound := fun w =>
  match app.schema.check i with
  | .error e => (.error e, w)
  | .ok () =>
    let declared := app.schema.interface i
    let keyPrefix := (keyPrefix?.or declared.keyPrefix?).getD ""
    app.build (immutable?.getD declared.immutable) i (Key.dotted keyPrefix) w

/-- The entry of a map under a text, built at the first request. A failed request leaves no entry
behind, so that the next one tries again. -/
def entry (map : ProxyMap app.schema.size) (key : String) : app.Attempt BindError app.Bound :=
  fun w =>
  match (w.entries map.serial).find? key with
  | some p => (.ok p, w)
  | none =>
    match app.build map.immutable map.valueType (Key.dotted (map.key ++ "." ++ key)) w with
    | (.error e, after) => (.error e, after)
    | (.ok p, after) => (.ok p, after.addEntry map.serial key p)

end Application

end ConfigBinding
