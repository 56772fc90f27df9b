import ConfigBinding.Access

/-!
# Contexts

The usual set-up of an application: a store, a decoder, and libraries that interfaces may name as
their sources.

## Main Definitions

* `Application.ofLibraries` — an application whose sources are libraries
* `Libraries.ofList` — libraries from a list
* `Session.inContext?` — the first state of such an application, for which there must be a store
-/

namespace ConfigBinding

/-- An application whose sources are libraries. -/
def Application.ofLibraries (schema : Schema) (decoder : Decoder) (env : Environment) :
    Application Libraries :=
  ⟨schema, decoder, .ofLibraries env⟩

/-- Libraries registered one after the other. -/
def Libraries.ofList (sources : List (String × Source)) : Libraries :=
  sources.foldl (fun libraries (name, source) => libraries.register name source) .empty

/-- The first state of an application whose sources are libraries. -/
def Session.inContext? {n : Nat} (store? : Option Store) (sources : List (String × Source)) :
    Except AccessError (Session n Libraries) :=
  match store? with
  | none => .error .missingStore
  | some store => .ok (.start store (.ofList sources))

end ConfigBinding
