import ConfigBinding.Library

/-!
# Loaders

Whoever is asked for the sources of an interface before the interface is bound.

## Main Definitions

* `Loader` — the answer to a list of source names, which may change a store
* `Loader.idle` — every source is taken to be in the store
* `Loader.ofLibraries` — sources are libraries
* `Loader.recording` — requests are only written down
-/

namespace ConfigBinding

/-- A way to load the sources of an interface. A loader has a state of its own and may change the
store, also if it fails in the end. -/
structure Loader (σ : Type) where
  load : List String → Store → σ → Except PropertyError Unit × Store × σ

namespace Loader

/-- For when every source is in the store already. -/
def idle {σ : Type} : Loader σ where
  load _ store state := (.ok (), store, state)

/-- Sources are libraries, and their texts are read in an environment. -/
def ofLibraries (env : Environment) : Loader Libraries where
  load names store libraries := libraries.load env names store

/-- Writes every request down, the last one at the end, and loads nothing. A request fails if it
has a refused name. -/
def recording (refused : List String) : Loader (List (List String)) where
  load names store requests :=
    let outcome := match names.find? (refused.contains ·) with
      | some name => .error (.unknownSource name)
      | none => .ok ()
    (outcome, store, requests ++ [names])

end Loader

end ConfigBinding
