import ConfigBinding.Source

/-!
# Libraries

Named sources that are added to a store when an interface asks for them, each at most once.

## Main Definitions

* `Library` — a source, and whether it has been loaded
* `Libraries` — libraries by name
* `Libraries.load` — the libraries of a list of names, in order
-/

namespace ConfigBinding

/-- A named source, and whether its entries are in the store. -/
structure Library where
  source : Source
  loaded : Bool

/-- Libraries by name. -/
structure Libraries where
  registered : Dictionary Library

namespace Libraries

/-- No libraries. -/
def empty : Libraries :=
  ⟨.empty⟩

/-- Makes a source known under a name. It takes the place of an earlier source of that name. -/
def register (libraries : Libraries) (name : String) (source : Source) : Libraries :=
  ⟨libraries.registered.insert name ⟨source, false⟩⟩

/-- Whether the entries of a library are in the store. -/
def isLoaded (libraries : Libraries) (name : String) : Bool :=
  match libraries.registered.find? name with
  | some library => library.loaded
  | none => false

/-- Loads one library, unless it has been loaded. A library whose source fails stays as it was. -/
def loadOne (env : Environment) (name : String) (store : Store) (libraries : Libraries) :
    Except PropertyError Unit × Store × Libraries :=
  match libraries.registered.find? name with
  | none => (.error (.unknownSource name), store, libraries)
  | some library =>
    if library.loaded then (.ok (), store, libraries)
    else
      match library.source.entries env with
      | .error e => (.error e, store, libraries)
      | .ok entries =>
        let marked : Library := { library with loaded := true }
        (.ok (), store.merge entries, ⟨libraries.registered.insert name marked⟩)

/-- Loads the libraries of a list of names in order. The first one that fails ends it, and those
before it stay loaded. -/
def load (env : Environment) : List String → Store → Libraries →
    Except PropertyError Unit × Store × Libraries
  | [], store, libraries => (.ok (), store, libraries)
  | name :: rest, store, libraries =>
    match libraries.loadOne env name store with
    | (.error e, after) => (.error e, after)
    | (.ok (), store, libraries) => load env rest store libraries

end Libraries

end ConfigBinding
