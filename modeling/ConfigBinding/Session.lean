import ConfigBinding.Loader
import ConfigBinding.Proxy

/-!
# Sessions

Everything that changes while interfaces are bound and called.

## Main Definitions

* `Application` — what does not change: the declared interfaces, the decoder and the loader
* `Session` — what does: the store, the loader's state, kept values and map entries
* `Session.load` — sources loaded for an interface

## Design Notes

A map has an entry for a key from the first request on that succeeds.  What a map may keep besides,
such as an empty slot for a key whose requests have failed, cannot be found out, and a session has
no place for it.  Sessions with slots are in `Proofs/Binding/Slots`, where they are shown to come to
the same.
-/

namespace ConfigBinding

/-- The declared interfaces, and whom binding and calling them relies on. -/
structure Application (σ : Type) where
  schema : Schema
  decoder : Decoder
  loader : Loader σ

/-- The state of an application. -/
structure Session (n : Nat) (σ : Type) where
  store : Store
  loader : σ
  /-- The next number that is free. -/
  nextSerial : Nat
  /-- The values that immutable leaves keep, by the numbers of the leaves. -/
  kept : Nat → Option Value
  /-- The entries of maps, by the numbers of the maps. -/
  entries : Nat → Dictionary (Proxy n)

namespace Session

variable {n : Nat} {σ : Type}

/-- A session in which nothing has been bound. -/
def start (store : Store) (loader : σ) : Session n σ where
  store := store
  loader := loader
  nextSerial := 0
  kept := fun _ => none
  entries := fun _ => .empty

/-- A number that has not been given to anything before. -/
def issue (w : Session n σ) : Nat × Session n σ :=
  (w.nextSerial, { w with nextSerial := w.nextSerial + 1 })

/-- The session once an immutable leaf keeps a value. -/
def keep (w : Session n σ) (serial : Nat) (value : Value) : Session n σ :=
  { w with kept := fun other => if other = serial then some value else w.kept other }

/-- The session once a map has an entry. -/
def addEntry (w : Session n σ) (serial : Nat) (key : String) (p : Proxy n) : Session n σ :=
  { w with entries := fun other =>
      if other = serial then (w.entries serial).insert key p else w.entries other }

/-- Changes the store. -/
def modifyStore (w : Session n σ) (change : Store → Store) : Session n σ :=
  { w with store := change w.store }

/-- The keys of a map's entries, ascending. -/
def keys (w : Session n σ) (map : ProxyMap n) : List String :=
  (w.entries map.serial).keys

/-- Loads sources. -/
def load (w : Session n σ) (loader : Loader σ) (names : List String) :
    Except PropertyError Unit × Session n σ :=
  let (outcome, store, state) := loader.load names w.store w.loader
  (outcome, { w with store := store, loader := state })

end Session

end ConfigBinding
