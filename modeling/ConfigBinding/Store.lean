import ConfigBinding.Reference
import ConfigBinding.Value.Merge

/-!
# Property stores

A store holds the properties that accessors read: a table whose values are reached by dotted keys.
Texts are stored as they were given, and their references are replaced when they are looked up.

## Main Definitions

* `Entry` — a value and the path it belongs to
* `Store` — the stored table
* `Store.set`, `Store.remove`, `Store.merge` — changes
* `Store.raw?` — the stored value under a key
* `Store.lookup` — the value under a key with its references replaced
* `Store.interpolate` — a literal with its references replaced

## Design Notes

References may lead to texts with further references, and so in a circle. A lookup therefore
follows at most `Store.maxLinks` references in a row. The number of links that are left is an
argument of the lookup, which recurses on it.
-/

namespace ConfigBinding

/-- A value to be stored, and the path it belongs to. -/
structure Entry where
  path : Path
  value : Value

/-- An entry under a dotted key. -/
def Entry.atKey (key : String) (value : Value) : Entry :=
  ⟨Text.splitDots key, value⟩

/-- An entry with a table for the whole store. -/
def Entry.root (t : Table) : Entry :=
  ⟨[], .table t⟩

/-- Entries laid over a table in order. -/
def Dictionary.mergeAll (t : Table) (entries : List Entry) : Table :=
  entries.foldl (fun t entry => t.mergeAt entry.path entry.value) t

/-- A property store. -/
structure Store where
  contents : Table

namespace Store

/-- A store without properties. -/
def empty : Store :=
  ⟨.empty⟩

/-- The stored value under a dotted key, with its references as they were given. -/
def raw? (store : Store) (key : String) : Option Value :=
  store.contents.at? (Text.splitDots key)

/-- Stores a value under a dotted key. A table is merged into a table that is there. -/
def set (store : Store) (key : String) (value : Value) : Store :=
  ⟨store.contents.mergeAt (Text.splitDots key) value⟩

/-- Takes the value under a dotted key out of the store, and returns it. -/
def remove (store : Store) (key : String) : Option Value × Store :=
  let (taken, left) := store.contents.takeAt (Text.splitDots key)
  (taken, ⟨left⟩)

/-- Stores entries in order. -/
def merge (store : Store) (entries : List Entry) : Store :=
  ⟨store.contents.mergeAll entries⟩

/-- The greatest number of references that are followed in a row. -/
def maxLinks : Nat :=
  32

/-- The value under a key, where `links` more keys may be looked up in a row, this one included. -/
def lookupWithin (store : Store) : Nat → String → Except PropertyError (Option Value)
  | 0, key => .error (.circularReference key)
  | links + 1, key =>
    match store.raw? key with
    | some (.string text) =>
      if Placeholder.mayHavePlaceholders text then
        match Reference.interpolate (store.lookupWithin links) text with
        | .ok resolved => .ok (some (.string resolved))
        | .error e => .error e
      else .ok (some (.string text))
    | other => .ok other

/-- The value under a key, with the references of a text replaced. -/
def lookup (store : Store) (key : String) : Except PropertyError (Option Value) :=
  store.lookupWithin (maxLinks + 1) key

/-- A literal with its references replaced. The literal counts as the first of the texts that are
looked up in a row. -/
def interpolate (store : Store) (literal : String) : Except PropertyError String :=
  Reference.interpolate (store.lookupWithin maxLinks) literal

end Store

end ConfigBinding
