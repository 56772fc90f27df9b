import ConfigBinding.Value

/-!
# Merging and removing values

Laying one value over another, key by key where both are tables, and taking a value out of a table.

## Main Definitions

* `Value.over` — a value laid over what was there before
* `Dictionary.merge` — a table laid over a table
* `Value.under` — a value placed under a path, as a table of tables
* `Dictionary.mergeAt` — a value laid over a table at a path
* `Dictionary.takeAt` — the value at a path taken out of a table

## Design Notes

A value at a path is the same thing as a table of tables that leads to the value, so laying a value
at a path is laying that table over the whole. The cases that look special all follow: a scalar on
the way is replaced by a table, a table at the end is merged into the one it meets, and a value
that is not a table has no effect at the empty path.
-/

namespace ConfigBinding

mutual

/-- A value laid over an older one. Two tables are merged; in all other cases the new value stands
in the place of the old one. -/
def Value.over (old : Option Value) : Value → Value
  | .table ⟨overlay⟩ =>
    match old with
    | some (.table base) => .table (Dictionary.mergeEntries base overlay)
    | _ => .table ⟨overlay⟩
  | new => new
termination_by structural new => new

/-- Entries laid over a table, one after the other. -/
def Dictionary.mergeEntries (base : Table) : List (String × Value) → Table
  | [] => base
  | (key, new) :: rest => Dictionary.mergeEntries (base.insert key (new.over (base.find? key))) rest
termination_by structural entries => entries

end

/-- A table laid over another. -/
def Dictionary.merge (base overlay : Table) : Table :=
  base.mergeEntries overlay.entries

/-- A value placed under a path: tables of one entry each that lead to the value. -/
def Value.under (value : Value) : Path → Value
  | [] => value
  | key :: rest => .table ⟨[(key, value.under rest)]⟩

/-- A value laid over a table at a path. -/
def Dictionary.mergeAt (t : Table) (path : Path) (value : Value) : Table :=
  match value.under path with
  | .table overlay => t.merge overlay
  | _ => t

/-- Takes the value at a path out of a table, and returns it together with what is left. Tables on
the way stay, even if they become empty, and nothing changes if the path leads nowhere. -/
def Dictionary.takeAt (t : Table) : Path → Option Value × Table
  | [] => (none, t)
  | [key] => (t.find? key, t.erase key)
  | key :: rest =>
    match t.find? key with
    | some (.table inner) =>
      let (taken, left) := inner.takeAt rest
      (taken, t.modify key fun _ => .table left)
    | _ => (none, t)

end ConfigBinding
