import ConfigBinding.Toml.Text
import ConfigBinding.Value.Text

/-!
# Trees of TOML

A document, or an inline table, while it is being put together. Entries keep the order in which they
were written, and every table remembers how it came to be, because that decides what may be added
to it later.

## Main Definitions

* `Origin`, `Node`, `Entries` — the tree
* `alter` — a change to the table that a path leads to
* `addEntry` — one more key with its value
* `Node.value?` — the value that a tree stands for
-/

namespace ConfigBinding.Toml

/-- How a table came to be. -/
inductive Origin where
  /-- By a header of its own. -/
  | header
  /-- On the way of another header. -/
  | implied
  /-- By a dotted key. -/
  | dotted
  deriving DecidableEq

/-- A part of a document. Leaves are scalars; arrays and inline tables are complete. -/
inductive Node where
  | leaf (value : Value)
  | array (items : List Node)
  | inline (entries : List (String × Node))
  | table (origin : Origin) (entries : List (String × Node))
  /-- The tables of an array, the last one first. -/
  | tables (newestFirst : List (List (String × Node)))

/-- The entries of a table in the order in which they were written. -/
abbrev Entries := List (String × Node)

/-- Puts a node in the place of the one under the same key. -/
def replace (entries : Entries) (key : String) (node : Node) : Entries :=
  entries.map fun entry => if entry.1 = key then (key, node) else entry

/-- Changes the table that a path leads to, and makes the tables that are missing on the way. On
the way of a header (`made` is `implied`) any table may be passed. On the way of a dotted key only
tables may be passed that have no header of their own, and the last table of an array. -/
def alter (made : Origin) (change : Origin → Entries → Option Entries) :
    List String → Origin → Entries → Option Entries
  | [], origin, entries => change origin entries
  | key :: rest, _, entries =>
    match entries.lookup key with
    | none =>
      (alter made change rest made []).map fun inner => entries ++ [(key, .table made inner)]
    | some (.table origin inner) =>
      if made = .dotted ∧ origin = .header then none
      else
        (alter made change rest origin inner).map fun inner =>
          replace entries key (.table origin inner)
    | some (.tables (newest :: earlier)) =>
      (alter made change rest .header newest).map fun newest =>
        replace entries key (.tables (newest :: earlier))
    | some _ => none

/-- Adds a node under a key that is not taken. -/
def addNew (key : String) (node : Node) (entries : Entries) : Option Entries :=
  match entries.lookup key with
  | none => some (entries ++ [(key, node)])
  | some _ => none

/-- Adds a node under a dotted key. The table it is added to is the outermost one, or was made by
a dotted key. -/
def addEntry (entries : Entries) (path : KeyPath) (node : Node) : Option Entries :=
  alter .dotted
    (fun origin inner =>
      if !path.parents.isEmpty && origin ≠ .dotted then none
      else addNew path.last node inner)
    path.parents .header entries

/-! ### The values of trees -/

/-- The datetime that a text leaf denotes. -/
def Node.datetime? : Node → Option Value
  | .leaf (.string text) => (Datetime.read? text.toList).map .datetime
  | _ => none

mutual

/-- The value of a node. -/
def Node.value? : Node → Option Value
  | .leaf value => some value
  | .array items => (Node.itemValues? items).map .array
  | .inline entries => Node.tableValue? entries
  | .table _ entries => Node.tableValue? entries
  | .tables newestFirst => (Node.elementValues? newestFirst).map fun values => .array values.reverse

/-- The values of the items of an array. -/
def Node.itemValues? : List Node → Option (List Value)
  | [] => some []
  | item :: items =>
    match item.value?, Node.itemValues? items with
    | some value, some values => some (value :: values)
    | _, _ => none

/-- The value of a table that is not a whole document. One whose first key is the mark of datetimes
stands for a datetime, and its other entries for nothing. -/
def Node.tableValue? : List (String × Node) → Option Value
  | [] => some (.table .empty)
  | (key, node) :: rest =>
    if key = datetimeMark then node.datetime?
    else
      match node.value?, Node.entryValues? rest with
      | some value, some values => some (.table (.ofList ((key, value) :: values)))
      | _, _ => none

/-- The values of the entries of a table. -/
def Node.entryValues? : List (String × Node) → Option (List (String × Value))
  | [] => some []
  | (key, node) :: rest =>
    match node.value?, Node.entryValues? rest with
    | some value, some values => some ((key, value) :: values)
    | _, _ => none

/-- The values of the tables of an array. -/
def Node.elementValues? : List (List (String × Node)) → Option (List Value)
  | [] => some []
  | entries :: rest =>
    match Node.tableValue? entries, Node.elementValues? rest with
    | some value, some values => some (value :: values)
    | _, _ => none

end

end ConfigBinding.Toml
