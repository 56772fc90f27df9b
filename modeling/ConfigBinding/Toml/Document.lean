import ConfigBinding.Toml.Literal

/-!
# Documents of TOML

A document is a list of lines, each of which adds an entry to the current table or begins a table.

## Main Definitions

* `Line`, `line` — the lines that say something
* `Document` — what the lines so far have made
* `Document.add` — the effect of one more line
* `read?` — the table that a text stands for
-/

namespace ConfigBinding.Toml

/-- A line of a document. -/
inductive Line where
  | entry (path : KeyPath) (node : Node)
  | table (path : KeyPath)
  | element (path : KeyPath)

/-- A header between the given brackets. -/
def header (opening closing : List Char) : Scan KeyPath := fun input => do
  let rest ← literally opening input
  let (path, rest) ← keyPath rest
  let rest ← literally closing rest
  some (path, rest)

/-- A line without its end. -/
def lineContent : Scan Line := fun input =>
  match input with
  | '[' :: '[' :: _ =>
    (header ['[', '['] [']', ']'] input).map fun (path, rest) => (.element path, rest)
  | '[' :: _ => (header ['['] [']'] input).map fun (path, rest) => (.table path, rest)
  | _ => (assignment (value maxDepth) input).map fun ((path, node), rest) =>
      (.entry path node, rest)

/-- A line with its end, after any number of empty lines. -/
def line : Scan Line := fun input => do
  let (content, rest) ← lineContent (skipFiller input)
  let rest ← lineEnd rest
  some (content, rest)

/-- The lines of a text. What is left must be empty, save for a comment without a line end. -/
def lines? (text : List Char) : Option (List Line) :=
  let (lines, rest) := many line text
  if (skipComment (skipFiller rest)).isEmpty then some lines else none

/-- A document so far: the finished tables, and the current one with the header it began with. -/
structure Document where
  root : Entries
  current : Entries
  /-- `none` before the first header; `true` if the current table is an element of an array. -/
  header? : Option (KeyPath × Bool)

/-- A document without lines. -/
def Document.empty : Document :=
  ⟨[], [], none⟩

/-- Puts the current table in the place that its header gives it. -/
def Document.finish (d : Document) : Option Entries :=
  match d.header? with
  | none => some d.current
  | some (path, isElement) =>
    let place (_ : Origin) (entries : Entries) : Option Entries :=
      match isElement, entries.lookup path.last with
      | true, none => some (entries ++ [(path.last, .tables [d.current])])
      | true, some (.tables earlier) =>
        some (replace entries path.last (.tables (d.current :: earlier)))
      | true, some _ => none
      | false, none => some (entries ++ [(path.last, .table .header d.current)])
      | false, some (.table .header _) => none
      | false, some (.table _ _) => some (replace entries path.last (.table .header d.current))
      | false, some _ => none
    alter .implied place path.parents .header d.root

/-- The table that a path leads to, as it is left by headers and entries so far. -/
def tableAt? : List String → Entries → Option Entries
  | [], entries => some entries
  | key :: rest, entries =>
    match entries.lookup key with
    | some (.table _ inner) => tableAt? rest inner
    | some (.tables (newest :: _)) => tableAt? rest newest
    | _ => none

/-- Begins the table of a header. A table that exists only on the way of other headers is taken
out of the document and continued; no other table may be begun again. -/
def Document.beginTable (root : Entries) (path : KeyPath) : Option Document :=
  let existing := (tableAt? path.parents root).bind (·.lookup path.last)
  let takeOut (_ : Origin) (entries : Entries) : Option Entries :=
    some (entries.filter (·.1 != path.last))
  match existing with
  | none => do
    let root ← alter .implied (fun _ entries => some entries) path.parents .header root
    some ⟨root, [], some (path, false)⟩
  | some (.table .implied inner) => do
    let root ← alter .implied takeOut path.parents .header root
    some ⟨root, inner, some (path, false)⟩
  | some _ => none

/-- Begins an element of an array of tables. -/
def Document.beginElement (root : Entries) (path : KeyPath) : Option Document := do
  let open? (_ : Origin) (entries : Entries) : Option Entries :=
    match entries.lookup path.last with
    | none => some (entries ++ [(path.last, .tables [])])
    | some (.tables _) => some entries
    | some _ => none
  let root ← alter .implied open? path.parents .header root
  some ⟨root, [], some (path, true)⟩

/-- The document with one more line. -/
def Document.add (d : Document) : Line → Option Document
  | .entry path node =>
    (addEntry d.current path node).map fun current => { d with current := current }
  | .table path => d.finish.bind (Document.beginTable · path)
  | .element path => d.finish.bind (Document.beginElement · path)

/-- A text without the mark of its encoding at the beginning. -/
def dropEncodingMark : List Char → List Char
  | '\uFEFF' :: rest => rest
  | text => text

/-- The table that a text stands for, if the text is well formed. -/
def read? (text : String) : Option Table := do
  let lines ← lines? (dropEncodingMark text.toList)
  let document ← lines.foldlM Document.add .empty
  let entries ← document.finish
  let values ← Node.entryValues? entries
  some (.ofList values)

end ConfigBinding.Toml
