import ConfigBinding.Toml.Number
import ConfigBinding.Toml.Tree

/-!
# Values of TOML

What may stand to the right of an equals sign.

## Main Definitions

* `listed` — items between brackets
* `value` — a value, with arrays and inline tables nested to a depth
-/

namespace ConfigBinding.Toml

/-- The items of an array after its opening bracket, up to the closing one. A comma may follow the
last item, and lines may end anywhere between the tokens. -/
def listed {α : Type} (item : Scan α) : Scan (List α) := fun input =>
  match literally [']'] (skipFiller input) with
  | some rest => some ([], rest)
  | none => do
    let (first, rest) ← item (skipFiller input)
    let further : Scan α := fun input => do
      let rest ← literally [','] (skipFiller input)
      item (skipFiller rest)
    let (others, rest) := many further rest
    let rest := skipFiller rest
    let rest ← literally [']'] (skipFiller ((literally [','] rest).getD rest))
    some (first :: others, rest)

/-- A key and its value. -/
def assignment (value : Scan Node) : Scan (KeyPath × Node) := fun input => do
  let (path, rest) ← keyPath input
  let rest ← literally ['='] rest
  let (value, rest) ← value (skipBlanks rest)
  some ((path, value), rest)

/-- The assignments of an inline table after its opening brace, up to the closing one. All stand on
one line, and no comma follows the last. -/
def assignments (value : Scan Node) : Scan (List (KeyPath × Node)) := fun input => do
  match literally ['\x7d'] (skipBlanks input) with
  | some rest => some ([], rest)
  | none =>
    let (first, rest) ← assignment value input
    let further : Scan (KeyPath × Node) := fun input => do
      let rest ← literally [','] (skipBlanks input)
      assignment value rest
    let (others, rest) := many further rest
    let rest ← literally ['\x7d'] (skipBlanks rest)
    some (first :: others, rest)

/-- The entries of an inline table. Its keys follow the same rules as the keys of a document. -/
def inlineEntries? (assignments : List (KeyPath × Node)) : Option Entries :=
  assignments.foldlM (fun entries (path, node) => addEntry entries path node) []

/-- A scalar that is not a text. -/
def plainScalar : Scan Value := fun input =>
  match input with
  | 't' :: 'r' :: 'u' :: 'e' :: rest => some (.boolean true, rest)
  | 'f' :: 'a' :: 'l' :: 's' :: 'e' :: rest => some (.boolean false, rest)
  | _ =>
    match Datetime.take? input with
    | some (moment, rest) => some (.datetime moment, rest)
    | none => number input

/-- A value. Arrays and inline tables may be nested as deep as the given depth. -/
def value : Nat → Scan Node
  | depth, '[' :: rest =>
    match depth with
    | 0 => none
    | depth + 1 => (listed (value depth) rest).map fun (items, rest) => (.array items, rest)
  | depth, '{' :: rest =>
    match depth with
    | 0 => none
    | depth + 1 => do
      let (pairs, rest) ← assignments (value depth) rest
      let entries ← inlineEntries? pairs
      some (.inline entries, rest)
  | _, '"' :: rest => (text ('"' :: rest)).map fun (text, rest) => (.leaf (.string text), rest)
  | _, '\'' :: rest => (text ('\'' :: rest)).map fun (text, rest) => (.leaf (.string text), rest)
  | _, input => (plainScalar input).map fun (scalar, rest) => (.leaf scalar, rest)

end ConfigBinding.Toml
