/-!
# Scanning TOML text

The pieces that all parts of a TOML document share: repetition, blanks, line ends and comments.

## Main Definitions

* `Scan` — a reading of the beginning of a text, with the rest of it
* `many` — a reading repeated for as long as it succeeds
* `skipBlanks`, `skipFiller` — what may stand between the tokens of a line, and of an array
* `lineEnd` — the end of a line, after an optional comment

## Design Notes

A reading that fails reports nothing: a document is well formed or it is not.
-/

namespace ConfigBinding.Toml

/-- A reading of the beginning of a text. -/
abbrev Scan (α : Type) :=
  List Char → Option (α × List Char)

/-- Repeats a reading until it fails, at most as often as the limit has characters. -/
def manyWithin {α : Type} (scan : Scan α) (limit text : List Char) : List α × List Char :=
  match limit with
  | [] => ([], text)
  | _ :: limit =>
    match scan text with
    | none => ([], text)
    | some (item, rest) =>
      let (items, rest) := manyWithin scan limit rest
      (item :: items, rest)

/-- Repeats a reading until it fails. A reading that is repeated takes at least one character each
time, so there are no more repetitions than characters. -/
def many {α : Type} (scan : Scan α) (text : List Char) : List α × List Char :=
  manyWithin scan text text

/-- A given text at the beginning of a text. -/
def literally (expected : List Char) (text : List Char) : Option (List Char) :=
  if expected.isPrefixOf text then some (text.drop expected.length) else none

/-- The value of a hexadecimal digit. -/
def hexValue? (c : Char) : Option Nat :=
  if '0' ≤ c && c ≤ '9' then some (c.toNat - '0'.toNat)
  else if 'a' ≤ c && c ≤ 'f' then some (c.toNat - 'a'.toNat + 10)
  else if 'A' ≤ c && c ≤ 'F' then some (c.toNat - 'A'.toNat + 10)
  else none

/-- The number that hexadecimal digits, or digits of a smaller base, denote. -/
def valueInBase (base : Nat) (digits : List Char) : Nat :=
  digits.foldl (fun value c => base * value + (hexValue? c).getD 0) 0

/-- Whether a character separates the tokens of a line. -/
def isBlank (c : Char) : Bool :=
  c == ' ' || c == '\t'

/-- A text without the blanks at its beginning. -/
def skipBlanks (text : List Char) : List Char :=
  text.dropWhile isBlank

/-- Whether a character may stand in a comment: no control characters but the tab. -/
def isCommentChar (c : Char) : Bool :=
  c == '\t' || (0x20 ≤ c.toNat && c.toNat != 0x7F)

/-- A line end: a line feed, perhaps with a carriage return before it. -/
def newline : List Char → Option (List Char)
  | '\n' :: rest => some rest
  | '\r' :: '\n' :: rest => some rest
  | _ => none

/-- A text without the comment at its beginning, if there is one. -/
def skipComment : List Char → List Char
  | '#' :: rest => rest.dropWhile isCommentChar
  | text => text

/-- The end of a line: blanks, an optional comment, and a line end or the end of the text. -/
def lineEnd (text : List Char) : Option (List Char) :=
  match skipComment (skipBlanks text) with
  | [] => some []
  | rest => newline rest

/-- One line end with the blanks and the comment before it. -/
def emptyLine : Scan Unit := fun text =>
  (newline (skipComment (skipBlanks text))).map fun rest => ((), rest)

/-- A text without the blanks, comments and line ends at its beginning. -/
def skipFiller (text : List Char) : List Char :=
  skipBlanks (many emptyLine text).2

end ConfigBinding.Toml
