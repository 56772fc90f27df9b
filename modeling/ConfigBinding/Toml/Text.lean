import ConfigBinding.Toml.Scan

/-!
# Texts and keys of TOML

The four forms of a text, and keys, which are bare or texts on one line.

## Main Definitions

* `lineText`, `lineVerbatim` — texts on one line, with and without escapes
* `blockText`, `blockVerbatim` — texts of several lines
* `text` — a text in any form
* `keyPath` — a key: segments with dots between them
-/

namespace ConfigBinding.Toml

/-- Whether a character may stand in a text as it is, apart from quotes and escapes. -/
def isTextChar (c : Char) : Bool :=
  isCommentChar c

/-- The character whose number is given by exactly `width` hexadecimal digits. -/
def numberedChar (width : Nat) : Scan Char := fun text =>
  let digits := text.take width
  let number := valueInBase 16 digits
  if digits.length = width && digits.all (hexValue? · |>.isSome) && number.isValidChar then
    some (.ofNat number, text.drop width)
  else none

/-- The character that an escape stands for, after the backslash. -/
def escape : Scan Char
  | 'b' :: rest => some ('\x08', rest)
  | 't' :: rest => some ('\t', rest)
  | 'n' :: rest => some ('\n', rest)
  | 'f' :: rest => some ('\x0c', rest)
  | 'r' :: rest => some ('\r', rest)
  | '"' :: rest => some ('"', rest)
  | '\\' :: rest => some ('\\', rest)
  | 'u' :: rest => numberedChar 4 rest
  | 'U' :: rest => numberedChar 8 rest
  | _ => none

/-- A character of a text on one line. -/
def lineChar : Scan Char
  | '\\' :: rest => escape rest
  | c :: rest => if isTextChar c && c != '"' then some (c, rest) else none
  | [] => none

/-- A text on one line, after the opening quote. -/
def lineText : Scan (List Char) := fun text => do
  let (chars, rest) := many lineChar text
  let rest ← literally ['"'] rest
  some (chars, rest)

/-- A verbatim text on one line, after the opening quote. -/
def lineVerbatim : Scan (List Char) := fun text => do
  let isInside c := isTextChar c && c != '\''
  let rest ← literally ['\''] (text.dropWhile isInside)
  some (text.takeWhile isInside, rest)

/-- A line end inside a block, as it is kept. -/
def blockNewline : Scan (List Char) := fun text =>
  (newline text).map fun rest => (['\n'], rest)

/-- A blank or a line end. -/
def spacing : Scan Unit := fun text =>
  match text with
  | ' ' :: rest | '\t' :: rest => some ((), rest)
  | _ => (newline text).map fun rest => ((), rest)

/-- A line end that a backslash removes, after the backslash, with all blanks and line ends that
follow it. -/
def removedNewline : Scan (List Char) := fun text => do
  let rest ← newline (skipBlanks text)
  some ([], (many spacing rest).2)

/-- Quotes inside a block: one or two of them that a third does not follow. -/
def innerQuotes (quote : Char) : Scan (List Char) := fun text =>
  let run := text.takeWhile (· == quote)
  if run.length = 1 || run.length = 2 then some (run, text.drop run.length) else none

/-- A part of a block: a character, an escape, a line end, or quotes that do not end the block. -/
def blockPart : Scan (List Char) := fun text =>
  match text with
  | '\\' :: rest => (removedNewline rest).orElse fun _ =>
      (escape rest).map fun (c, rest) => ([c], rest)
  | '"' :: _ => innerQuotes '"' text
  | c :: rest => if isTextChar c then some ([c], rest) else blockNewline text
  | [] => none

/-- A part of a verbatim block. -/
def verbatimPart : Scan (List Char) := fun text =>
  match text with
  | '\'' :: _ => innerQuotes '\'' text
  | c :: rest => if isTextChar c then some ([c], rest) else blockNewline text
  | [] => none

/-- The end of a block: three quotes, before which up to two may belong to the block. -/
def blockEnd (quote : Char) : Scan (List Char) := fun text =>
  let quotes := (text.takeWhile (· == quote)).length
  if 3 ≤ quotes && quotes ≤ 5 then
    some (List.replicate (quotes - 3) quote, text.drop quotes)
  else none

/-- A block of the given parts, after the opening quotes. A line end right there is left out. -/
def block (part : Scan (List Char)) (quote : Char) : Scan (List Char) := fun text => do
  let (parts, rest) := many part ((newline text).getD text)
  let (final, rest) ← blockEnd quote rest
  some (parts.flatten ++ final, rest)

/-- A text in any of its forms. -/
def text : Scan String := fun input =>
  let chars : Option (List Char × List Char) :=
    match input with
    | '"' :: '"' :: '"' :: rest => block blockPart '"' rest
    | '\'' :: '\'' :: '\'' :: rest => block verbatimPart '\'' rest
    | '"' :: rest => lineText rest
    | '\'' :: rest => lineVerbatim rest
    | _ => none
  chars.map fun (chars, rest) => (.ofList chars, rest)

/-! ### Keys -/

/-- Whether a character may stand in a bare key. -/
def isBareChar (c : Char) : Bool :=
  c.isAlphanum || c == '_' || c == '-'

/-- One segment of a key: a text on one line, or one or more bare characters. -/
def keySegment : Scan String := fun input =>
  match input with
  | '"' :: rest => (lineText rest).map fun (chars, rest) => (.ofList chars, rest)
  | '\'' :: rest => (lineVerbatim rest).map fun (chars, rest) => (.ofList chars, rest)
  | _ =>
    let bare := input.takeWhile isBareChar
    if bare.isEmpty then none else some (.ofList bare, input.dropWhile isBareChar)

/-- A segment of a key with the dot before it. -/
def furtherSegment : Scan String := fun input => do
  let rest ← literally ['.'] (skipBlanks input)
  keySegment (skipBlanks rest)

/-- A key, split into the segments that lead to a table and the last one. -/
structure KeyPath where
  parents : List String
  last : String

/-- The greatest number of levels that keys may lead down, and that arrays and inline tables may
be nested. -/
def maxDepth : Nat :=
  79

/-- A key: segments with dots between them, and blanks around all. -/
def keyPath : Scan KeyPath := fun input => do
  let (first, rest) ← keySegment (skipBlanks input)
  let (further, rest) := many furtherSegment rest
  let segments := first :: further
  if segments.length ≤ maxDepth then
    some (⟨segments.dropLast, segments.getLastD ""⟩, skipBlanks rest)
  else none

end ConfigBinding.Toml
