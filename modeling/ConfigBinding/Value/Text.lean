import ConfigBinding.Decimal.Shortest
import ConfigBinding.Value

/-!
# Values as text

Two text forms. A scalar has a *plain* form, the bare text that a reference to it inserts. Every
value has a *written* form, in which texts and keys are quoted so that a table reads as one line.

## Main Definitions

* `Value.plain?` — the bare text of a scalar
* `Quoting`, `Quoting.of`, `quoted` — the four ways to quote a text, and which one a text gets
* `keyText` — a key, quoted only where it has to be
* `Value.written` — the written form
* `Value.shown` — the form in which a value stands alone: a text without quotes

## Design Notes

A text is quoted by the lightest form that can hold it. Forms with `'` have no escapes and hold
what they can verbatim; forms with `"` escape what they cannot show.
-/

namespace ConfigBinding

open Decimal

/-- A bare float: the shortest digits, whole numbers without a point. -/
def plainFloat : FloatStyle where
  noNumber := "NaN"
  wholeTail := ""

/-- A written float: whole numbers keep a point, so that they are not taken for integers. -/
def writtenFloat : FloatStyle where
  noNumber := "nan"
  wholeTail := ".0"

/-- The text of a truth value. -/
def booleanText (flag : Bool) : String :=
  if flag then "true" else "false"

/-- The bare text of a scalar. Arrays and tables have none. -/
def Value.plain? : Value → Option String
  | .string text => some text
  | .integer number => some (intText number.toInt)
  | .float number => some (plainFloat.render number)
  | .boolean flag => some (booleanText flag)
  | .datetime moment => some moment.text
  | .array _ | .table _ => none

/-! ### Quoting -/

/-- The ways to quote a text: on one line or as a block, with escapes (`"`) or verbatim (`'`). -/
inductive Quoting where
  | line
  | lineVerbatim
  | block
  | blockVerbatim

/-- The length of the longest run of a character. `run` is the length of the run that ends where
the text begins. -/
def longestRun (c : Char) (run : Nat) : List Char → Nat
  | [] => run
  | first :: rest =>
    if first = c then longestRun c (run + 1) rest else max run (longestRun c 0 rest)

/-- Control characters that no verbatim form can hold: all but the tab and the line feed. -/
def isHidden (c : Char) : Bool :=
  (c.toNat < 0x20 && c != '\t' && c != '\n') || c.toNat == 0x7F

/-- The lightest form that can hold a text. -/
def Quoting.of (text : List Char) : Quoting :=
  let hidden := text.any isHidden
  let backslash := text.contains '\\'
  let lineFeed := text.contains '\n'
  let apostrophes := longestRun '\'' 0 text
  let quotes := longestRun '"' 0 text
  if !hidden && !backslash && quotes == 0 && !lineFeed then .line
  else if !hidden && apostrophes == 0 && !lineFeed then .lineVerbatim
  else if !hidden && !backslash && quotes ≤ 2 then .block
  else if !hidden && apostrophes ≤ 2 then .blockVerbatim
  else if lineFeed then .block
  else .line

/-- A character by its number, as four upper-case hexadecimal digits. -/
def numericEscape (c : Char) : List Char :=
  let digits := (Nat.toDigits 16 c.toNat).map Char.toUpper
  '\\' :: 'u' :: List.replicate (4 - digits.length) '0' ++ digits

/-- The escape of a character that is not a quote, or the character itself. -/
def escaped (keepLineFeed : Bool) (c : Char) : List Char :=
  if c = '\x08' then ['\\', 'b']
  else if c = '\t' then ['\\', 't']
  else if c = '\n' then if keepLineFeed then ['\n'] else ['\\', 'n']
  else if c = '\x0c' then ['\\', 'f']
  else if c = '\r' then ['\\', 'r']
  else if c = '\\' then ['\\', '\\']
  else if isHidden c then numericEscape c
  else [c]

/-- The inside of a form with escapes. A quote is escaped if `allowed` quotes stand right before it
already; `run` is the number of quotes that the text so far ends in, an escaped one not counted. -/
def escapedText (keepLineFeed : Bool) (allowed run : Nat) : List Char → List Char
  | [] => []
  | c :: rest =>
    if c = '"' then
      if run < allowed then '"' :: escapedText keepLineFeed allowed (run + 1) rest
      else '\\' :: '"' :: escapedText keepLineFeed allowed 0 rest
    else escaped keepLineFeed c ++ escapedText keepLineFeed allowed 0 rest

/-- The line feed that opens a block of several lines; it is not part of the text. -/
def blockOpening (text : List Char) : List Char :=
  if text.contains '\n' then ['\n'] else []

/-- A text in a given form. In a block two quotes in a row cannot be taken for its end. -/
def Quoting.apply (quoting : Quoting) (text : List Char) : List Char :=
  match quoting with
  | .line => '"' :: escapedText false 0 0 text ++ ['"']
  | .lineVerbatim => '\'' :: text ++ ['\'']
  | .block => ['"', '"', '"'] ++ blockOpening text ++ escapedText true 2 0 text ++ ['"', '"', '"']
  | .blockVerbatim => ['\'', '\'', '\''] ++ blockOpening text ++ text ++ ['\'', '\'', '\'']

/-- A text in the lightest form that can hold it. -/
def quoted (text : String) : List Char :=
  (Quoting.of text.toList).apply text.toList

/-- Characters of a key that needs no quotes. -/
def isBareKeyChar (c : Char) : Bool :=
  c.isAlphanum || c == '_' || c == '-'

/-- A key: bare if it can be, or else on one line in quotes, with escapes only if both quotes fail
without them. -/
def keyText (key : String) : List Char :=
  let text := key.toList
  let plain := !text.any isHidden && !text.contains '\n'
  if !text.isEmpty && text.all isBareKeyChar then text
  else if plain && !text.contains '\\' && !text.contains '"' then Quoting.line.apply text
  else if plain && !text.contains '\'' then Quoting.lineVerbatim.apply text
  else Quoting.line.apply text

/-! ### The written form -/

/-- Pieces with a comma and a blank between them. -/
def commaJoin : List (List Char) → List Char
  | [] => []
  | [piece] => piece
  | piece :: pieces => piece ++ ',' :: ' ' :: commaJoin pieces

/-- A table of written entries, in braces. -/
def inBraces (entries : List (List Char)) : List Char :=
  if entries.isEmpty then ['{', '}'] else '{' :: ' ' :: commaJoin entries ++ [' ', '}']

/-- A key and what it holds. -/
def entryText (key : String) (value : List Char) : List Char :=
  keyText key ++ ' ' :: '=' :: ' ' :: value

mutual

/-- The characters of the written form. -/
def Value.chars : Value → List Char
  | .string text => quoted text
  | .integer number => (intText number.toInt).toList
  | .float number => (writtenFloat.render number).toList
  | .boolean flag => (booleanText flag).toList
  | .datetime moment => moment.text.toList
  | .array items => '[' :: commaJoin (Value.itemChars items) ++ [']']
  | .table ⟨entries⟩ => inBraces (Value.entryChars entries)

/-- The written items of an array. -/
def Value.itemChars : List Value → List (List Char)
  | [] => []
  | item :: items => item.chars :: Value.itemChars items

/-- The written entries of a table. -/
def Value.entryChars : List (String × Value) → List (List Char)
  | [] => []
  | (key, value) :: entries => entryText key value.chars :: Value.entryChars entries

end

/-- The written form of a value. -/
def Value.written (value : Value) : String :=
  .ofList value.chars

/-- The key that marks a datetime among tables, where a form has only tables and texts. -/
def datetimeMark : String :=
  "$__toml_private_datetime"

/-- A value on its own: a text as it is, a datetime as a marked table, and the other values in
their written form. -/
def Value.shown : Value → String
  | .string text => text
  | .datetime moment => .ofList (inBraces [entryText datetimeMark (quoted moment.text)])
  | value => value.written

end ConfigBinding
