/-!
# Placeholders

Texts with holes. A hole is written `${name}`, a dollar sign that must not open a hole is doubled,
and a dollar sign before any other character stands for itself.

## Main Definitions

* `Piece` — a character, a hole, or a hole that is never closed
* `pieces` — what a text consists of
* `expand` — a text with its holes filled
* `mayHavePlaceholders` — whether a text can differ from its expansion

## Design Notes

Reading a text and filling its holes are separate. What fills a hole is therefore never read again,
whatever characters it contains.
-/

namespace ConfigBinding.Placeholder

/-- A part of a text with holes. -/
inductive Piece where
  | char (c : Char)
  | hole (name : String)
  /-- The rest of a text from a hole that is opened and not closed. -/
  | unclosed
  deriving DecidableEq

mutual

/-- The pieces of a text, outside a hole. -/
def pieces : List Char → List Piece
  | [] => []
  | '$' :: '$' :: rest => .char '$' :: pieces rest
  | '$' :: '{' :: rest => piecesInHole [] rest
  | c :: rest => .char c :: pieces rest

/-- The pieces of a text, inside a hole whose name so far is given last character first. -/
def piecesInHole (name : List Char) : List Char → List Piece
  | [] => [.unclosed]
  | '}' :: rest => .hole (.ofList name.reverse) :: pieces rest
  | c :: rest => piecesInHole (c :: name) rest

end

/-- A hole as it is written. -/
def holeText (name : String) : List Char :=
  '$' :: '{' :: name.toList ++ ['}']

variable {ε : Type}

/-- The text of the pieces. A hole is filled with what the resolver answers, and stays as written
if there is no answer. The first fault from the left is reported. -/
def fill (resolve : String → Except ε (Option String)) (unclosed : ε) :
    List Piece → Except ε (List Char)
  | [] => .ok []
  | .char c :: rest =>
    match fill resolve unclosed rest with
    | .ok text => .ok (c :: text)
    | .error e => .error e
  | .hole name :: rest =>
    match resolve name with
    | .error e => .error e
    | .ok value =>
      match fill resolve unclosed rest with
      | .ok text => .ok ((value.map String.toList).getD (holeText name) ++ text)
      | .error e => .error e
  | .unclosed :: _ => .error unclosed

/-- A text with its holes filled. -/
def expand (resolve : String → Except ε (Option String)) (unclosed : ε) (text : String) :
    Except ε String :=
  (fill resolve unclosed (pieces text.toList)).map String.ofList

/-- Whether a text has a `$` before a `{` or before another `$`. -/
def dollarBeforeMark : List Char → Bool
  | [] => false
  | [_] => false
  | first :: second :: rest =>
    first == '$' && (second == '{' || second == '$') || dollarBeforeMark (second :: rest)

/-- Whether a text can differ from its expansion: it has a hole or a doubled dollar sign. -/
def mayHavePlaceholders (text : String) : Bool :=
  dollarBeforeMark text.toList

end ConfigBinding.Placeholder
