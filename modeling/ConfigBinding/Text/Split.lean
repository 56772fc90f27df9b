/-!
# Splitting a text

A text is cut at every occurrence of a separator, and the pieces between the cuts are returned in
order. There is always one more piece than there are cuts, so the empty text has one empty piece.

## Main Definitions

* `splitAtChar` — pieces between the occurrences of a character
* `splitAtText` — pieces between the occurrences of a text, found from the left without overlap
* `splitDots` — the segments of a dotted key
-/

namespace ConfigBinding.Text

/-- Puts a character in front of the first piece. -/
def consFirst (c : Char) : List (List Char) → List (List Char)
  | [] => [[c]]
  | piece :: pieces => (c :: piece) :: pieces

/-- The pieces of a text between the occurrences of a character. -/
def splitAtChar (separator : Char) : List Char → List (List Char)
  | [] => [[]]
  | c :: rest =>
    if c = separator then [] :: splitAtChar separator rest
    else consFirst c (splitAtChar separator rest)

/-- The pieces of a text between the occurrences of a separator, once the first `skip` characters,
the tail of an occurrence found before, are passed over. -/
def splitAfter (separator : List Char) : Nat → List Char → List (List Char)
  | _, [] => [[]]
  | skip + 1, _ :: rest => splitAfter separator skip rest
  | 0, c :: rest =>
    if separator.isPrefixOf (c :: rest) then
      [] :: splitAfter separator (separator.length - 1) rest
    else consFirst c (splitAfter separator 0 rest)

/-- The pieces of a text between the occurrences of a non-empty separator. An occurrence starts at
the leftmost place where the separator can be read, and the next one after its end. -/
def splitAtText (separator text : List Char) : List (List Char) :=
  splitAfter separator 0 text

/-- The segments of a dotted key. Segments may be empty. -/
def splitDots (key : String) : List String :=
  (splitAtChar '.' key.toList).map String.ofList

end ConfigBinding.Text
