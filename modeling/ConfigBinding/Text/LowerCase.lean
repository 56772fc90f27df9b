import ConfigBinding.Text.CaseTable

/-!
# Lower case

Lower case of a single character and of a whole text. They differ in one letter: inside a text the
capital sigma becomes `ς` at the end of a word and `σ` elsewhere, and a single character has no
surroundings to tell.

## Main Definitions

* `lowerChar` — the lower case of one character, which may take two characters
* `endsWord` — whether a letter with the given surroundings is the last of its word
* `lowerCase` — the lower case of a text
-/

namespace ConfigBinding.Text

/-- The lower case of a character. Only `İ` takes two characters: an `i` and the dot above it. -/
def lowerChar (c : Char) : List Char :=
  if c = 'İ' then ['i', '\u0307']
  else
    match lowercaseRuns.find? (·.covers c.toNat) with
    | some run => [Char.ofNat (run.target + (c.toNat - run.first))]
    | none => [c]

/-- Whether the first character that is not looked through is a letter of either case. -/
def meetsLetter (text : List Char) : Bool :=
  match text.dropWhile (inRanges caseIgnorable ·.toNat) with
  | c :: _ => inRanges casedLetters c.toNat
  | [] => false

/-- A letter ends a word if a letter comes before it and none after it. The text before it is given
nearest character first. -/
def endsWord (before after : List Char) : Bool :=
  meetsLetter before && !meetsLetter after

/-- The lower case of a text whose reversed beginning `before` has been read already. -/
def lowerAfter (before : List Char) : List Char → List Char
  | [] => []
  | c :: after =>
    let lower :=
      if c = 'Σ' then [if endsWord before after then 'ς' else 'σ'] else lowerChar c
    lower ++ lowerAfter (c :: before) after

/-- The lower case of a text. -/
def lowerCase (text : List Char) : List Char :=
  lowerAfter [] text

end ConfigBinding.Text
