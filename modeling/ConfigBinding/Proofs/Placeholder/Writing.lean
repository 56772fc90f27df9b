import ConfigBinding.Proofs.Placeholder.Filling
import ConfigBinding.Reference
import ConfigBinding.Template

/-!
# Writing texts with holes

Any sequence of texts and holes can be written as a text with holes: dollar signs of the texts are
doubled, and nothing else is changed.  Expanding what was written gives the texts back as they were,
and what the holes are filled with in between.

## Main Definitions

* `escaped` — a text with its dollar signs doubled
* `Segment` — a text, or a hole with a name that can be written
* `written` — segments as a text with holes
* `Segment.filled` — what a segment stands for, once holes are filled

## Main Statements

* `pieces_written` — what was written is read as the pieces of the segments
* `fill_segments` — filling them takes the segments one after the other
* `expansion_undoes_writing` — expanding what was written, and the two uses of it

## Design Notes

A segment is read in front of any text whatever, be it a hole or more dollar signs.  After the
segment nothing of it is left over that could change how the next one is read: a doubled dollar sign
takes both of its characters with it, and a hole ends with its first closing brace.
-/

namespace ConfigBinding.Placeholder

/-! ### Written segments -/

/-- A character of a text with holes.  A dollar sign is written twice. -/
def doubled (c : Char) : List Char :=
  if c = '$' then ['$', '$'] else [c]

/-- A text with its dollar signs doubled. -/
def escaped (text : String) : String :=
  .ofList (text.toList.flatMap doubled)

/-- A part of a text with holes, before it is written.  The name of a hole may have any characters
but the one that ends it. -/
inductive Segment where
  | literal (text : String)
  | hole (name : String) (closes : '}' ∉ name.toList)

namespace Segment

/-- A segment as it is written. -/
def written : Segment → String
  | literal text => escaped text
  | hole name _ => .ofList (holeText name)

/-- The pieces that a segment is read as. -/
def pieces : Segment → List Piece
  | literal text => text.toList.map .char
  | hole name _ => [.hole name]

/-- What a segment stands for.  A hole without an answer stays as it is written. -/
def filled {ε : Type} (resolve : String → Except ε (Option String)) : Segment → Except ε String
  | literal text => .ok text
  | hole name _ => (resolve name).map fun answer => answer.getD (.ofList (holeText name))

end Segment

/-- Segments as a text with holes. -/
def written (segments : List Segment) : String :=
  .join (segments.map Segment.written)

/-! ### Reading what was written -/

/-- A character other than a dollar sign is a piece of its own. -/
theorem pieces_cons_of_ne {c : Char} (differs : c ≠ '$') (rest : List Char) :
    pieces (c :: rest) = .char c :: pieces rest := by
  rw [pieces]
  · rintro _ rfl -
    exact differs rfl
  · rintro _ rfl -
    exact differs rfl

/-- A text with its dollar signs doubled is read as its characters, whatever follows it. -/
theorem pieces_doubled_append (text rest : List Char) :
    pieces (text.flatMap doubled ++ rest) = text.map .char ++ pieces rest := by
  induction text with
  | nil => rfl
  | cons c text ih =>
    rw [List.flatMap_cons, List.append_assoc, List.map_cons, List.cons_append, ← ih]
    by_cases isDollar : c = '$'
    · subst isDollar
      rfl
    · rw [doubled, if_neg isDollar, List.singleton_append, pieces_cons_of_ne isDollar]

/-- Inside a hole everything up to the closing brace belongs to the name. -/
theorem piecesInHole_append {name : List Char} (closes : '}' ∉ name) (before rest : List Char) :
    piecesInHole before (name ++ '}' :: rest) =
      .hole (.ofList (before.reverse ++ name)) :: pieces rest := by
  induction name generalizing before with
  | nil => rw [List.nil_append, piecesInHole, List.append_nil]
  | cons c name ih =>
    obtain ⟨differs, closesLater⟩ := List.ne_and_not_mem_of_not_mem_cons closes
    rw [List.cons_append, piecesInHole, ih closesLater]
    · simp
    · exact fun same => differs same.symm

/-- **A segment is read as its pieces**, whatever follows it. -/
theorem pieces_segment_append (segment : Segment) (rest : List Char) :
    pieces (segment.written.toList ++ rest) = segment.pieces ++ pieces rest := by
  cases segment with
  | literal text =>
    rw [Segment.written, escaped, String.toList_ofList, pieces_doubled_append]
    rfl
  | hole name closes =>
    have opened : pieces ('$' :: '{' :: (name.toList ++ '}' :: rest)) =
        piecesInHole [] (name.toList ++ '}' :: rest) := rfl
    have asWritten : (Segment.hole name closes).written.toList ++ rest =
        '$' :: '{' :: (name.toList ++ '}' :: rest) := by
      simp [Segment.written, holeText]
    rw [asWritten, opened, piecesInHole_append closes]
    simp [Segment.pieces]

/-- A hole that stands alone is read as nothing else. -/
theorem pieces_holeText {name : String} (closes : '}' ∉ name.toList) :
    pieces (holeText name) = [.hole name] := by
  have alone := pieces_segment_append (.hole name closes) []
  rwa [Segment.written, String.toList_ofList, List.append_nil] at alone

/-- **What was written is read as the pieces of the segments.** -/
theorem pieces_written (segments : List Segment) :
    pieces (written segments).toList = segments.flatMap Segment.pieces := by
  rw [written, String.toList_join, List.flatMap_map]
  induction segments with
  | nil => rfl
  | cons segment rest ih =>
    rw [List.flatMap_cons, List.flatMap_cons, pieces_segment_append, ih]

/-! ### Filling what was written -/

variable {ε : Type} {resolve : String → Except ε (Option String)} {unclosed : ε}

/-- A segment is filled before what follows it, and its text is not looked at again. -/
theorem fill_segment_append (segment : Segment) (rest : List Piece) :
    fill resolve unclosed (segment.pieces ++ rest) =
      (segment.filled resolve).bind fun text =>
        (fill resolve unclosed rest).map (text.toList ++ ·) := by
  cases segment with
  | literal text => exact fill_chars_append text.toList rest
  | hole name closes =>
    show fill resolve unclosed (.hole name :: rest) = _
    rw [Segment.filled]
    cases here : resolve name with
    | error e => exact fill_hole_error here rest
    | ok answer =>
      rw [fill, here]
      cases fill resolve unclosed rest with
      | error e => rfl
      | ok text => cases answer <;> simp [Except.map, Except.bind]

/-- **Segments are filled in order**, up to the first one that cannot be. -/
theorem fill_segments (segments : List Segment) :
    fill resolve unclosed (segments.flatMap Segment.pieces) =
      (segments.mapM (Segment.filled resolve)).map fun texts => texts.flatMap String.toList := by
  induction segments with
  | nil => rfl
  | cons segment rest ih =>
    rw [List.flatMap_cons, fill_segment_append, ih, List.mapM_cons]
    cases segment.filled resolve with
    | error e => rfl
    | ok text => cases rest.mapM (Segment.filled resolve) <;> rfl

/-- Expanding what was written gives what the segments stand for, one after the other. -/
theorem expand_written (segments : List Segment) :
    expand resolve unclosed (written segments) =
      (segments.mapM (Segment.filled resolve)).map String.join := by
  rw [expand, pieces_written, fill_segments]
  cases segments.mapM (Segment.filled resolve) with
  | error e => rfl
  | ok texts =>
    have joined : String.ofList (texts.flatMap String.toList) = String.join texts := by
      rw [← String.toList_join, String.ofList_toList]
    exact congrArg Except.ok joined

/-- A text with its dollar signs doubled is expanded to the text. -/
theorem expand_escaped (text : String) : expand resolve unclosed (escaped text) = .ok text := by
  have alone : written [.literal text] = escaped text := by
    simp [written, Segment.written]
  rw [← alone, expand_written]
  simp [Segment.filled, Except.map, pure, Except.pure, bind, Except.bind]

/-- **Expansion undoes writing.**  Whatever fills the holes, what was written is expanded to what
the segments stand for, one after the other, or to the error of the first hole that cannot be
filled; an unclosed hole is never reported, and what fills a hole is not expanded in turn.  So a
text with its dollar signs doubled comes out of a literal, and out of a template, as it was. -/
theorem expansion_undoes_writing :
    (∀ (ε : Type) (resolve : String → Except ε (Option String)) (unclosed : ε)
      (segments : List Segment),
      expand resolve unclosed (written segments) =
        (segments.mapM (Segment.filled resolve)).map String.join) ∧
    (∀ lookup text, Reference.interpolate lookup (escaped text) = .ok text) ∧
    ∀ arguments text, Template.substitute (escaped text) arguments = .ok text := by
  refine ⟨?_, ?_, ?_⟩
  · intro ε resolve unclosed segments
    exact expand_written segments
  · intro lookup text
    exact expand_escaped text
  · intro arguments text
    exact expand_escaped text

/-- Dollar signs on both sides of a hole, and a value that looks like a hole. -/
example : expand (fun _ => .ok (some "${b}")) ()
    (written [.literal "$", .hole "a" (by decide), .literal "$"]) = .ok "$${b}$" := by
  rfl

end ConfigBinding.Placeholder
