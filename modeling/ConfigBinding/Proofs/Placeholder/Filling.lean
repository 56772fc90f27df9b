import ConfigBinding.Placeholder

/-!
# Filling holes

What filling the pieces of a text comes to, whatever fills the holes, and which texts have nothing
to fill.

## Main Definitions

* `Piece.fault?` — what is wrong with one piece

## Main Statements

* `fill_chars` — pieces without holes are the text itself
* `fill_eq_error_iff`, `expand_eq_error_iff` — filling fails with the first fault from the left
* `exists_fill_eq_ok_iff` — and does not fail if there is none
* `exists_error_of_mem` — a hole that cannot be filled spoils the whole text, wherever it stands
* `expand_of_not_mayHavePlaceholders` — a text that is passed over is its own expansion
-/

namespace ConfigBinding.Placeholder

variable {ε : Type} {resolve : String → Except ε (Option String)} {unclosed e : ε}

theorem fill_char_cons (c : Char) (rest : List Piece) :
    fill resolve unclosed (.char c :: rest) = (fill resolve unclosed rest).map (c :: ·) := by
  rw [fill]
  cases fill resolve unclosed rest <;> rfl

theorem fill_hole_cons {name text : String} (here : resolve name = .ok (some text))
    (rest : List Piece) :
    fill resolve unclosed (.hole name :: rest) =
      (fill resolve unclosed rest).map (text.toList ++ ·) := by
  rw [fill, here]
  cases fill resolve unclosed rest <;> rfl

theorem fill_hole_error {name : String} (here : resolve name = .error e) (rest : List Piece) :
    fill resolve unclosed (.hole name :: rest) = .error e := by
  rw [fill, here]

/-- Characters stay as they are, whatever follows them. -/
theorem fill_chars_append (text : List Char) (rest : List Piece) :
    fill resolve unclosed (text.map .char ++ rest) =
      (fill resolve unclosed rest).map (text ++ ·) := by
  induction text with
  | nil =>
    rw [List.map_nil, List.nil_append]
    cases fill resolve unclosed rest <;> rfl
  | cons c text ih =>
    rw [List.map_cons, List.cons_append, fill_char_cons, ih]
    cases fill resolve unclosed rest <;> rfl

/-- Pieces without holes give their characters. -/
@[simp] theorem fill_chars (text : List Char) :
    fill resolve unclosed (text.map .char) = .ok text := by
  have alone : fill resolve unclosed (text.map .char ++ []) = _ := fill_chars_append text []
  simpa [fill, Except.map] using alone

/-- What fills the holes of a text matters only at its holes. -/
theorem fill_congr {other : String → Except ε (Option String)} {parts : List Piece}
    (agree : ∀ name, .hole name ∈ parts → other name = resolve name) :
    fill other unclosed parts = fill resolve unclosed parts := by
  induction parts with
  | nil => rfl
  | cons part rest ih =>
    have tail := ih fun name hole => agree name (List.mem_cons_of_mem _ hole)
    cases part with
    | char c => rw [fill_char_cons, fill_char_cons, tail]
    | hole name =>
      rw [fill, fill, agree name List.mem_cons_self, tail]
    | unclosed => rfl

/-! ### Faults -/

theorem map_eq_error_iff {α β : Type} {outcome : Except ε α} {f : α → β} :
    outcome.map f = .error e ↔ outcome = .error e := by
  cases outcome <;> simp [Except.map]

/-- What is wrong with a piece by itself. -/
def Piece.fault? (resolve : String → Except ε (Option String)) (unclosed : ε) : Piece → Option ε
  | .char _ => none
  | .hole name =>
    match resolve name with
    | .error e => some e
    | .ok _ => none
  | .unclosed => some unclosed

theorem Piece.fault?_eq_some_iff {part : Piece} :
    part.fault? resolve unclosed = some e ↔
      (∃ name, part = .hole name ∧ resolve name = .error e) ∨
        part = .unclosed ∧ e = unclosed := by
  cases part with
  | char c => simp [fault?]
  | hole name => cases here : resolve name <;> simp [fault?, here]
  | unclosed => simp [fault?, eq_comm]

/-- **The first fault from the left is the one that is reported.** -/
theorem fill_eq_error_iff {parts : List Piece} :
    fill resolve unclosed parts = .error e ↔
      parts.findSome? (Piece.fault? resolve unclosed) = some e := by
  induction parts with
  | nil => simp [fill]
  | cons part rest ih =>
    cases part with
    | char c =>
      rw [List.findSome?_cons_of_isNone rfl, ← ih, fill_char_cons, map_eq_error_iff]
    | hole name =>
      cases here : resolve name with
      | error first =>
        have found : (Piece.hole name).fault? resolve unclosed = some first := by
          rw [Piece.fault?, here]
        rw [fill_hole_error here, List.findSome?_cons, found]
        simp
      | ok value =>
        have sound : (Piece.hole name).fault? resolve unclosed = none := by
          rw [Piece.fault?, here]
        rw [List.findSome?_cons, sound, ← ih, fill, here]
        cases fill resolve unclosed rest <;> simp
    | unclosed =>
      rw [List.findSome?_cons]
      simp [fill, Piece.fault?]

/-- A text is not expanded if one of its pieces is at fault; the first of them is reported. -/
theorem expand_eq_error_iff {text : String} :
    expand resolve unclosed text = .error e ↔
      (pieces text.toList).findSome? (Piece.fault? resolve unclosed) = some e := by
  rw [expand, map_eq_error_iff, fill_eq_error_iff]

/-- Pieces can be filled exactly if nothing is wrong with any of them. -/
theorem exists_fill_eq_ok_iff {parts : List Piece} :
    (∃ text, fill resolve unclosed parts = .ok text) ↔
      ∀ part ∈ parts, part.fault? resolve unclosed = none := by
  rw [← List.findSome?_eq_none_iff]
  cases filled : fill resolve unclosed parts with
  | error e => simp [fill_eq_error_iff.mp filled]
  | ok text =>
    cases found : parts.findSome? (Piece.fault? resolve unclosed) with
    | none => simp
    | some e => simp [fill_eq_error_iff.mpr found] at filled

/-- **One hole that cannot be filled spoils the text**, though an earlier fault may be the one that
is reported. -/
theorem exists_error_of_mem {parts : List Piece} {name : String} (hole : .hole name ∈ parts)
    (fault : resolve name = .error e) (unclosed : ε) :
    ∃ e', fill resolve unclosed parts = .error e' := by
  have found : (Piece.hole name).fault? resolve unclosed = some e :=
    Piece.fault?_eq_some_iff.mpr (.inl ⟨name, rfl, fault⟩)
  cases filled : fill resolve unclosed parts with
  | error e' => exact ⟨e', rfl⟩
  | ok text =>
    have sound := exists_fill_eq_ok_iff.mp ⟨text, filled⟩ _ hole
    rw [found] at sound
    cases sound

/-! ### Texts without placeholders -/

/-- A text with no `$` before a mark consists of its characters. -/
theorem pieces_of_not_dollarBeforeMark {text : List Char} (plain : dollarBeforeMark text = false) :
    pieces text = text.map .char := by
  induction text with
  | nil => rfl
  | cons first rest ih =>
    cases rest with
    | nil => simp [pieces]
    | cons second rest =>
      simp only [dollarBeforeMark, Bool.or_eq_false_iff, Bool.and_eq_false_imp,
        beq_iff_eq] at plain
      obtain ⟨unmarked, plainRest⟩ := plain
      have step : pieces (first :: second :: rest) = .char first :: pieces (second :: rest) := by
        rw [pieces]
        · rintro _ rfl same
          simp [List.cons_eq_cons.mp same] at unmarked
        · rintro _ rfl same
          simp [List.cons_eq_cons.mp same] at unmarked
      rw [step, ih plainRest]
      rfl

/-- A text that cannot differ from its expansion has no holes. -/
theorem pieces_of_not_mayHavePlaceholders {text : String}
    (plain : mayHavePlaceholders text = false) :
    pieces text.toList = text.toList.map .char :=
  pieces_of_not_dollarBeforeMark plain

/-- **A text that is passed over is its own expansion**, whatever would fill its holes. -/
theorem expand_of_not_mayHavePlaceholders {text : String}
    (plain : mayHavePlaceholders text = false) : expand resolve unclosed text = .ok text := by
  rw [expand, pieces_of_not_mayHavePlaceholders plain, fill_chars]
  simp [Except.map]

end ConfigBinding.Placeholder
