import ConfigBinding.Proofs.Placeholder.Opening

/-!
# Texts without marks

A text is passed over if it has no dollar sign before a `{` or before another one.  That is a test
of its substrings, and it agrees with reading the text piece by piece: exactly the texts that are
passed over consist of nothing but their characters.

## Main Statements

* `mayHavePlaceholders_eq_false_iff` — which substrings the test looks for
* `pieces_eq_chars_iff` — a text that is passed over consists of its characters
* `expand_eq_self_iff` — and it is what is left as it is if no hole can be filled

## Design Notes

Where there is a mark, reading takes two characters for one piece, or more.  So a text with a mark
has fewer pieces than characters, wherever the mark stands and whatever is read before it.
-/

namespace ConfigBinding.Placeholder

variable {text : List Char}

/-! ### Substrings -/

theorem dollarBeforeMark_iff :
    dollarBeforeMark text = true ↔ ['$', '{'] <:+: text ∨ ['$', '$'] <:+: text := by
  induction text with
  | nil => simp [dollarBeforeMark]
  | cons first rest ih =>
    cases rest with
    | nil => simp [dollarBeforeMark, List.infix_cons_iff]
    | cons second rest =>
      rw [dollarBeforeMark, Bool.or_eq_true, ih, List.infix_cons_iff (a := first),
        List.infix_cons_iff (a := first), List.cons_prefix_cons, List.cons_prefix_cons,
        List.cons_prefix_cons, List.cons_prefix_cons]
      simp only [List.nil_prefix, and_true, Bool.and_eq_true, Bool.or_eq_true, beq_iff_eq]
      grind

/-- **The test looks for two substrings**, a dollar sign before a brace and a doubled one. -/
theorem mayHavePlaceholders_eq_false_iff {text : String} : mayHavePlaceholders text = false ↔
    ¬ ['$', '{'] <:+: text.toList ∧ ¬ ['$', '$'] <:+: text.toList := by
  rw [← not_or, ← dollarBeforeMark_iff, Bool.not_eq_true]
  rfl

/-! ### The number of pieces -/

/-- A mark that is not at the beginning of a text is further on. -/
theorem dollarBeforeMark_of_cons {c : Char} (first : ∀ rest, c = '$' → text ≠ '$' :: rest)
    (second : ∀ rest, c = '$' → text ≠ '{' :: rest) (marked : dollarBeforeMark (c :: text) = true) :
    dollarBeforeMark text = true := by
  cases text with
  | nil => cases marked
  | cons next rest =>
    simp only [dollarBeforeMark, Bool.or_eq_true, Bool.and_eq_true, beq_iff_eq] at marked
    rcases marked with ⟨isDollar, rfl | rfl⟩ | later
    · exact absurd rfl (second _ isDollar)
    · exact absurd rfl (first _ isDollar)
    · exact later

/-- **There are not more pieces than characters, and with a mark there are fewer.**  The induction
is that of reading; inside a hole, the piece that is being read has begun before. -/
theorem length_pieces (text : List Char) : (pieces text).length ≤ text.length ∧
    (dollarBeforeMark text = true → (pieces text).length < text.length) := by
  refine pieces.induct (fun text => (pieces text).length ≤ text.length ∧
      (dollarBeforeMark text = true → (pieces text).length < text.length))
    (fun name rest => (piecesInHole name rest).length ≤ rest.length + 1)
    ?nil ?doubled ?opening ?char ?never ?closing ?inside text
  case nil => exact ⟨Nat.le_refl _, fun marked => absurd marked Bool.false_ne_true⟩
  case doubled =>
    intro rest ih
    have fewer : (pieces ('$' :: '$' :: rest)).length < rest.length + 2 :=
      Nat.succ_lt_succ (Nat.lt_succ_of_le ih.1)
    exact ⟨Nat.le_of_lt fewer, fun _ => fewer⟩
  case opening =>
    intro rest ih
    have fewer : (pieces ('$' :: '{' :: rest)).length < rest.length + 2 := Nat.lt_succ_of_le ih
    exact ⟨Nat.le_of_lt fewer, fun _ => fewer⟩
  case char =>
    intro c rest first second ih
    have read : pieces (c :: rest) = .char c :: pieces rest := by
      rw [pieces]
      · exact first
      · exact second
    rw [read]
    exact ⟨Nat.succ_le_succ ih.1, fun marked =>
      Nat.succ_lt_succ (ih.2 (dollarBeforeMark_of_cons first second marked))⟩
  case never => exact fun _ => Nat.le_refl _
  case closing =>
    intro name rest ih
    exact Nat.succ_le_succ (Nat.le_succ_of_le ih.1)
  case inside =>
    intro name c rest differs ih
    rw [piecesInHole]
    · exact Nat.le_succ_of_le ih
    · exact differs

/-- **A text that is passed over consists of its characters**, and no other text does. -/
theorem pieces_eq_chars_iff : pieces text = text.map .char ↔ dollarBeforeMark text = false := by
  constructor
  · intro chars
    refine Bool.eq_false_iff.mpr fun marked => ?_
    have fewer := (length_pieces text).2 marked
    rw [chars, List.length_map] at fewer
    exact Nat.lt_irrefl _ fewer
  · exact pieces_of_not_dollarBeforeMark

/-! ### Holes that cannot be filled -/

variable {ε : Type} {resolve : String → Except ε (Option String)} {unclosed : ε}

/-- If no hole can be filled, only pieces without holes have a text. -/
theorem fill_eq_ok_iff_of_refused (refused : ∀ name, ∃ e, resolve name = .error e)
    {parts : List Piece} : fill resolve unclosed parts = .ok text ↔ parts = text.map .char := by
  constructor
  · intro filled
    induction parts generalizing text with
    | nil =>
      obtain rfl : [] = text := by simpa [fill] using filled
      rfl
    | cons part rest ih =>
      cases part with
      | char c =>
        rw [fill_char_cons] at filled
        cases others : fill resolve unclosed rest with
        | error e => simp [others, Except.map] at filled
        | ok left =>
          obtain rfl : c :: left = text := by simpa [others, Except.map] using filled
          rw [ih others, List.map_cons]
      | hole name =>
        obtain ⟨e, here⟩ := refused name
        rw [fill_hole_error here] at filled
        cases filled
      | unclosed => cases filled
  · rintro rfl
    exact fill_chars text

/-- **The texts that are left as they are if no hole can be filled** are those that are passed
over. -/
theorem expand_eq_self_iff (refused : ∀ name, ∃ e, resolve name = .error e) {text : String} :
    expand resolve unclosed text = .ok text ↔ mayHavePlaceholders text = false := by
  rw [mayHavePlaceholders, ← pieces_eq_chars_iff, ← fill_eq_ok_iff_of_refused refused, expand]
  cases filled : fill resolve unclosed (pieces text.toList) with
  | error e => simp [Except.map]
  | ok chars => simp [Except.map, ← String.toList_inj]

end ConfigBinding.Placeholder
