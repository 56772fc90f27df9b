import ConfigBinding.Proofs.Placeholder.Writing

/-!
# Where holes are opened

A text is read from the left, and so it depends on what stands before a `${` whether a hole is
opened there.  It is not if the dollar sign is the second one of two, or if both characters belong
to the name of another hole.

## Main Definitions

* `Outside` — what can stand before a hole is opened
* `Opened` — the piece that is read of what follows an opening
* `OpenedIn` — a hole is opened in a text

## Main Statements

* `mem_pieces_iff_openedIn` — the holes of a text are those that are opened in it

## Design Notes

A dollar sign that stands for itself is told by the character after it, which is no mark.  Without
that character it could stand before a `${` as well, and would be the first one of two.  At the end
of a text there is none, but there no hole is opened either.
-/

namespace ConfigBinding.Placeholder

/-- **What can stand before a hole is opened**: characters, doubled dollar signs, dollar signs
before another character, and holes that are closed. -/
inductive Outside : List Char → Prop
  | nil : Outside []
  | char {c : Char} {rest : List Char} (differs : c ≠ '$') (outside : Outside rest) :
      Outside (c :: rest)
  | doubled {rest : List Char} (outside : Outside rest) : Outside ('$' :: '$' :: rest)
  | lone {c : Char} {rest : List Char} (differs : c ≠ '$') (unmarked : c ≠ '{')
      (outside : Outside (c :: rest)) : Outside ('$' :: c :: rest)
  | hole {name rest : List Char} (closes : '}' ∉ name) (outside : Outside rest) :
      Outside ('$' :: '{' :: (name ++ '}' :: rest))

/-- **The piece that is read of what follows an opening**: the hole whose name goes as far as the
first closing brace, if there is one. -/
inductive Opened : List Char → Piece → Prop
  | closed {name after : List Char} (closes : '}' ∉ name) :
      Opened (name ++ '}' :: after) (.hole (.ofList name))
  | never {rest : List Char} (closes : '}' ∉ rest) : Opened rest .unclosed

/-- A hole is opened in a text, and is read as a piece. -/
def OpenedIn (text : List Char) (part : Piece) : Prop :=
  ∃ before rest, text = before ++ '$' :: '{' :: rest ∧ Outside before ∧ Opened rest part

variable {text before rest : List Char} {part : Piece}

/-! ### What is opened is read -/

/-- A dollar sign before a character that is no mark stands for itself. -/
theorem pieces_lone {c : Char} (differs : c ≠ '$') (unmarked : c ≠ '{') (rest : List Char) :
    pieces ('$' :: c :: rest) = .char '$' :: pieces (c :: rest) := by
  rw [pieces]
  · rintro _ - same
    exact differs (List.cons_eq_cons.mp same).1
  · rintro _ - same
    exact unmarked (List.cons_eq_cons.mp same).1

theorem pieces_hole {name : List Char} (closes : '}' ∉ name) (rest : List Char) :
    pieces ('$' :: '{' :: (name ++ '}' :: rest)) = .hole (.ofList name) :: pieces rest :=
  piecesInHole_append closes [] rest

/-- Without a closing brace the rest of a text is one piece. -/
theorem piecesInHole_of_notMem (closes : '}' ∉ rest) (name : List Char) :
    piecesInHole name rest = [.unclosed] := by
  induction rest generalizing name with
  | nil => rfl
  | cons c rest ih =>
    obtain ⟨differs, closesLater⟩ := List.ne_and_not_mem_of_not_mem_cons closes
    rw [piecesInHole, ih closesLater]
    exact fun same => differs same.symm

/-- **What stands outside holes is read by itself**, whatever is opened after it. -/
theorem Outside.exists_pieces_append (outside : Outside before) (rest : List Char) :
    ∃ parts, pieces (before ++ rest) = parts ++ pieces rest := by
  induction outside with
  | nil => exact ⟨[], rfl⟩
  | @char c _ differs _ ih =>
    obtain ⟨parts, read⟩ := ih
    refine ⟨.char c :: parts, ?_⟩
    rw [List.cons_append, pieces_cons_of_ne differs, read, List.cons_append]
  | doubled _ ih =>
    obtain ⟨parts, read⟩ := ih
    exact ⟨.char '$' :: parts, congrArg (Piece.char '$' :: ·) read⟩
  | lone differs unmarked _ ih =>
    obtain ⟨parts, read⟩ := ih
    refine ⟨.char '$' :: parts, ?_⟩
    rw [List.cons_append] at read ⊢
    rw [List.cons_append, pieces_lone differs unmarked, read, List.cons_append]
  | @hole name _ closes _ ih =>
    obtain ⟨parts, read⟩ := ih
    refine ⟨.hole (.ofList name) :: parts, ?_⟩
    rw [List.cons_append, List.cons_append, List.append_assoc, List.cons_append,
      pieces_hole closes, read, List.cons_append]

theorem Opened.mem_pieces (opened : Opened rest part) : part ∈ pieces ('$' :: '{' :: rest) := by
  cases opened with
  | closed closes =>
    rw [pieces_hole closes]
    exact List.mem_cons_self
  | never closes =>
    show .unclosed ∈ piecesInHole [] rest
    rw [piecesInHole_of_notMem closes]
    exact List.mem_singleton_self _

/-! ### What is read is opened -/

/-- A hole that is opened later in a text than a character. -/
theorem OpenedIn.cons {c : Char} (first : ∀ rest, c = '$' → text ≠ '$' :: rest)
    (second : ∀ rest, c = '$' → text ≠ '{' :: rest) (opened : OpenedIn text part) :
    OpenedIn (c :: text) part := by
  obtain ⟨before, rest, rfl, outside, opened⟩ := opened
  by_cases isDollar : c = '$'
  · subst isDollar
    cases before with
    | nil => exact absurd rfl (first _ rfl)
    | cons next before =>
      have differs : next ≠ '$' := fun same => first _ rfl (by rw [same]; rfl)
      have unmarked : next ≠ '{' := fun same => second _ rfl (by rw [same]; rfl)
      exact ⟨_, rest, rfl, .lone differs unmarked outside, opened⟩
  · exact ⟨c :: before, rest, rfl, .char isDollar outside, opened⟩

/-- What is read of a text, other than characters, is opened in it.  The induction is that of
reading, where inside a hole the beginning of its name has been read already. -/
theorem openedIn_of_mem (noChar : ∀ c, part ≠ .char c) (found : part ∈ pieces text) :
    OpenedIn text part := by
  revert found
  refine pieces.induct (fun text => part ∈ pieces text → OpenedIn text part)
    (fun name rest => '}' ∉ name → part ∈ piecesInHole name rest →
      OpenedIn ('$' :: '{' :: (name.reverse ++ rest)) part)
    ?nil ?doubled ?opening ?char ?never ?closing ?inside text
  case nil => exact nofun
  case doubled =>
    intro rest ih found
    have foundLater := (List.mem_cons.mp found).resolve_left (noChar '$')
    obtain ⟨before, rest, rfl, outside, opened⟩ := ih foundLater
    exact ⟨_, rest, rfl, .doubled outside, opened⟩
  case opening =>
    intro rest ih found
    exact ih List.not_mem_nil found
  case char =>
    intro c rest first second ih found
    rw [pieces] at found
    · exact (ih ((List.mem_cons.mp found).resolve_left (noChar c))).cons first second
    · exact first
    · exact second
  case never =>
    intro name closes found
    obtain rfl := List.mem_singleton.mp found
    refine ⟨[], name.reverse ++ [], rfl, .nil, .never ?_⟩
    rwa [List.append_nil, List.mem_reverse]
  case closing =>
    intro name rest ih closes found
    have closes : '}' ∉ name.reverse := by rwa [List.mem_reverse]
    rw [piecesInHole] at found
    rcases List.mem_cons.mp found with rfl | foundLater
    · exact ⟨[], _, rfl, .nil, .closed closes⟩
    · obtain ⟨before, rest, rfl, outside, opened⟩ := ih foundLater
      exact ⟨_, rest, by simp, .hole closes outside, opened⟩
  case inside =>
    intro name c rest differs ih closes found
    rw [piecesInHole] at found
    · have further := ih (List.not_mem_cons_of_ne_of_not_mem (Ne.symm differs) closes) found
      rwa [List.reverse_cons, List.append_assoc] at further
    · exact differs

/-- **The holes of a text are those that are opened in it**, closed or not. -/
theorem mem_pieces_iff_openedIn (noChar : ∀ c, part ≠ .char c) :
    part ∈ pieces text ↔ OpenedIn text part := by
  constructor
  · exact openedIn_of_mem noChar
  · rintro ⟨before, rest, rfl, outside, opened⟩
    obtain ⟨parts, read⟩ := outside.exists_pieces_append ('$' :: '{' :: rest)
    rw [read]
    exact List.mem_append_right parts opened.mem_pieces

theorem hole_mem_pieces_iff {name : String} :
    .hole name ∈ pieces text ↔ OpenedIn text (.hole name) :=
  mem_pieces_iff_openedIn fun _ => nofun

theorem unclosed_mem_pieces_iff : .unclosed ∈ pieces text ↔ OpenedIn text .unclosed :=
  mem_pieces_iff_openedIn fun _ => nofun

end ConfigBinding.Placeholder
