import ConfigBinding.Text.Split
import Mathlib.Data.List.Basic
import Mathlib.Data.List.Infix

/-!
# Splitting and joining

A text that is split at a separator is got back by joining the pieces, also where occurrences of the
separator overlap.

## Main Statements

* `Text.intercalate_splitAtText` — the pieces, joined by the separator, are the text
* `Text.not_infix_of_mem_splitAtText` — no piece has the separator in it
* `Text.splitAtChar_eq_splitOn` — splitting at a character is splitting a list at an element
* `Text.splitAtChar_intercalate` — joined pieces are got back

## Design Notes

Splitting passes over the tail of an occurrence before it looks for the next one.  What it is at in
between is the text without as many characters as are left to be passed over, and the statements
about `splitAfter` are about that text.
-/

namespace ConfigBinding.Text

variable {separator text piece : List Char} {pieces : List (List Char)}

/-! ### The first piece -/

theorem consFirst_ne_nil (c : Char) (pieces : List (List Char)) : consFirst c pieces ≠ [] := by
  cases pieces <;> exact List.cons_ne_nil _ _

/-- Splitting at a character gives at least one piece. -/
theorem splitAtChar_ne_nil (separator : Char) (text : List Char) :
    splitAtChar separator text ≠ [] := by
  fun_cases splitAtChar separator text with
  | case1 => exact List.cons_ne_nil _ _
  | case2 => exact List.cons_ne_nil _ _
  | case3 c rest => exact consFirst_ne_nil c _

theorem splitAfter_ne_nil (separator : List Char) (skip : Nat) (text : List Char) :
    splitAfter separator skip text ≠ [] := by
  fun_induction splitAfter separator skip text with
  | case1 => exact List.cons_ne_nil _ _
  | case2 _ _ _ ih => exact ih
  | case3 => exact List.cons_ne_nil _ _
  | case4 c rest => exact consFirst_ne_nil c _

/-- A character in front of the first piece stands in front of the joined text. -/
theorem intercalate_consFirst (c : Char) (nonempty : pieces ≠ []) :
    separator.intercalate (consFirst c pieces) = c :: separator.intercalate pieces := by
  obtain ⟨piece, others, rfl⟩ := List.exists_cons_of_ne_nil nonempty
  cases others with
  | nil => rfl
  | cons next others => simp only [consFirst, List.intercalate_cons_cons, List.cons_append]

/-- The first piece stands at the beginning of the joined text. -/
theorem isPrefix_intercalate_cons (separator piece : List Char) (pieces : List (List Char)) :
    piece <+: separator.intercalate (piece :: pieces) := by
  cases pieces with
  | nil => rw [List.intercalate_singleton]
  | cons next others =>
    rw [List.intercalate_cons_cons, List.append_assoc]
    exact List.prefix_append _ _

/-! ### Joining the pieces -/

/-- Where an occurrence of the separator begins, what follows its first character is its tail and
the text behind. -/
theorem append_drop_of_isPrefix (nonempty : separator ≠ []) {c : Char} {rest : List Char}
    (here : separator <+: c :: rest) :
    separator ++ rest.drop (separator.length - 1) = c :: rest := by
  obtain ⟨first, tail, rfl⟩ := List.exists_cons_of_ne_nil nonempty
  obtain ⟨rfl, behind, rfl⟩ := List.cons_prefix_cons.mp here
  simp

theorem intercalate_splitAfter (nonempty : separator ≠ []) (skip : Nat) (text : List Char) :
    separator.intercalate (splitAfter separator skip text) = text.drop skip := by
  fun_induction splitAfter separator skip text with
  | case1 => simp
  | case2 _ _ _ ih => rw [ih, List.drop_succ_cons]
  | case3 c rest here ih =>
    rw [List.intercalate_cons_of_ne_nil (splitAfter_ne_nil _ _ _), List.nil_append, ih]
    exact append_drop_of_isPrefix nonempty (List.isPrefixOf_iff_prefix.mp here)
  | case4 c rest _ ih => rw [intercalate_consFirst c (splitAfter_ne_nil _ _ _), ih]; rfl

/-- **The pieces of a text, joined by the separator, are the text.** -/
theorem intercalate_splitAtText (nonempty : separator ≠ []) (text : List Char) :
    separator.intercalate (splitAtText separator text) = text :=
  intercalate_splitAfter nonempty 0 text

/-- Joining pieces that are texts of their own. -/
theorem intercalate_map_ofList (separator : String) (pieces : List (List Char)) :
    separator.intercalate (pieces.map .ofList) =
      .ofList (separator.toList.intercalate pieces) := by
  have unwrapped : String.toList ∘ String.ofList = id := by
    funext piece
    exact String.toList_ofList
  rw [← String.toList_inj, String.toList_intercalate, List.map_map, unwrapped, List.map_id,
    String.toList_ofList]

/-! ### What is in a piece -/

/-- The first piece is where the rest of the text begins, so that no occurrence of the separator
that begins with a character in front of it is within the piece. -/
theorem not_infix_cons_of_not_isPrefix {c : Char} {rest : List Char}
    (elsewhere : ¬ separator <+: c :: rest) (isPrefix : piece <+: rest)
    (apart : ¬ separator <:+: piece) : ¬ separator <:+: c :: piece := by
  rw [List.infix_cons_iff]
  rintro (here | within)
  · exact elsewhere (here.trans (List.cons_prefix_cons.mpr ⟨rfl, isPrefix⟩))
  · exact apart within

theorem not_infix_of_mem_splitAfter (nonempty : separator ≠ []) (skip : Nat) (text : List Char) :
    ∀ piece ∈ splitAfter separator skip text, ¬ separator <:+: piece := by
  have apartFromNil : ¬ separator <:+: [] := fun within => nonempty (List.infix_nil.mp within)
  fun_induction splitAfter separator skip text with
  | case1 => exact List.forall_mem_singleton.mpr apartFromNil
  | case2 _ _ _ ih => exact ih
  | case3 c rest _ ih => exact List.forall_mem_cons.mpr ⟨apartFromNil, ih⟩
  | case4 c rest elsewhere ih =>
    have joined := intercalate_splitAfter nonempty 0 rest
    obtain ⟨first, others, split⟩ :=
      List.exists_cons_of_ne_nil (splitAfter_ne_nil separator 0 rest)
    rw [split] at ih joined ⊢
    obtain ⟨apart, apartOthers⟩ := List.forall_mem_cons.mp ih
    have begins : first <+: rest := by
      rw [← List.drop_zero (l := rest), ← joined]
      exact isPrefix_intercalate_cons separator first others
    rw [List.isPrefixOf_iff_prefix] at elsewhere
    exact List.forall_mem_cons.mpr
      ⟨not_infix_cons_of_not_isPrefix elsewhere begins apart, apartOthers⟩

/-- **No piece of a text has the separator in it.** -/
theorem not_infix_of_mem_splitAtText (nonempty : separator ≠ [])
    (listed : piece ∈ splitAtText separator text) : ¬ separator <:+: piece :=
  not_infix_of_mem_splitAfter nonempty 0 text piece listed

/-! ### Splitting at a character -/

theorem consFirst_eq_modifyHead (c : Char) (nonempty : pieces ≠ []) :
    consFirst c pieces = pieces.modifyHead (c :: ·) := by
  obtain ⟨piece, others, rfl⟩ := List.exists_cons_of_ne_nil nonempty
  rfl

/-- Splitting at a character is splitting a list at an element. -/
theorem splitAtChar_eq_splitOn (c : Char) (text : List Char) :
    splitAtChar c text = text.splitOn c := by
  induction text with
  | nil => rfl
  | cons first rest ih =>
    rw [splitAtChar, List.splitOn_cons_eq_if_modifyHead, consFirst_eq_modifyHead first
      (splitAtChar_ne_nil c rest), ih]
    simp only [beq_iff_eq]

/-- The pieces of a text, joined by the character, are the text. -/
theorem intercalate_splitAtChar (c : Char) (text : List Char) :
    [c].intercalate (splitAtChar c text) = text := by
  rw [splitAtChar_eq_splitOn, List.intercalate_splitOn]

/-- **Pieces that are joined by a character are got back**, if the character is in none of them.  A
text has at least one piece. -/
theorem splitAtChar_intercalate {c : Char} (apart : ∀ piece ∈ pieces, c ∉ piece)
    (nonempty : pieces ≠ []) : splitAtChar c ([c].intercalate pieces) = pieces := by
  rw [splitAtChar_eq_splitOn, List.splitOn_intercalate c apart nonempty]

/-- No piece of a text has the character in it. -/
theorem not_mem_of_mem_splitAtChar {c : Char} (listed : piece ∈ splitAtChar c text) :
    c ∉ piece := by
  fun_induction splitAtChar c text generalizing piece with
  | case1 =>
    obtain rfl := List.mem_singleton.mp listed
    exact List.not_mem_nil
  | case2 rest ih =>
    rcases List.mem_cons.mp listed with rfl | later
    · exact List.not_mem_nil
    · exact ih later
  | case3 first rest differs ih =>
    obtain ⟨second, others, split⟩ := List.exists_cons_of_ne_nil (splitAtChar_ne_nil c rest)
    rw [split] at ih listed
    rcases List.mem_cons.mp listed with rfl | later
    · exact List.not_mem_cons_of_ne_of_not_mem (Ne.symm differs) (ih List.mem_cons_self)
    · exact ih (List.mem_cons_of_mem _ later)

end ConfigBinding.Text
