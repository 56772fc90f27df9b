import ConfigBinding.Decoder
import ConfigBinding.Proofs.Text.Splitting
import ConfigBinding.Proofs.Text.Trimming
import Mathlib.Data.List.Forall2

/-!
# List literals

Which items a literal has as a list, said without splitting and trimming: the literal lists them,
with commas between them and blanks wherever they do no harm.  Items that have no comma and no blank
at an end are got back from every literal that lists them, with one exception: the empty text alone,
which is listed by the literals that list nothing.

## Main Definitions

* `ListItem` — a text that can be an item
* `Lists` — a literal lists items

## Main Statements

* `Text.Padded.map_trim_splitAtChar` — blanks around a text make no difference to its items
* `readItems_trim_eq_iff` — the items that are read are those that are listed
* `Decoder.decode_list_inverts_joining` — the same for decoding, and for items that are joined again

## Design Notes

The ends of a literal are trimmed before it is split, and the ends of every piece after that.
Blanks at the ends of a literal are blanks around its outer pieces, so trimming the whole is only
needed to tell a literal without items from one with an empty item.
-/

namespace ConfigBinding

open Text

/-! ### Pieces with blanks around them -/

namespace Text

variable {text inner after : List Char} {pieces padded : List (List Char)} {c : Char}

theorem map_trim_of_forall₂ (aligned : List.Forall₂ Padded pieces padded) :
    padded.map trim = pieces.map trim := by
  induction aligned with
  | nil => rfl
  | cons first _ ih => rw [List.map_cons, List.map_cons, first.trim_eq, ih]

theorem ne_nil_of_forall₂ (aligned : List.Forall₂ Padded pieces padded) (nonempty : pieces ≠ []) :
    padded ≠ [] := by
  rintro rfl
  exact nonempty (List.forall₂_nil_right_iff.mp aligned)

/-- Blanks around pieces bring no other character into them. -/
theorem not_mem_of_forall₂ (solid : isBlank c = false)
    (aligned : List.Forall₂ Padded pieces padded) (apart : ∀ piece ∈ pieces, c ∉ piece) :
    ∀ piece ∈ padded, c ∉ piece := by
  induction aligned with
  | nil => exact List.forall_mem_nil _
  | cons first _ ih =>
    obtain ⟨here, later⟩ := List.forall_mem_cons.mp apart
    exact List.forall_mem_cons.mpr ⟨fun found => here ((first.mem_iff solid).mp found), ih later⟩

/-- **Blanks around joined pieces are blanks around the outer ones of them.**  In the induction only
the first piece has blanks before it, and only the last one has blanks after it. -/
theorem exists_forall₂_of_blank (c : Char) (nonempty : pieces ≠ []) (blankAfter : Blank after)
    {before : List Char} (blankBefore : Blank before) :
    ∃ padded, List.Forall₂ Padded pieces padded ∧
      before ++ [c].intercalate pieces ++ after = [c].intercalate padded := by
  induction pieces generalizing before with
  | nil => exact absurd rfl nonempty
  | cons piece others ih =>
    by_cases alone : others = []
    · subst alone
      exact ⟨[before ++ piece ++ after],
        .cons ⟨before, after, blankBefore, blankAfter, rfl⟩ .nil, by simp⟩
    · obtain ⟨paddedOthers, aligned, joined⟩ := ih alone blank_nil
      refine ⟨(before ++ piece) :: paddedOthers, .cons (blankBefore.padded_left piece) aligned, ?_⟩
      rw [List.intercalate_cons_of_ne_nil alone,
        List.intercalate_cons_of_ne_nil (ne_nil_of_forall₂ aligned alone), ← joined]
      simp

theorem Padded.exists_forall₂ (nonempty : pieces ≠ [])
    (around : Padded ([c].intercalate pieces) text) :
    ∃ padded, List.Forall₂ Padded pieces padded ∧ text = [c].intercalate padded := by
  obtain ⟨before, after, blankBefore, blankAfter, rfl⟩ := around
  exact exists_forall₂_of_blank c nonempty blankAfter blankBefore

/-- Joined pieces are split into what they were, but for the blanks around them. -/
theorem map_trim_splitAtChar_intercalate (solid : isBlank c = false)
    (aligned : List.Forall₂ Padded pieces padded) (apart : ∀ piece ∈ pieces, c ∉ piece)
    (nonempty : pieces ≠ []) :
    (splitAtChar c ([c].intercalate padded)).map trim = pieces.map trim := by
  rw [splitAtChar_intercalate (not_mem_of_forall₂ solid aligned apart)
    (ne_nil_of_forall₂ aligned nonempty), map_trim_of_forall₂ aligned]

/-- **What is left of the pieces of a text does not depend on blanks around the text**, if it is
split at a character that is no blank. -/
theorem Padded.map_trim_splitAtChar (solid : isBlank c = false) (around : Padded inner text) :
    (splitAtChar c text).map trim = (splitAtChar c inner).map trim := by
  have nonempty := splitAtChar_ne_nil c inner
  rw [← intercalate_splitAtChar c inner] at around
  obtain ⟨padded, aligned, rfl⟩ := around.exists_forall₂ nonempty
  exact map_trim_splitAtChar_intercalate solid aligned
    (fun _ => not_mem_of_mem_splitAtChar) nonempty

end Text

/-! ### Items -/

/-- **A text that can be an item of a list**: it has no comma, and no blank at an end. -/
structure ListItem (item : String) : Prop where
  noComma : ',' ∉ item.toList
  trimmed : Trimmed item.toList

/-- **A literal lists items**: they stand in it in order, with commas between them and any blanks
around the commas and at both ends. -/
def Lists (items : List String) (literal : String) : Prop :=
  ∃ pieces, List.Forall₂ Padded (items.map String.toList) pieces ∧
    Padded ([','].intercalate pieces) literal.toList

variable {items : List String} {literal : String}

/-- Items that are joined by commas are listed. -/
theorem lists_intercalate (items : List String) : Lists items (",".intercalate items) := by
  refine ⟨items.map String.toList, List.forall₂_same.mpr fun _ _ => .refl _, ?_⟩
  rw [String.toList_intercalate]
  exact .refl _

theorem lists_nil_iff : Lists [] literal ↔ Blank literal.toList := by
  rw [← padded_nil_iff]
  constructor
  · rintro ⟨pieces, aligned, around⟩
    obtain rfl := List.forall₂_nil_left_iff.mp aligned
    exact around
  · exact fun blank => ⟨[], .nil, blank⟩

theorem readItems_of_blank {text : List Char} (blank : Blank text) :
    readItems (trim text) = [] := by
  rw [trim_eq_nil_iff.mpr blank]
  rfl

/-- A literal that is not of blanks only is split as it is. -/
theorem readItems_of_not_blank {text : List Char} (solid : ¬ Blank text) :
    readItems (trim text) = ((splitAtChar ',' text).map trim).map .ofList := by
  have something : (trim text).isEmpty = false := by
    rw [List.isEmpty_eq_false_iff]
    exact fun nothing => solid (trim_eq_nil_iff.mp nothing)
  rw [readItems, something, (padded_trim text).map_trim_splitAtChar (by decide), List.map_map]
  rfl

/-- Items are read from every literal that lists them. -/
theorem readItems_trim_of_lists (sound : ∀ item ∈ items, ListItem item)
    (notEmptyAlone : items ≠ [""]) (lists : Lists items literal) :
    readItems (trim literal.toList) = items := by
  by_cases noItems : items = []
  · subst noItems
    exact readItems_of_blank (lists_nil_iff.mp lists)
  obtain ⟨pieces, aligned, around⟩ := lists
  have left : (splitAtChar ',' literal.toList).map trim = items.map String.toList := by
    have apart : ∀ piece ∈ items.map String.toList, ',' ∉ piece :=
      List.forall_mem_map.mpr fun item listed => (sound item listed).noComma
    calc (splitAtChar ',' literal.toList).map trim
        = (splitAtChar ',' ([','].intercalate pieces)).map trim :=
          around.map_trim_splitAtChar (by decide)
      _ = (items.map String.toList).map trim :=
          map_trim_splitAtChar_intercalate (by decide) aligned apart (by simpa using noItems)
      _ = items.map String.toList := by
          rw [List.map_map]
          exact List.map_congr_left fun item listed => (sound item listed).trimmed.trim_eq
  have solid : ¬ Blank literal.toList := by
    -- a literal of blanks has one piece, of which nothing is left
    intro blank
    rw [(padded_nil_iff.mpr blank).map_trim_splitAtChar (by decide)] at left
    obtain ⟨item, rfl, nothing⟩ := List.map_eq_singleton_iff.mp left.symm
    rw [String.toList_eq_nil_iff.mp nothing] at notEmptyAlone
    exact notEmptyAlone rfl
  rw [readItems_of_not_blank solid, left]
  simp

/-- What is read can be an item. -/
theorem listItem_of_mem_readItems {item : String}
    (read : item ∈ readItems (trim literal.toList)) : ListItem item := by
  by_cases blank : Blank literal.toList
  · rw [readItems_of_blank blank] at read
    exact absurd read List.not_mem_nil
  · rw [readItems_of_not_blank blank, List.map_map] at read
    obtain ⟨piece, listed, rfl⟩ := List.mem_map.mp read
    have apart := not_mem_of_mem_splitAtChar listed
    refine ⟨?_, ?_⟩ <;> rw [Function.comp_apply, String.toList_ofList]
    · exact fun found => apart (((padded_trim piece).mem_iff (by decide)).mpr found)
    · exact trimmed_trim piece

/-- The empty text is never read alone. -/
theorem readItems_trim_ne (literal : String) : readItems (trim literal.toList) ≠ [""] := by
  by_cases blank : Blank literal.toList
  · rw [readItems_of_blank blank]
    exact (List.cons_ne_nil _ _).symm
  · rw [readItems_of_not_blank blank, List.map_map]
    intro alone
    obtain ⟨piece, whole, nothing⟩ := List.map_eq_singleton_iff.mp alone
    have same := intercalate_splitAtChar ',' literal.toList
    rw [whole, List.intercalate_singleton] at same
    apply blank
    rw [← trim_eq_nil_iff, ← same, ← String.toList_ofList (l := trim piece)]
    exact congrArg String.toList nothing

/-- What is read is listed. -/
theorem lists_readItems (literal : String) : Lists (readItems (trim literal.toList)) literal := by
  by_cases blank : Blank literal.toList
  · rw [readItems_of_blank blank]
    exact lists_nil_iff.mpr blank
  · rw [readItems_of_not_blank blank]
    refine ⟨splitAtChar ',' literal.toList, ?_, ?_⟩
    · rw [List.map_map, List.map_map, List.forall₂_map_left_iff, List.forall₂_same]
      intro piece _
      simp only [Function.comp_apply, String.toList_ofList]
      exact padded_trim piece
    · rw [intercalate_splitAtChar]

/-- **The items that are read are those that are listed**, if they can be items and are not the
empty text alone. -/
theorem readItems_trim_eq_iff : readItems (trim literal.toList) = items ↔
    (∀ item ∈ items, ListItem item) ∧ items ≠ [""] ∧ Lists items literal := by
  constructor
  · rintro rfl
    exact ⟨fun _ => listItem_of_mem_readItems, readItems_trim_ne literal, lists_readItems literal⟩
  · exact fun ⟨sound, notEmptyAlone, lists⟩ => readItems_trim_of_lists sound notEmptyAlone lists

namespace Decoder

/-- Decoding a list reads its items. -/
theorem decode_list_eq (literal : String) :
    standard.decode .list literal = .ok (.array ((readItems (trim literal.toList)).map .string)) :=
  rfl

theorem decode_list_eq_iff : standard.decode .list literal = .ok (.array (items.map .string)) ↔
    readItems (trim literal.toList) = items := by
  have apart : Function.Injective Value.string := fun _ _ => Value.string.inj
  rw [decode_list_eq, Except.ok.injEq, Value.array.injEq, apart.list_map.eq_iff]

/-- **Decoding a list is the inverse of joining items by commas.**  A literal is decoded as a list
of items exactly if they have no comma and no blank at an end, are not the empty text alone, and are
listed by the literal, with any blanks around the commas and at both ends.  And every literal has
items, without commas and without blanks at an end; joined by commas they are decoded again. -/
theorem decode_list_inverts_joining :
    (∀ (items : List String) (literal : String),
      standard.decode .list literal = .ok (.array (items.map .string)) ↔
        (∀ item ∈ items, ListItem item) ∧ items ≠ [""] ∧ Lists items literal) ∧
    ∀ literal, ∃ items : List String,
      standard.decode .list literal = .ok (.array (items.map .string)) ∧
        (∀ item ∈ items, ListItem item) ∧
        standard.decode .list (",".intercalate items) = .ok (.array (items.map .string)) := by
  refine ⟨fun items literal => decode_list_eq_iff.trans readItems_trim_eq_iff, fun literal => ?_⟩
  have sound : ∀ item ∈ readItems (trim literal.toList), ListItem item :=
    fun _ => listItem_of_mem_readItems
  have again := readItems_trim_of_lists sound (readItems_trim_ne literal) (lists_intercalate _)
  exact ⟨_, decode_list_eq literal, sound, decode_list_eq_iff.mpr again⟩

/-- A wide blank is a blank, and between two commas there is an empty item. -/
example : standard.decode .list " a ,\u2003, b c" =
    .ok (.array [.string "a", .string "", .string "b c"]) := rfl

end Decoder

end ConfigBinding
