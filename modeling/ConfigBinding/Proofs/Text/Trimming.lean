import ConfigBinding.Text.Blank
import Mathlib.Data.List.DropRight

/-!
# Blanks at the ends of a text

What trimming gives, said without trimming: the text is what is left with blanks around it, and what
is left has no blank at an end.

## Main Definitions

* `Text.Blank` — a text of blanks
* `Text.Trimmed` — a text with no blank at an end
* `Text.Padded` — a text with blanks around it

## Main Statements

* `Text.trim_eq_iff` — what trimming gives
* `Text.Padded.trim_eq` — blanks around a text make no difference to it

## Design Notes

Nothing is said about the blanks inside a text.  The empty text is both trimmed and blank, so a text
of blanks is the empty text with blanks around it, in more ways than one.
-/

namespace ConfigBinding.Text

/-- A text of blanks. -/
def Blank (text : List Char) : Prop :=
  ∀ c ∈ text, isBlank c = true

/-- **A text with no blank at an end.** -/
structure Trimmed (text : List Char) : Prop where
  first : ∀ c ∈ text.head?, isBlank c = false
  last : ∀ c ∈ text.getLast?, isBlank c = false

/-- **A text with blanks around it**, or with none. -/
def Padded (inner text : List Char) : Prop :=
  ∃ before after, Blank before ∧ Blank after ∧ text = before ++ inner ++ after

variable {text inner outer before after : List Char}

/-! ### Blanks and padding -/

theorem blank_nil : Blank [] :=
  List.forall_mem_nil _

theorem Blank.append (blank : Blank before) (blankToo : Blank after) : Blank (before ++ after) :=
  List.forall_mem_append.mpr ⟨blank, blankToo⟩

/-- Blanks are those around the empty text. -/
theorem padded_nil_iff : Padded [] text ↔ Blank text := by
  constructor
  · rintro ⟨before, after, blank, blankToo, rfl⟩
    rw [List.append_nil]
    exact blank.append blankToo
  · exact fun blank => ⟨text, [], blank, blank_nil, by simp⟩

@[refl] theorem Padded.refl (text : List Char) : Padded text text :=
  ⟨[], [], blank_nil, blank_nil, by simp⟩

theorem Blank.padded_left (blank : Blank before) (text : List Char) :
    Padded text (before ++ text) :=
  ⟨before, [], blank, blank_nil, by simp⟩

theorem Blank.padded_right (blank : Blank after) (text : List Char) :
    Padded text (text ++ after) :=
  ⟨[], after, blank_nil, blank, by simp⟩

theorem Padded.trans (within : Padded inner text) (further : Padded text outer) :
    Padded inner outer := by
  obtain ⟨before, after, blankBefore, blankAfter, rfl⟩ := within
  obtain ⟨before', after', blankBefore', blankAfter', rfl⟩ := further
  exact ⟨before' ++ before, after ++ after', blankBefore'.append blankBefore,
    blankAfter.append blankAfter', by simp⟩

/-- A character that is no blank stands in a text if it stands in the text without blanks around
it. -/
theorem Padded.mem_iff {c : Char} (solid : isBlank c = false) (padded : Padded inner text) :
    c ∈ text ↔ c ∈ inner := by
  obtain ⟨before, after, blankBefore, blankAfter, rfl⟩ := padded
  have notBefore : c ∉ before := fun found => by simp [blankBefore c found] at solid
  have notAfter : c ∉ after := fun found => by simp [blankAfter c found] at solid
  simp [notBefore, notAfter]

/-! ### Trimming -/

theorem trimStart_append (blank : Blank before) (first : ∀ c ∈ text.head?, isBlank c = false) :
    trimStart (before ++ text) = text := by
  rw [trimStart, List.dropWhile_append_of_pos blank]
  cases text with
  | nil => rfl
  | cons c rest => exact List.dropWhile_cons_of_neg (by simp [first c rfl])

theorem trimEnd_append (blank : Blank after) (last : ∀ c ∈ text.getLast?, isBlank c = false) :
    trimEnd (text ++ after) = text := by
  have first : ∀ c ∈ text.reverse.head?, isBlank c = false := by
    rwa [List.head?_reverse]
  have blankBack : Blank after.reverse := fun c found => blank c (List.mem_reverse.mp found)
  have cut : trimStart (after.reverse ++ text.reverse) = text.reverse :=
    trimStart_append blankBack first
  rw [trimEnd, List.reverse_append, ← trimStart, cut, List.reverse_reverse]

/-- Blanks around a text with no blank at an end are cut from it. -/
theorem trim_of_padded (trimmed : Trimmed inner) (padded : Padded inner text) :
    trim text = inner := by
  obtain ⟨before, after, blankBefore, blankAfter, rfl⟩ := padded
  by_cases empty : inner = []
  · subst empty
    -- there is nothing between the blanks that would stop the cutting from the start
    have nothing : trimStart (before ++ [] ++ after) = [] := by
      rw [List.append_nil, trimStart, List.dropWhile_eq_nil_iff]
      exact blankBefore.append blankAfter
    rw [trim, nothing]
    rfl
  · have first : ∀ c ∈ (inner ++ after).head?, isBlank c = false := by
      rw [List.head?_append_of_ne_nil _ empty]
      exact trimmed.first
    rw [List.append_assoc, trim, trimStart_append blankBefore first,
      trimEnd_append blankAfter trimmed.last]

/-- What is cut by trimming are blanks around what is left. -/
theorem padded_trim (text : List Char) : Padded (trim text) text := by
  have fromStart : Padded (trimStart text) text := by
    have cut : Blank (text.takeWhile isBlank) := fun c => List.mem_takeWhile_imp
    have whole := cut.padded_left (trimStart text)
    rwa [trimStart, List.takeWhile_append_dropWhile] at whole
  have fromEnd : Padded (trim text) (trimStart text) := by
    have cut : Blank ((trimStart text).reverse.takeWhile isBlank).reverse :=
      fun c found => List.mem_takeWhile_imp (List.mem_reverse.mp found)
    have whole := cut.padded_right (trim text)
    rwa [trim, trimEnd, ← List.reverse_append, List.takeWhile_append_dropWhile,
      List.reverse_reverse] at whole
  exact fromEnd.trans fromStart

/-- Once it is trimmed from the start, a text does not begin with a blank. -/
theorem isBlank_of_head?_trimStart {c : Char} (begins : c ∈ (trimStart text).head?) :
    isBlank c = false := by
  have solid := List.head?_dropWhile_not isBlank text
  rw [← trimStart, Option.mem_def.mp begins] at solid
  exact solid

/-- What is left by trimming has no blank at an end. -/
theorem trimmed_trim (text : List Char) : Trimmed (trim text) where
  first c begins := by
    -- trimming from the end leaves a beginning of what trimming from the start has left
    have beginning : trim text <+: trimStart text := List.rdropWhile_prefix isBlank _
    obtain ⟨cut, whole⟩ := beginning
    have begins : c ∈ (trimStart text).head? := by
      rw [← whole, List.head?_append, Option.mem_def.mp begins, Option.some_or]
      rfl
    exact isBlank_of_head?_trimStart begins
  last c ends := by
    rw [trim, trimEnd, List.getLast?_reverse] at ends
    exact isBlank_of_head?_trimStart ends

/-- **What trimming gives**: that which has no blank at an end and of which the text is made by
blanks around it. -/
theorem trim_eq_iff : trim text = inner ↔ Trimmed inner ∧ Padded inner text := by
  constructor
  · rintro rfl
    exact ⟨trimmed_trim text, padded_trim text⟩
  · exact fun ⟨trimmed, padded⟩ => trim_of_padded trimmed padded

/-- **Blanks around a text make no difference** to what is left of it. -/
theorem Padded.trim_eq (padded : Padded inner text) : trim text = trim inner :=
  trim_of_padded (trimmed_trim inner) ((padded_trim inner).trans padded)

theorem trim_eq_nil_iff : trim text = [] ↔ Blank text := by
  rw [trim_eq_iff, padded_nil_iff]
  exact and_iff_right ⟨by simp, by simp⟩

theorem Trimmed.trim_eq (trimmed : Trimmed text) : trim text = text :=
  trim_of_padded trimmed (Padded.refl text)

end ConfigBinding.Text
