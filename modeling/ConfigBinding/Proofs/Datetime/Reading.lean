import ConfigBinding.Datetime
import ConfigBinding.Proofs.Decimal.Reading

/-!
# Datetimes that are read back

The text of a datetime is read as the datetime, if it is one of those that can be read at all: its
day is on the calendar, its time on the clock, and every number has the digits that its place has.

## Main Definitions

* `Datetime.WellFormed` — the datetimes that can be read

## Main Statements

* `Datetime.read?_text` — a well-formed datetime is read back from its text
* `Datetime.wellFormed_of_take?` — nothing else is read
* `Datetime.isBlank_of_mem_text` — the text of a datetime has no blanks

## Design Notes

Each part is read in front of whatever follows it.  Only a fraction has no fixed length: it ends
where the digits end, and so nothing that begins with a digit may follow a time.
-/

namespace ConfigBinding

open Decimal Text

/-! ### Numbers of a fixed width -/

section Padding

variable {width n : Nat}

theorem isDigit_of_mem_paddedDigits {c : Char} (found : c ∈ paddedDigits width n) :
    isDigit c = true := by
  rcases List.mem_append.mp found with zero | digit
  · rw [List.eq_of_mem_replicate zero]
    decide
  · exact isDigit_of_mem_natDigits digit

theorem digitsValue_paddedDigits : digitsValue (paddedDigits width n) = n := by
  have zeros := @Nat.ofDigitChars_replicate_zero 10 0 (width - (natDigits n).length)
  have appended := @Nat.ofDigitChars_append 10
    (List.replicate (width - (natDigits n).length) '0') (natDigits n) 0
  rw [zeros, Nat.mul_zero] at appended
  exact appended.trans (digitsValue_natDigits n)

theorem length_paddedDigits (positive : 0 < width) (below : n < Nat.pow 10 width) :
    (paddedDigits width n).length = width := by
  have fits : (natDigits n).length ≤ width :=
    (Nat.length_toDigits_le_iff (by decide) positive).mpr below
  rw [paddedDigits, List.length_append, List.length_replicate]
  omega

/-- **A number of its width** is read in front of anything. -/
theorem takeNumber?_paddedDigits (positive : 0 < width) (below : n < Nat.pow 10 width)
    (rest : List Char) : takeNumber? width (paddedDigits width n ++ rest) = some (n, rest) := by
  have length := length_paddedDigits positive below
  have digits : (paddedDigits width n).all isDigit = true :=
    List.all_eq_true.mpr fun _ => isDigit_of_mem_paddedDigits
  rw [takeNumber?, List.take_left' length, List.drop_left' length]
  simp [length, digits, digitsValue_paddedDigits]

end Padding

theorem takeChar?_self (c : Char) (rest : List Char) : takeChar? c (c :: rest) = some rest := by
  rw [takeChar?, if_pos rfl]

/-! ### Fractions -/

/-- A text in front of which a time ends: it begins neither with a digit nor with a point. -/
def EndsTime : List Char → Prop
  | [] => True
  | c :: _ => isDigit c = false ∧ c ≠ '.'

theorem takeWhile_isDigit_append {digits rest : List Char} (all : ∀ c ∈ digits, isDigit c = true)
    (ends : EndsTime rest) :
    (digits ++ rest).takeWhile isDigit = digits ∧ (digits ++ rest).dropWhile isDigit = rest := by
  rw [List.takeWhile_append_of_pos all, List.dropWhile_append_of_pos all]
  cases rest with
  | nil => simp
  | cons c rest => simp [ends.1]

variable {nanosecond : Nat}

/-- A fraction with the zeros that it leaves out is as wide as its place. -/
theorem exists_fractionDigits_append (nanosecond : Nat) :
    ∃ left, fractionDigits nanosecond ++ List.replicate left '0' = paddedDigits 9 nanosecond := by
  have zeros : ∀ c ∈ (paddedDigits 9 nanosecond).reverse.takeWhile (· == '0'), c = '0' := by
    intro c found
    simpa using List.all_eq_true.mp List.all_takeWhile c found
  refine ⟨((paddedDigits 9 nanosecond).reverse.takeWhile (· == '0')).length, ?_⟩
  rw [← List.reverse_replicate, ← List.eq_replicate_of_mem zeros, fractionDigits,
    ← List.reverse_append, List.takeWhile_append_dropWhile, List.reverse_reverse]

/-- The zeros that a fraction leaves out are put back when it is read. -/
theorem fractionDigits_filled (below : nanosecond < 1000000000) :
    (fractionDigits nanosecond ++ List.replicate 9 '0').take 9 = paddedDigits 9 nanosecond := by
  obtain ⟨left, whole⟩ := exists_fractionDigits_append nanosecond
  have length : (paddedDigits 9 nanosecond).length = 9 := length_paddedDigits (by decide) below
  rw [← whole, List.length_append, List.length_replicate] at length
  have missing : min (9 - (fractionDigits nanosecond).length) 9 = left := by omega
  rw [List.take_append, List.take_of_length_le (by omega), List.take_replicate, missing, whole]

theorem isDigit_of_mem_fractionDigits {c : Char} (found : c ∈ fractionDigits nanosecond) :
    isDigit c = true := by
  have kept := (List.dropWhile_sublist _).mem (List.mem_reverse.mp found)
  exact isDigit_of_mem_paddedDigits (List.mem_reverse.mp kept)

theorem fractionDigits_ne_nil (positive : nanosecond ≠ 0) (below : nanosecond < 1000000000) :
    fractionDigits nanosecond ≠ [] := by
  intro none
  have filled := fractionDigits_filled below
  rw [none, List.nil_append, List.take_replicate] at filled
  have value : digitsValue (paddedDigits 9 nanosecond) = nanosecond := digitsValue_paddedDigits
  rw [← filled] at value
  exact positive (value.symm.trans rfl)

/-- **A fraction** is read, if there is one, in front of what ends a time. -/
theorem takeFraction?_append (below : nanosecond < 1000000000) {rest : List Char}
    (ends : EndsTime rest) :
    takeFraction?
        ((if nanosecond = 0 then [] else '.' :: fractionDigits nanosecond) ++ rest) =
      some (nanosecond, rest) := by
  by_cases whole : nanosecond = 0
  · rw [if_pos whole, List.nil_append, takeFraction?, whole]
    rintro more rfl
    exact ends.2 rfl
  · have full : (fractionDigits nanosecond).isEmpty = false :=
      List.isEmpty_eq_false_iff.mpr (fractionDigits_ne_nil whole below)
    have digits : ∀ c ∈ fractionDigits nanosecond, isDigit c = true :=
      fun _ => isDigit_of_mem_fractionDigits
    obtain ⟨taken, dropped⟩ := takeWhile_isDigit_append digits ends
    rw [if_neg whole, List.cons_append, takeFraction?, taken, dropped]
    simp only [full, fractionDigits_filled below, digitsValue_paddedDigits, Bool.false_eq_true,
      if_false]

/-! ### Dates, times and offsets -/

/-- The day is on the calendar, and its year has four digits. -/
def Date.WellFormed (d : Date) : Prop :=
  d.onCalendar = true ∧ d.year < 10000

/-- The time is on the clock, and its fraction is less than a second. -/
def Time.WellFormed (t : Time) : Prop :=
  t.onClock = true ∧ t.nanosecond < 1000000000

/-- The offset is less than a day. -/
def Offset.WellFormed : Offset → Prop
  | .universal => True
  | .minutes ahead => ahead.natAbs < 24 * 60

/-- **The datetimes that can be read.** -/
def Datetime.WellFormed : Datetime → Prop
  | .date d => d.WellFormed
  | .time t => t.WellFormed
  | .moment d t offset => d.WellFormed ∧ t.WellFormed ∧ ∀ o ∈ offset, o.WellFormed

/-- **A date** is read in front of anything. -/
theorem Date.take?_chars {d : Date} (wellFormed : d.WellFormed) (rest : List Char) :
    Date.take? (d.chars ++ rest) = some (d, rest) := by
  obtain ⟨onCalendar, year⟩ := wellFormed
  have checked := onCalendar
  simp only [Date.onCalendar, Bool.and_eq_true, decide_eq_true_eq] at checked
  obtain ⟨⟨⟨-, month⟩, -⟩, day⟩ := checked
  have days : daysInMonth d.year d.month ≤ 31 := by
    unfold daysInMonth
    split
    · split <;> omega
    · split <;> omega
  have width : Nat.pow 10 2 = 100 := rfl
  have year' : d.year < Nat.pow 10 4 := year
  have month' : d.month < Nat.pow 10 2 := by omega
  have day' : d.day < Nat.pow 10 2 := by omega
  simp [Date.take?, Date.chars, takeNumber?_paddedDigits, takeChar?_self, year', month', day',
    onCalendar]

/-- **A time** is read in front of what ends it. -/
theorem Time.take?_chars {t : Time} (wellFormed : t.WellFormed) {rest : List Char}
    (ends : EndsTime rest) : Time.take? (t.chars ++ rest) = some (t, rest) := by
  obtain ⟨onClock, below⟩ := wellFormed
  have checked := onClock
  simp only [Time.onClock, Bool.and_eq_true, decide_eq_true_eq] at checked
  obtain ⟨⟨hour, minute⟩, second⟩ := checked
  have width : Nat.pow 10 2 = 100 := rfl
  have hour' : t.hour < Nat.pow 10 2 := by omega
  have minute' : t.minute < Nat.pow 10 2 := by omega
  have second' : t.second < Nat.pow 10 2 := by omega
  have fraction := takeFraction?_append below ends
  simp [Time.take?, Time.chars, takeNumber?_paddedDigits, takeChar?_self, hour', minute', second',
    fraction, onClock]

/-- The hours and minutes of an offset are read as its distance. -/
theorem takeDistance?_append {distance : Nat} (below : distance < 24 * 60) (rest : List Char) :
    takeDistance?
        (paddedDigits 2 (distance / 60) ++ ':' :: paddedDigits 2 (distance % 60) ++ rest) =
      some (distance, rest) := by
  have width : Nat.pow 10 2 = 100 := rfl
  have hours : distance / 60 < Nat.pow 10 2 := by omega
  have minutes : distance % 60 < Nat.pow 10 2 := by omega
  have inDay : distance / 60 ≤ 23 ∧ distance % 60 ≤ 59 := by omega
  have total : 60 * (distance / 60) + distance % 60 = distance := Nat.div_add_mod distance 60
  simp [takeDistance?, takeNumber?_paddedDigits, takeChar?_self, hours, minutes, inDay, total]

/-- **An offset** is read, if there is one. -/
theorem Offset.take?_chars {offset : Option Offset} (wellFormed : ∀ o ∈ offset, o.WellFormed) :
    Offset.take? ((offset.map Offset.chars).getD []) = some (offset, []) := by
  rcases offset with - | (- | ahead)
  · rfl
  · rfl
  · have below : ahead.natAbs < 24 * 60 := wellFormed _ rfl
    have distance := takeDistance?_append below []
    rw [List.append_nil] at distance
    by_cases behind : ahead < 0
    · have signed : -(ahead.natAbs : Int) = ahead := by omega
      simp only [Option.map_some, Option.getD_some, Offset.chars, if_pos behind, List.cons_append,
        Offset.take?, distance, signed]
    · have signed : (ahead.natAbs : Int) = ahead := by omega
      simp only [Option.map_some, Option.getD_some, Offset.chars, if_neg behind, List.cons_append,
        Offset.take?, distance, signed]

theorem endsTime_offset (offset : Option Offset) :
    EndsTime ((offset.map Offset.chars).getD []) := by
  rcases offset with - | (- | ahead)
  · exact trivial
  · exact ⟨by decide, by decide⟩
  · show isDigit (if ahead < 0 then '-' else '+') = false ∧ (if ahead < 0 then '-' else '+') ≠ '.'
    split <;> decide

/-! ### Datetimes -/

/-- A time is not taken for a date: it has a colon where a year has its third digit. -/
theorem Date.take?_time {t : Time} (wellFormed : t.WellFormed) (rest : List Char) :
    Date.take? (t.chars ++ rest) = none := by
  have onClock := wellFormed.1
  simp only [Time.onClock, Bool.and_eq_true, decide_eq_true_eq] at onClock
  have width : Nat.pow 10 2 = 100 := rfl
  have length : (paddedDigits 2 t.hour).length = 2 := length_paddedDigits (by decide) (by omega)
  have colon : ':' ∈ (t.chars ++ rest).take 4 := by
    simp [Time.chars, List.take_append, length]
  have notYear : takeNumber? 4 (t.chars ++ rest) = none := by
    have notDigits : ((t.chars ++ rest).take 4).all isDigit = false :=
      List.all_eq_false.mpr ⟨':', colon, by decide⟩
    simp [takeNumber?, notDigits]
  simp [Date.take?, notYear]

namespace Datetime

/-- **A well-formed datetime is read back from its text.** -/
theorem read?_text {moment : Datetime} (wellFormed : moment.WellFormed) :
    read? moment.text.toList = some moment := by
  cases moment with
  | date d =>
    have taken := Date.take?_chars wellFormed []
    rw [List.append_nil] at taken
    rw [text, String.toList_ofList, read?, take?, taken]
    rfl
  | time t =>
    have notDate := Date.take?_time wellFormed []
    have ends : EndsTime [] := trivial
    have taken := Time.take?_chars wellFormed ends
    rw [List.append_nil] at taken notDate
    rw [text, String.toList_ofList, read?, take?, notDate, taken]
    rfl
  | moment d t offset =>
    obtain ⟨onDay, inDay, apart⟩ := wellFormed
    have ofDate : takeTimeOfDate? ('T' :: t.chars ++ (offset.map Offset.chars).getD []) =
        some (t, offset, []) := by
      simp [takeTimeOfDate?, Time.take?_chars inDay (endsTime_offset offset),
        Offset.take?_chars apart]
    rw [text, String.toList_ofList, List.append_assoc, read?, take?, Date.take?_chars onDay]
    simp only [ofDate]

end Datetime

/-! ### What is read -/

theorem lt_of_takeNumber? {width n : Nat} {text rest : List Char}
    (taken : takeNumber? width text = some (n, rest)) : n < Nat.pow 10 width := by
  simp only [takeNumber?, Option.ite_none_right_eq_some, Bool.and_eq_true, decide_eq_true_eq,
    Option.some.injEq, Prod.mk.injEq] at taken
  obtain ⟨⟨length, digits⟩, rfl, -⟩ := taken
  have bound := digitsValue_lt (List.all_eq_true.mp digits)
  rwa [length] at bound

theorem lt_of_takeFraction? {n : Nat} {text rest : List Char}
    (taken : takeFraction? text = some (n, rest)) : n < 1000000000 := by
  unfold takeFraction? at taken
  split at taken
  · next more =>
    simp only [Option.ite_none_left_eq_some, Option.some.injEq, Prod.mk.injEq] at taken
    obtain ⟨-, rfl, -⟩ := taken
    have digits : ∀ c ∈ (more.takeWhile isDigit ++ List.replicate 9 '0').take 9,
        isDigit c = true := by
      intro c found
      rcases List.mem_append.mp (List.mem_of_mem_take found) with digit | zero
      · exact List.all_eq_true.mp List.all_takeWhile c digit
      · rw [List.eq_of_mem_replicate zero]
        decide
    have bound := digitsValue_lt digits
    rwa [List.length_take_of_le (by simp)] at bound
  · cases taken
    decide

theorem Date.wellFormed_of_take? {d : Date} {text rest : List Char}
    (taken : Date.take? text = some (d, rest)) : d.WellFormed := by
  simp only [Date.take?, Option.bind_eq_bind, Option.bind_eq_some_iff, Prod.exists] at taken
  obtain ⟨year, _, hasYear, _, -, month, _, -, _, -, day, _, -, checked⟩ := taken
  split at checked
  · next onCalendar =>
    cases checked
    exact ⟨onCalendar, lt_of_takeNumber? hasYear⟩
  · cases checked

theorem Time.wellFormed_of_take? {t : Time} {text rest : List Char}
    (taken : Time.take? text = some (t, rest)) : t.WellFormed := by
  simp only [Time.take?, Option.bind_eq_bind, Option.bind_eq_some_iff, Prod.exists] at taken
  obtain ⟨hour, _, -, _, -, minute, _, -, _, -, second, _, -, nanosecond, _, hasFraction,
    checked⟩ := taken
  split at checked
  · next onClock =>
    cases checked
    exact ⟨onClock, lt_of_takeFraction? hasFraction⟩
  · cases checked

theorem lt_of_takeDistance? {n : Nat} {text rest : List Char}
    (taken : takeDistance? text = some (n, rest)) : n < 24 * 60 := by
  simp only [takeDistance?, Option.bind_eq_bind, Option.bind_eq_some_iff, Prod.exists] at taken
  obtain ⟨hours, _, -, _, -, minutes, _, -, checked⟩ := taken
  split at checked
  · next inDay =>
    cases checked
    rw [Bool.and_eq_true, decide_eq_true_eq, decide_eq_true_eq] at inDay
    omega
  · cases checked

theorem Offset.wellFormed_of_take? {offset : Option Offset} {text rest : List Char}
    (taken : Offset.take? text = some (offset, rest)) : ∀ o ∈ offset, o.WellFormed := by
  unfold Offset.take? at taken
  split at taken
  · cases taken
    rintro _ ⟨⟩
    exact trivial
  · cases taken
    rintro _ ⟨⟩
    exact trivial
  · obtain ⟨⟨n, more⟩, distance, same⟩ := Option.map_eq_some_iff.mp taken
    cases same
    rintro _ ⟨⟩
    have bound := lt_of_takeDistance? distance
    show (n : Int).natAbs < 24 * 60
    omega
  · obtain ⟨⟨n, more⟩, distance, same⟩ := Option.map_eq_some_iff.mp taken
    cases same
    rintro _ ⟨⟩
    have bound := lt_of_takeDistance? distance
    show (-(n : Int)).natAbs < 24 * 60
    omega
  · cases taken
    rintro _ ⟨⟩

theorem wellFormed_of_takeTimeOfDate? {t : Time} {offset : Option Offset} {text rest : List Char}
    (taken : takeTimeOfDate? text = some (t, offset, rest)) :
    t.WellFormed ∧ ∀ o ∈ offset, o.WellFormed := by
  unfold takeTimeOfDate? at taken
  split at taken
  case h_4 => cases taken
  -- the same is read after each of the three characters that may follow a date
  all_goals
    simp only [Option.bind_eq_bind, Option.bind_eq_some_iff, Prod.exists, Option.some.injEq,
      Prod.mk.injEq] at taken
    obtain ⟨_, _, inDay, _, _, apart, rfl, rfl, -⟩ := taken
    exact ⟨Time.wellFormed_of_take? inDay, Offset.wellFormed_of_take? apart⟩

namespace Datetime

/-- **Nothing but well-formed datetimes is read.** -/
theorem wellFormed_of_take? {moment : Datetime} {text rest : List Char}
    (taken : take? text = some (moment, rest)) : moment.WellFormed := by
  unfold take? at taken
  split at taken
  · next onDay =>
    split at taken
    · next ofDate =>
      cases taken
      exact ⟨Date.wellFormed_of_take? onDay, wellFormed_of_takeTimeOfDate? ofDate⟩
    · cases taken
      exact Date.wellFormed_of_take? onDay
  · obtain ⟨⟨t, more⟩, inDay, same⟩ := Option.map_eq_some_iff.mp taken
    cases same
    exact Time.wellFormed_of_take? inDay

theorem wellFormed_of_read? {moment : Datetime} {text : List Char}
    (read : read? text = some moment) : moment.WellFormed := by
  unfold read? at read
  split at read
  · next taken =>
    cases read
    exact wellFormed_of_take? taken
  · cases read

/-- **The datetimes that are read back from their text** are the well-formed ones. -/
theorem read?_text_iff {moment : Datetime} :
    read? moment.text.toList = some moment ↔ moment.WellFormed :=
  ⟨wellFormed_of_read?, read?_text⟩

end Datetime

/-! ### Blanks -/

theorem isBlank_of_mem_paddedDigits {width n : Nat} :
    ∀ c ∈ paddedDigits width n, isBlank c = false :=
  fun _ found => isBlank_of_isDigit (isDigit_of_mem_paddedDigits found)

theorem Date.isBlank_of_mem_chars (d : Date) : ∀ c ∈ d.chars, isBlank c = false := by
  simp only [Date.chars, List.forall_mem_append, List.forall_mem_cons]
  exact ⟨⟨isBlank_of_mem_paddedDigits, by decide, isBlank_of_mem_paddedDigits⟩, by decide,
    isBlank_of_mem_paddedDigits⟩

theorem Time.isBlank_of_mem_chars (t : Time) : ∀ c ∈ t.chars, isBlank c = false := by
  simp only [Time.chars, List.forall_mem_append, List.forall_mem_cons]
  refine ⟨⟨⟨isBlank_of_mem_paddedDigits, by decide, isBlank_of_mem_paddedDigits⟩, by decide,
    isBlank_of_mem_paddedDigits⟩, ?_⟩
  by_cases whole : t.nanosecond = 0
  · simp [whole]
  · rw [if_neg whole, List.forall_mem_cons]
    exact ⟨by decide, fun _ found => isBlank_of_isDigit (isDigit_of_mem_fractionDigits found)⟩

theorem Offset.isBlank_of_mem_chars (offset : Offset) :
    ∀ c ∈ offset.chars, isBlank c = false := by
  cases offset with
  | universal =>
    rw [Offset.chars, List.forall_mem_singleton]
    decide
  | minutes ahead =>
    simp only [Offset.chars, List.cons_append, List.forall_mem_append, List.forall_mem_cons]
    refine ⟨?_, isBlank_of_mem_paddedDigits, by decide, isBlank_of_mem_paddedDigits⟩
    split <;> decide

/-- **The text of a datetime has no blanks**, well-formed or not. -/
theorem Datetime.isBlank_of_mem_text (moment : Datetime) :
    ∀ c ∈ moment.text.toList, isBlank c = false := by
  cases moment with
  | date d =>
    rw [text, String.toList_ofList]
    exact d.isBlank_of_mem_chars
  | time t =>
    rw [text, String.toList_ofList]
    exact t.isBlank_of_mem_chars
  | moment d t offset =>
    rw [text, String.toList_ofList]
    simp only [List.forall_mem_append, List.forall_mem_cons]
    refine ⟨⟨d.isBlank_of_mem_chars, by decide, t.isBlank_of_mem_chars⟩, ?_⟩
    cases offset with
    | none => nofun
    | some o => exact o.isBlank_of_mem_chars

end ConfigBinding
