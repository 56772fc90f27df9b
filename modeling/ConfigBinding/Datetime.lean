import ConfigBinding.Decimal.Digits

/-!
# Dates and times

Calendar dates, times of day and their combinations, with the one text form that is written and
the slightly wider forms that are read.

## Main Definitions

* `Date`, `Time`, `Offset` — the parts
* `Datetime` — a date, a time of day, or both with an optional offset
* `Datetime.text` — the written form
* `Datetime.take?`, `Datetime.read?` — the form at the start of a text, and a text in that form

## Design Notes

Reading checks what a calendar checks: months, days of the month with leap years, hours, minutes,
and seconds with room for a leap second. Writing assumes nothing of its argument.
-/

namespace ConfigBinding

open Decimal

/-- A day of the calendar. -/
structure Date where
  year : Nat
  month : Nat
  day : Nat
  deriving DecidableEq

/-- A time of day. -/
structure Time where
  hour : Nat
  minute : Nat
  second : Nat
  nanosecond : Nat
  deriving DecidableEq

/-- A distance from universal time. A distance of zero minutes is written differently from
universal time itself. -/
inductive Offset where
  | universal
  | minutes (ahead : Int)
  deriving DecidableEq

/-- A point in time, as precisely as it was given. -/
inductive Datetime where
  | date (date : Date)
  | time (time : Time)
  | moment (date : Date) (time : Time) (offset : Option Offset)
  deriving DecidableEq

/-! ### Writing -/

/-- A number with zeros in front up to the given width. -/
def paddedDigits (width n : Nat) : List Char :=
  let digits := natDigits n
  List.replicate (width - digits.length) '0' ++ digits

/-- `YYYY-MM-DD`. -/
def Date.chars (d : Date) : List Char :=
  paddedDigits 4 d.year ++ '-' :: paddedDigits 2 d.month ++ '-' :: paddedDigits 2 d.day

/-- The decimals of a second, without the zeros at their end. -/
def fractionDigits (nanosecond : Nat) : List Char :=
  ((paddedDigits 9 nanosecond).reverse.dropWhile (· == '0')).reverse

/-- `HH:MM:SS`, with a fraction only if there is one. -/
def Time.chars (t : Time) : List Char :=
  paddedDigits 2 t.hour ++ ':' :: paddedDigits 2 t.minute ++ ':' :: paddedDigits 2 t.second ++
    if t.nanosecond = 0 then [] else '.' :: fractionDigits t.nanosecond

/-- `Z`, or `+HH:MM` and `-HH:MM`. -/
def Offset.chars : Offset → List Char
  | .universal => ['Z']
  | .minutes ahead =>
    let distance := ahead.natAbs
    (if ahead < 0 then '-' else '+') ::
      paddedDigits 2 (distance / 60) ++ ':' :: paddedDigits 2 (distance % 60)

/-- The written form: date and time joined by `T`, the offset after the time. -/
def Datetime.text : Datetime → String
  | .date d => .ofList d.chars
  | .time t => .ofList t.chars
  | .moment d t offset =>
    .ofList (d.chars ++ 'T' :: t.chars ++ (offset.map Offset.chars).getD [])

/-! ### Reading -/

/-- A number of exactly `width` digits at the start of a text. -/
def takeNumber? (width : Nat) (text : List Char) : Option (Nat × List Char) :=
  let digits := text.take width
  if digits.length = width && digits.all isDigit then
    some (digitsValue digits, text.drop width)
  else none

/-- A given character at the start of a text. -/
def takeChar? (c : Char) : List Char → Option (List Char)
  | [] => none
  | first :: rest => if first = c then some rest else none

/-- Whether a year has a twenty-ninth of February. -/
def isLeapYear (year : Nat) : Bool :=
  year % 4 == 0 && (year % 100 != 0 || year % 400 == 0)

/-- The number of days of a month. -/
def daysInMonth (year month : Nat) : Nat :=
  if month = 2 then if isLeapYear year then 29 else 28
  else if month = 4 || month = 6 || month = 9 || month = 11 then 30
  else 31

/-- Whether the day is on the calendar. -/
def Date.onCalendar (d : Date) : Bool :=
  1 ≤ d.month && d.month ≤ 12 && 1 ≤ d.day && d.day ≤ daysInMonth d.year d.month

/-- Whether the time is on the clock; the sixtieth second is a leap second. -/
def Time.onClock (t : Time) : Bool :=
  t.hour ≤ 23 && t.minute ≤ 59 && t.second ≤ 60

/-- A date at the start of a text. -/
def Date.take? (text : List Char) : Option (Date × List Char) := do
  let (year, text) ← takeNumber? 4 text
  let text ← takeChar? '-' text
  let (month, text) ← takeNumber? 2 text
  let text ← takeChar? '-' text
  let (day, text) ← takeNumber? 2 text
  let date : Date := ⟨year, month, day⟩
  if date.onCalendar then some (date, text) else none

/-- The fraction of a second at the start of a text, if it opens with a point. Digits after the
ninth are dropped. -/
def takeFraction? : List Char → Option (Nat × List Char)
  | '.' :: text =>
    let digits := text.takeWhile isDigit
    if digits.isEmpty then none
    else
      let nine := (digits ++ List.replicate 9 '0').take 9
      some (digitsValue nine, text.dropWhile isDigit)
  | text => some (0, text)

/-- A time of day at the start of a text. Seconds are not optional. -/
def Time.take? (text : List Char) : Option (Time × List Char) := do
  let (hour, text) ← takeNumber? 2 text
  let text ← takeChar? ':' text
  let (minute, text) ← takeNumber? 2 text
  let text ← takeChar? ':' text
  let (second, text) ← takeNumber? 2 text
  let (nanosecond, text) ← takeFraction? text
  let time : Time := ⟨hour, minute, second, nanosecond⟩
  if time.onClock then some (time, text) else none

/-- The hours and minutes of an offset at the start of a text. -/
def takeDistance? (text : List Char) : Option (Nat × List Char) := do
  let (hours, text) ← takeNumber? 2 text
  let text ← takeChar? ':' text
  let (minutes, text) ← takeNumber? 2 text
  if hours ≤ 23 && minutes ≤ 59 then some (60 * hours + minutes, text) else none

/-- The offset at the start of a text. A text that opens with neither `Z` nor a sign has none. -/
def Offset.take? : List Char → Option (Option Offset × List Char)
  | 'Z' :: text | 'z' :: text => some (some .universal, text)
  | '+' :: text => (takeDistance? text).map fun (n, rest) => (some (.minutes n), rest)
  | '-' :: text => (takeDistance? text).map fun (n, rest) => (some (.minutes (-n)), rest)
  | text => some (none, text)

/-- The time and offset that follow a date, after a `T` or a blank. -/
def takeTimeOfDate? : List Char → Option (Time × Option Offset × List Char)
  | 'T' :: text | 't' :: text | ' ' :: text => do
    let (time, text) ← Time.take? text
    let (offset, text) ← Offset.take? text
    some (time, offset, text)
  | _ => none

/-- The datetime at the start of a text. A date stands alone if no time can be read after it, and a
time without a date has no offset. -/
def Datetime.take? (text : List Char) : Option (Datetime × List Char) :=
  match Date.take? text with
  | some (d, rest) =>
    match takeTimeOfDate? rest with
    | some (t, offset, rest) => some (.moment d t offset, rest)
    | none => some (.date d, rest)
  | none => (Time.take? text).map fun (t, rest) => (.time t, rest)

/-- A text that is a datetime from its first to its last character. -/
def Datetime.read? (text : List Char) : Option Datetime :=
  match Datetime.take? text with
  | some (datetime, []) => some datetime
  | _ => none

end ConfigBinding
