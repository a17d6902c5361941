-- SUMMARY: Gregorian dates, times of day and distances from universal time, as types that hold only values that exist.
/-!
# Calendar

Dates of the Gregorian calendar between the years 1 and 9999, times of day in
microseconds, and distances from universal time. Each type holds only values
that exist.
-/

namespace SmsRelay

def isLeapYear (year : Nat) : Bool :=
  year % 4 = 0 && (year % 100 ≠ 0 || year % 400 = 0)

def daysInMonth (year month : Nat) : Nat :=
  if month = 2 then if isLeapYear year then 29 else 28
  else if month = 4 ∨ month = 6 ∨ month = 9 ∨ month = 11 then 30
  else 31

theorem daysInMonth_le (year month : Nat) : daysInMonth year month ≤ 31 := by
  unfold daysInMonth
  split
  · split <;> omega
  · split <;> omega

-- ---------------------------------------------------------------------------
-- Dates
-- ---------------------------------------------------------------------------

/-- A day of the calendar. -/
structure Date where
  year : Nat
  month : Nat
  day : Nat
  valid : 1 ≤ year ∧ year ≤ 9999 ∧ 1 ≤ month ∧ month ≤ 12 ∧ 1 ≤ day ∧ day ≤ daysInMonth year month
  deriving DecidableEq

namespace Date

/-- The date with these numbers, if there is one. -/
def of? (year month day : Nat) : Option Date :=
  if h : 1 ≤ year ∧ year ≤ 9999 ∧ 1 ≤ month ∧ month ≤ 12 ∧ 1 ≤ day ∧ day ≤ daysInMonth year month then
    some ⟨year, month, day, h⟩
  else none

@[simp] theorem of?_fields (d : Date) : of? d.year d.month d.day = some d := by
  simp [of?, d.valid]

/-- Days of the calendar before the first of January. -/
def daysBeforeYear (year : Nat) : Nat :=
  let y := year - 1
  y * 365 + y / 4 - y / 100 + y / 400

/-- The weekday of the first of January, Monday being 0. The first day of year 1 is a Monday. -/
def firstWeekday (year : Nat) : Nat := daysBeforeYear year % 7

/-- Whether the numbered weeks of a year are 53: it starts on a Thursday, or on a Wednesday and
is a leap year. -/
def hasLongWeekYear (year : Nat) : Bool :=
  firstWeekday year = 3 || (firstWeekday year = 2 && isLeapYear year)

/-- The date `n` days after the last of the month before. -/
def ofDayOfMonth? (year month : Nat) : (fuel : Nat) → (n : Nat) → Option Date
  | 0, _ => none
  | fuel + 1, n =>
    if n ≤ daysInMonth year month then of? year month n
    else if month = 12 then ofDayOfMonth? (year + 1) 1 fuel (n - 31)
    else ofDayOfMonth? year (month + 1) fuel (n - daysInMonth year month)

/-- The date `n` days after the first of January of a year. -/
def ofDayOfYears? : (fuel : Nat) → (year n : Nat) → Option Date
  | 0, _, _ => none
  | fuel + 1, year, n =>
    let length := if isLeapYear year then 366 else 365
    if n < length then ofDayOfMonth? year 1 12 (n + 1) else ofDayOfYears? fuel (year + 1) (n - length)

/-- The date `n` days after the first day of year 1. The calendar repeats every 400 years. -/
def ofDayNumber? (n : Nat) : Option Date :=
  ofDayOfYears? 401 (1 + n / 146097 * 400) (n % 146097)

/-- The day of a numbered week. Week 1 is the first with a Thursday in the year; it may start in
the year before, the last may end in the year after. -/
def ofWeek? (year week day : Nat) : Option Date :=
  if year = 0 ∨ week = 0 ∨ 53 < week ∨ (week = 53 ∧ !hasLongWeekYear year) ∨ day = 0 ∨ 7 < day then none
  else
    let w := firstWeekday year
    -- days from the first of January to the Monday of week 1, moved by a week to stay positive
    let start := if 3 < w then 14 - w else 7 - w
    let n := start + (week - 1) * 7 + day
    if 7 < n then ofDayOfMonth? year 1 14 (n - 7)
    else of? (year - 1) 12 (24 + n)

end Date

-- ---------------------------------------------------------------------------
-- Times of day
-- ---------------------------------------------------------------------------

/-- A time of day. -/
structure Time where
  hour : Nat
  minute : Nat
  second : Nat
  micro : Nat
  valid : hour < 24 ∧ minute < 60 ∧ second < 60 ∧ micro < 1000000
  deriving DecidableEq

namespace Time

/-- The time with these numbers, if there is one. -/
def of? (hour minute second micro : Nat) : Option Time :=
  if h : hour < 24 ∧ minute < 60 ∧ second < 60 ∧ micro < 1000000 then
    some ⟨hour, minute, second, micro, h⟩
  else none

@[simp] theorem of?_fields (t : Time) : of? t.hour t.minute t.second t.micro = some t := by
  simp [of?, t.valid]

/-- The start of a day. -/
def midnight : Time := ⟨0, 0, 0, 0, by decide⟩

end Time

-- ---------------------------------------------------------------------------
-- Distances from universal time
-- ---------------------------------------------------------------------------

/-- The microseconds of a day. -/
def dayMicros : Nat := 86400 * 1000000

/-- How far local time is ahead of universal time: less than a day either way. -/
structure Offset where
  behind : Bool
  micros : Nat
  valid : micros < dayMicros ∧ (micros = 0 → behind = false)
  deriving DecidableEq

namespace Offset

/-- Universal time itself. -/
def zero : Offset := ⟨false, 0, by decide⟩

/-- The offset of so many microseconds, if it is less than a day. -/
def of? (behind : Bool) (micros : Nat) : Option Offset :=
  if h : micros < dayMicros then some ⟨behind && micros ≠ 0, micros, h, by simp_all⟩ else none

@[simp] theorem of?_fields (o : Offset) : of? o.behind o.micros = some o := by
  obtain ⟨behind, micros, lt, eq⟩ := o
  have h : (behind && micros ≠ 0) = behind := by
    by_cases hz : micros = 0
    · simp [hz, eq hz]
    · simp [hz]
  simp [of?, lt] at h ⊢
  exact h

end Offset

end SmsRelay
