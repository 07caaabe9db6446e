/-!
# Calendar dates

A date is a day of the proleptic Gregorian calendar, counted from the first day of the year 0.

* `LintDebt.Date`: a day within the years that can be represented.
* `LintDebt.Date.ofYmd?`: the date with a given year, month and day.
* `LintDebt.Date.ymd`: the year, month and day of a date.
* `LintDebt.Date.addDays?`: the date some days later, when it can be represented.
-/

namespace LintDebt

namespace Calendar

/-- How many days lie between the first day of the year 0 and the first day of a year. -/
def daysBeforeYear (year : Int) : Int :=
  365 * year + (year + 3) / 4 - (year + 99) / 100 + (year + 399) / 400

/-- Whether a year has a 29th of February. -/
def isLeap (year : Int) : Bool :=
  year % 4 == 0 && (year % 100 != 0 || year % 400 == 0)

/-- The lengths of the twelve months. -/
def monthLengths (leap : Bool) : List Nat :=
  [31, if leap then 29 else 28, 31, 30, 31, 30, 31, 31, 30, 31, 30, 31]

/-- The length of a month counted from 1, if there is such a month. -/
def monthLength? (leap : Bool) (month : Nat) : Option Nat :=
  if month = 0 then none else (monthLengths leap)[month - 1]?

/-- How many days of the year come before a month counted from 1. -/
def daysBeforeMonth (leap : Bool) (month : Nat) : Nat :=
  ((monthLengths leap).take (month - 1)).foldr (· + ·) 0

/-- The year that holds a day: a day's share of the 400-year cycle names the year or a neighbour
of it. -/
def yearOf (day : Int) : Int :=
  let guess := day * 400 / 146097
  if day < daysBeforeYear guess then guess - 1
  else if daysBeforeYear (guess + 1) ≤ day then guess + 1
  else guess

/-- The month, counted from 1, and the day in it, counted from 1, that a day of the year falls on;
`month` is the number of the first month that is left. -/
def monthAndDay (dayOfYear month : Nat) : List Nat → Nat × Nat
  | [] => (month, dayOfYear + 1)
  | length :: rest =>
    if dayOfYear < length then (month, dayOfYear + 1)
    else monthAndDay (dayOfYear - length) (month + 1) rest

/-- The first day that a date can denote: the first of January of the year -262143. -/
def firstDay : Int := daysBeforeYear (-262143)

/-- The last day that a date can denote: the last of December of the year 262142. -/
def lastDay : Int := daysBeforeYear 262143 - 1

end Calendar

open Calendar

/-- A day of the calendar, counted from the first day of the year 0. -/
structure Date where
  /-- How many days lie between the first day of the year 0 and this one. -/
  day : Int
  /-- The day lies within the years that can be represented. -/
  inRange : firstDay ≤ day ∧ day ≤ lastDay
  deriving DecidableEq, Repr

namespace Date

/-- The date of a day, when it can be represented. -/
def ofDay? (day : Int) : Option Date :=
  if h : firstDay ≤ day ∧ day ≤ lastDay then some ⟨day, h⟩ else none

/-- The date with a given year, month and day, when there is one that can be represented. -/
def ofYmd? (year : Int) (month day : Nat) : Option Date := do
  let length ← monthLength? (isLeap year) month
  if day = 0 ∨ length < day then none
  else ofDay? (daysBeforeYear year + daysBeforeMonth (isLeap year) month + (day - 1))

/-- The year, the month and the day of a date. -/
def ymd (d : Date) : Int × Nat × Nat :=
  let year := yearOf d.day
  let (month, day) :=
    monthAndDay (d.day - daysBeforeYear year).toNat 1 (monthLengths (isLeap year))
  (year, month, day)

/-- The date some days later, when it can be represented. -/
def addDays? (d : Date) (days : Nat) : Option Date :=
  ofDay? (d.day + days)

/-- Whether a date is not later than another. -/
def le (a b : Date) : Bool :=
  decide (a.day ≤ b.day)

@[ext] theorem ext {a b : Date} (h : a.day = b.day) : a = b := by
  cases a; cases b; cases h; rfl

theorem ofDay?_day (d : Date) : ofDay? d.day = some d := by
  simp [ofDay?, d.inRange]

/-- A later date lies exactly the given number of days later. -/
theorem day_of_addDays? {d e : Date} {days : Nat} (h : d.addDays? days = some e) :
    e.day = d.day + days := by
  unfold addDays? ofDay? at h
  split at h
  · cases h; rfl
  · cases h

end Date

end LintDebt
