/-!
# The calendar

Dates of the proleptic Gregorian calendar and their distance in days from the first of January
1970. A year is counted from March here, so that a leap day ends it; four hundred years are one
cycle of 146097 days.

## Main definitions

* `Calendar.dayNumber`: the number of a date.
* `Calendar.dateOfDay`: the date of a number.
-/

namespace NodeFeatureOperator

/-- A date by year, month and day. -/
structure Date where
  year : Int
  month : Int
  day : Int
deriving DecidableEq, Repr, Inhabited

namespace Calendar

/-- Whether a year has a leap day. -/
def isLeap (year : Int) : Bool := year % 4 == 0 && (year % 100 != 0 || year % 400 == 0)

/-- The number of days of a month. -/
def daysInMonth (year month : Int) : Int :=
  if month = 2 then (if isLeap year then 29 else 28)
  else if month = 4 ∨ month = 6 ∨ month = 9 ∨ month = 11 then 30
  else 31

/-- The years for which dates are kept. -/
def inRange (year : Int) : Bool := -262143 ≤ year ∧ year ≤ 262142

/-- Whether a date exists and its year is kept. -/
def isValid (d : Date) : Bool :=
  inRange d.year ∧ 1 ≤ d.month ∧ d.month ≤ 12 ∧ 1 ≤ d.day ∧ d.day ≤ daysInMonth d.year d.month

/-- The days from the first of January 1970 to a date. -/
def dayNumber (d : Date) : Int :=
  let year := if d.month ≤ 2 then d.year - 1 else d.year
  let cycle := year / 400
  let yearOfCycle := year - cycle * 400
  let month := if d.month ≤ 2 then d.month + 9 else d.month - 3
  let dayOfYear := (153 * month + 2) / 5 + d.day - 1
  let dayOfCycle := yearOfCycle * 365 + yearOfCycle / 4 - yearOfCycle / 100 + dayOfYear
  cycle * 146097 + dayOfCycle - 719468

/-- The date a number of days after the first of January 1970. -/
def dateOfDay (number : Int) : Date :=
  let shifted := number + 719468
  let cycle := shifted / 146097
  let dayOfCycle := shifted - cycle * 146097
  let yearOfCycle :=
    (dayOfCycle - dayOfCycle / 1460 + dayOfCycle / 36524 - dayOfCycle / 146096) / 365
  let dayOfYear := dayOfCycle - (365 * yearOfCycle + yearOfCycle / 4 - yearOfCycle / 100)
  let month := (5 * dayOfYear + 2) / 153
  let day := dayOfYear - (153 * month + 2) / 5 + 1
  let civilMonth := if month < 10 then month + 3 else month - 9
  let year := yearOfCycle + cycle * 400
  ⟨if civilMonth ≤ 2 then year + 1 else year, civilMonth, day⟩

end Calendar

end NodeFeatureOperator
