import NodeFeatureOperator.Power
import NodeFeatureOperator.Time.Calendar

/-!
# Points in time

A point in time and its RFC 3339 text, written in UTC.

## Main definitions

* `Time.text`: the text with the fewest of no, three, six or nine places that are exact.
* `Time.wholeSeconds`: the text with the fraction cut off.
-/

namespace NodeFeatureOperator

/-- A point in time: seconds since the start of 1970 in UTC, and nanoseconds within the second.
Nanoseconds from `10 ^ 9` on lie in a leap second that follows it. -/
structure Time where
  seconds : Int
  nanoseconds : Nat
deriving DecidableEq, Repr, Inhabited

namespace Time

/-- A number with at least `width` digits. -/
def padded (width n : Nat) : List Char :=
  let digits := (toString n).toList
  List.replicate (width - digits.length) '0' ++ digits

/-- A year: four digits, with a sign where four do not suffice. -/
def yearChars (year : Int) : List Char :=
  if 0 ≤ year ∧ year ≤ 9999 then padded 4 year.toNat
  else (if year < 0 then '-' else '+') :: padded 4 year.natAbs

/-- Date and time of day to the second. -/
def secondChars (t : Time) : List Char :=
  let date := Calendar.dateOfDay (t.seconds / 86400)
  let ofDay := (t.seconds % 86400).toNat
  let second := ofDay % 60 + (if tenTo 9 ≤ t.nanoseconds then 1 else 0)
  yearChars date.year ++ '-' :: padded 2 date.month.toNat ++ '-' :: padded 2 date.day.toNat ++
    'T' :: padded 2 (ofDay / 3600) ++ ':' :: padded 2 (ofDay / 60 % 60) ++ ':' :: padded 2 second

/-- The places of the fraction of a second. -/
def fractionChars (nanoseconds : Nat) : List Char :=
  let n := nanoseconds % tenTo 9
  if n = 0 then []
  else if n % tenTo 6 = 0 then '.' :: padded 3 (n / tenTo 6)
  else if n % tenTo 3 = 0 then '.' :: padded 6 (n / tenTo 3)
  else '.' :: padded 9 n

/-- The text of a point in time. -/
def text (t : Time) : String :=
  String.ofList (t.secondChars ++ fractionChars t.nanoseconds ++ ['Z'])

/-- The text of a point in time without its fraction. -/
def wholeSeconds (t : Time) : String := String.ofList (t.secondChars ++ ['Z'])

end Time

end NodeFeatureOperator
