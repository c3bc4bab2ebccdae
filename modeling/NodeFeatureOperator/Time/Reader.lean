import NodeFeatureOperator.Text.Blank
import NodeFeatureOperator.Time.Basic

/-!
# Reading points in time

A text of RFC 3339 is read with any offset, with a letter of either case or a blank between date and
time, and with blanks around its parts. What keeps a text from being a point in time is noted where
it shows first: a number out of its own range at once, a date that no calendar has only after all
of the text.

## Main definitions

* `Time.Flaw`: what keeps a text from being a point in time.
* `Time.read`: the point in time of a text, or its flaw.
* `Time.ofText?`: the point in time of a text.
-/

namespace NodeFeatureOperator

namespace Time

/-- What keeps a text from being a point in time. -/
inductive Flaw where
  /-- A number does not fit, or no calendar has the date. -/
  | outOfRange
  /-- The point in time lies beyond the years that are kept. -/
  | impossible
  /-- A character stands where it must not. -/
  | invalid
  /-- The text ends within a part or where one is missing. -/
  | tooShort
  /-- Something follows the point in time. -/
  | trailing
deriving DecidableEq, Repr, Inhabited

/-- The text of a flaw. -/
def Flaw.text : Flaw → String
  | .outOfRange => "input is out of range"
  | .impossible => "no possible date and time matching input"
  | .invalid => "input contains invalid characters"
  | .tooShort => "premature end of input"
  | .trailing => "trailing input"

/-- A number of one digit or more, at most `limit` of them. -/
def digits (limit : Nat) (s : List Char) : Except Flaw (Nat × List Char) :=
  let run := (s.takeWhile Char.isDigit).take limit
  if s.isEmpty then .error .tooShort
  else if run.isEmpty then .error .invalid
  else .ok (run.foldl (fun n c => n * 10 + (c.toNat - 48)) 0, s.drop run.length)

/-- A number of at most two digits between `low` and `high`, blanks in front allowed. -/
def numberWithin (low high : Nat) (s : List Char) : Except Flaw (Nat × List Char) := do
  let (n, rest) ← digits 2 (Text.skipSpaces s)
  if low ≤ n ∧ n ≤ high then .ok (n, rest) else .error .outOfRange

/-- A year of up to four digits, or of any number of them after a sign; it fits into 32 bits. -/
def year (s : List Char) : Except Flaw (Int × List Char) :=
  match Text.skipSpaces s with
  | '-' :: rest => do
    let (n, tail) ← digits rest.length rest
    if n ≤ twoTo 31 then .ok (-(n : Int), tail) else .error .outOfRange
  | '+' :: rest => do
    let (n, tail) ← digits rest.length rest
    if n < twoTo 31 then .ok ((n : Int), tail) else .error .outOfRange
  | rest => do
    let (n, tail) ← digits 4 rest
    .ok ((n : Int), tail)

/-- The text after a separator, blanks in front of it allowed. -/
def after (separator : Char) (s : List Char) : Except Flaw (List Char) :=
  match Text.skipSpaces s with
  | c :: rest => if c = separator then .ok rest else .error .invalid
  | [] => .error .tooShort

/-- The nanoseconds of a fraction, if a point stands here; places beyond nine are cut off. -/
def fraction : List Char → Except Flaw (Nat × List Char)
  | '.' :: rest => do
    let (n, tail) ← digits 9 rest
    .ok (n * tenTo (9 - (rest.length - tail.length)), rest.dropWhile Char.isDigit)
  | s => .ok (0, s)

/-- Two digits as a number. -/
def twoDigits : List Char → Except Flaw (Nat × List Char)
  | a :: b :: rest =>
    if a.isDigit ∧ b.isDigit then .ok ((a.toNat - 48) * 10 + (b.toNat - 48), rest)
    else .error .invalid
  | [c] => .error (if c.utf8Size = 1 then .tooShort else .invalid)
  | [] => .error .tooShort

/-- Whether an offset is west of UTC, by its sign. -/
def isWest : Char → Except Flaw Bool
  | '+' => .ok false
  | '-' => .ok true
  | c => if c.toNat = 0x2212 then .ok true else .error .invalid

/-- The seconds east of UTC of an offset: `Z`, `UTC`, or a sign, hours and minutes. -/
def offset (s : List Char) : Except Flaw (Int × List Char) :=
  match s with
  | 'Z' :: rest | 'z' :: rest => .ok (0, rest)
  | sign :: rest =>
    if (s.take 3).map Char.toUpper = ['U', 'T', 'C'] then .ok (0, s.drop 3)
    else do
      let west ← isWest sign
      let (hours, afterHours) ← twoDigits rest
      let (minutes, tail) ←
        twoDigits (afterHours.dropWhile fun c => c = ':' ∨ Text.isSpace c)
      let total : Int := hours * 3600 + minutes * 60
      if minutes < 60 then .ok (if west then -total else total, tail) else .error .outOfRange
  | [] => .error .tooShort

/-- The date at the start of a text. Whether the calendar has it is not asked yet. -/
def date (s : List Char) : Except Flaw (Date × List Char) := do
  let (year, s) ← year s
  let s ← after '-' s
  let (month, s) ← numberWithin 1 12 s
  let s ← after '-' s
  let (day, s) ← numberWithin 1 31 s
  .ok (⟨year, month, day⟩, s)

/-- The text of the time of day, which a letter or a blank parts from the date. -/
def afterDate : List Char → Except Flaw (List Char)
  | c :: rest => if c = 'T' ∨ c = 't' ∨ c = ' ' then .ok rest else .error .invalid
  | [] => .error .tooShort

/-- The time of day at the start of a text: hour, minute, second and nanoseconds. Blanks after it
are skipped. -/
def timeOfDay (s : List Char) : Except Flaw ((Nat × Nat × Nat × Nat) × List Char) := do
  let (hour, s) ← numberWithin 0 23 s
  let s ← after ':' s
  let (minute, s) ← numberWithin 0 59 s
  let s ← after ':' s
  let (second, s) ← numberWithin 0 60 s
  let (nanoseconds, s) ← fraction s
  .ok ((hour, minute, second, nanoseconds), Text.skipSpaces s)

/-- The point in time of a date and a time of day at an offset. The sixtieth second is a leap
second, which counts as part of the one before it. -/
def ofParts (date : Date) (hour minute second nanoseconds : Nat) (east : Int) :
    Except Flaw Time :=
  let seconds := Calendar.dayNumber date * 86400 + hour * 3600 + minute * 60 + min second 59 - east
  if ¬Calendar.isValid date ∨ 86400 ≤ east.natAbs then .error .outOfRange
  else if Calendar.inRange (Calendar.dateOfDay (seconds / 86400)).year then
    .ok ⟨seconds, nanoseconds + (if second = 60 then tenTo 9 else 0)⟩
  else .error .impossible

/-- The point in time of a text, or its flaw. -/
def read (text : String) : Except Flaw Time := do
  let (date, s) ← date text.toList
  let s ← afterDate s
  let ((hour, minute, second, nanoseconds), s) ← timeOfDay s
  let (east, s) ← offset s
  if (Text.skipSpaces s).isEmpty then ofParts date hour minute second nanoseconds east
  else .error .trailing

/-- The point in time of a text. -/
def ofText? (text : String) : Option Time := (read text).toOption

end Time

end NodeFeatureOperator
