import NodeFeatureOperator.Power

/-!
# Durations

Lengths of time in whole nanoseconds, and their text in the largest unit that does not leave the
integer part zero, with the exact fraction.

## Main definitions

* `Duration.text`: `30s`, `1.5s`, `20ms`, `1.234567ms`, `1µs`, `999ns`, and `0ns` for nothing.
-/

namespace NodeFeatureOperator

/-- A length of time. -/
structure Duration where
  nanoseconds : Nat
deriving DecidableEq, Repr, Inhabited

namespace Duration

/-- A length of whole seconds. -/
def ofSeconds (n : Nat) : Duration := ⟨n * 1000000000⟩

/-- A length of whole milliseconds. -/
def ofMilliseconds (n : Nat) : Duration := ⟨n * 1000000⟩

/-- The whole milliseconds of a length. -/
def milliseconds (d : Duration) : Nat := d.nanoseconds / 1000000

instance : Add Duration := ⟨fun a b => ⟨a.nanoseconds + b.nanoseconds⟩⟩

instance : LE Duration := ⟨fun a b => a.nanoseconds ≤ b.nanoseconds⟩

instance (a b : Duration) : Decidable (a ≤ b) :=
  inferInstanceAs (Decidable (a.nanoseconds ≤ b.nanoseconds))

/-- A fraction given by its digits at `width` places, without the zeros at its end; nothing if it
is zero. -/
def fraction (width n : Nat) : List Char :=
  let digits := (toString n).toList
  let places := List.replicate (width - digits.length) '0' ++ digits
  match (places.reverse.dropWhile (· = '0')).reverse with
  | [] => []
  | kept => '.' :: kept

/-- A length of `n` nanoseconds in a unit of `tenTo width` nanoseconds. -/
def inUnit (width : Nat) (unit : String) (n : Nat) : String :=
  toString (n / tenTo width) ++ String.ofList (fraction width (n % tenTo width)) ++ unit

/-- The text of a length of time. -/
def text (d : Duration) : String :=
  let n := d.nanoseconds
  if tenTo 9 ≤ n then inUnit 9 "s" n
  else if tenTo 6 ≤ n then inUnit 6 "ms" n
  else if tenTo 3 ≤ n then inUnit 3 "µs" n
  else toString n ++ "ns"

end Duration

end NodeFeatureOperator
