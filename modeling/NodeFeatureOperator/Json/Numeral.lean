import NodeFeatureOperator.Double.Decimal
import NodeFeatureOperator.Json.Basic
import NodeFeatureOperator.Power

/-!
# Numbers as they are written

A number of a JSON text is a list of digits with a sign, perhaps a fraction and an exponent. A
number without fraction and exponent is worth an integer as long as it fits into 64 bits; every
other number is rounded to a double, and one beyond the range of doubles is worth nothing.

## Main definitions

* `Json.Numeral.scan?`: the number at the start of a text.
* `Json.Numeral.value?`: what a written number is worth.
-/

namespace NodeFeatureOperator

namespace Json

/-- A number as it is written; the digits are those of each part, in order. -/
structure Numeral where
  negative : Bool
  whole : List Nat
  fraction : Option (List Nat)
  exponent : Option (Bool × List Nat)
deriving DecidableEq, Repr, Inhabited

namespace Numeral

/-- The value of a decimal digit. -/
def digitValue (c : Char) : Nat := c.toNat - 48

/-- The digits at the start of a text, and what follows them. -/
def digits (s : List Char) : List Nat × List Char :=
  ((s.takeWhile Char.isDigit).map digitValue, s.dropWhile Char.isDigit)

/-- The digits of a fraction, if a point stands here; a point needs a digit after it. -/
def scanFraction? : List Char → Option (Option (List Nat) × List Char)
  | '.' :: rest =>
    let (places, tail) := digits rest
    if places.isEmpty then none else some (some places, tail)
  | s => some (none, s)

/-- The exponent, if a mark stands here; a mark needs a digit after it and its sign. -/
def scanExponent? (s : List Char) : Option (Option (Bool × List Nat) × List Char) :=
  match s with
  | c :: rest =>
    if c = 'e' ∨ c = 'E' then
      let (negative, unsigned) :=
        match rest with
        | '+' :: r => (false, r)
        | '-' :: r => (true, r)
        | r => (false, r)
      let (places, tail) := digits unsigned
      if places.isEmpty then none else some (some (negative, places), tail)
    else some (none, s)
  | [] => some (none, s)

/-- The number at the start of a text. A zero in front of another digit is refused. -/
def scan? (s : List Char) : Option (Numeral × List Char) := do
  let (negative, unsigned) :=
    match s with
    | '-' :: r => (true, r)
    | r => (false, r)
  let (whole, afterWhole) := digits unsigned
  if whole.isEmpty ∨ (1 < whole.length ∧ whole.head? = some 0) then none
  else
    let (fraction, afterFraction) ← scanFraction? afterWhole
    let (exponent, tail) ← scanExponent? afterFraction
    pure (⟨negative, whole, fraction, exponent⟩, tail)

/-- A decimal significand while it is read: it keeps leading digits as long as they fit into 64
bits. `full` says that a digit was left out, `shift` is the power of ten owed to such digits. -/
structure Accumulator where
  significand : Nat
  shift : Int
  full : Bool
deriving Repr, Inhabited

/-- Takes in a digit before the point; a digit left out counts as a factor of ten. -/
def Accumulator.whole (a : Accumulator) (digit : Nat) : Accumulator :=
  if a.full then { a with shift := a.shift + 1 }
  else
    let next := a.significand * 10 + digit
    if next < twoTo 64 then { a with significand := next }
    else { a with shift := a.shift + 1, full := true }

/-- Takes in a digit after the point; after the first one left out all others are. -/
def Accumulator.place (a : Accumulator) (digit : Nat) : Accumulator :=
  if a.full then a
  else
    let next := a.significand * 10 + digit
    if next < twoTo 64 then { a with significand := next, shift := a.shift - 1 }
    else { a with full := true }

/-- The natural number of a list of digits. -/
def ofDigits (digits : List Nat) : Nat := digits.foldl (fun n d => n * 10 + d) 0

/-- The value of a number that has a fraction, an exponent, or too many digits. An exponent
beyond 31 bits makes a number that is not zero too large or zero. -/
def double? (negative : Bool) (a : Accumulator) (exponent : Option (Bool × List Nat)) :
    Option Double :=
  match exponent with
  | none => Double.ofDecimal negative a.significand a.shift
  | some (negativeExponent, digits) =>
    let e := ofDigits digits
    if e < twoTo 31 then
      Double.ofDecimal negative a.significand
        (if negativeExponent then a.shift - e else a.shift + e)
    else if a.significand = 0 ∨ negativeExponent then Double.ofDecimal negative 0 0
    else none

/-- The value of a written number. Without fraction and exponent it is an integer if it lies
between `-2^63` and `2^64 - 1`, and `-0` is a double. -/
def value? (n : Numeral) : Option Number :=
  let whole := n.whole.foldl Accumulator.whole ⟨0, 0, false⟩
  match n.fraction, n.exponent with
  | none, none =>
    if whole.full then (double? n.negative whole none).map .double
    else if !n.negative then some (.int whole.significand)
    else if whole.significand = 0 ∨ twoTo 63 < whole.significand then
      (double? true whole none).map .double
    else some (.int (-(whole.significand : Int)))
  | none, exponent => (double? n.negative whole exponent).map .double
  | some places, exponent =>
    let all := places.foldl Accumulator.place { whole with full := false }
    (double? n.negative all exponent).map .double

end Numeral

end Json

end NodeFeatureOperator
