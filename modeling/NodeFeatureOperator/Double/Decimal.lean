import NodeFeatureOperator.Double.Basic
import NodeFeatureOperator.Power

/-!
# Decimal text of double-precision numbers

Writing picks the fewest significant digits that read back to the same number, and of several
such decimals the nearest one. Reading takes a decimal significand of at most 64 bits and a
power of ten, and scales by a double that is nearest to that power.

## Main definitions

* `Double.shortest`: the digits and the power of ten of the text.
* `Double.text`: the layout, positional between `1e-5` and `1e16`, scientific elsewhere.
* `Double.ofDecimal`: the double of a decimal significand and exponent.
-/

namespace NodeFeatureOperator

namespace Double

/-- A decimal `digits · 10 ^ power`. -/
structure Decimal where
  digits : Nat
  power : Int
deriving DecidableEq, Repr, Inhabited

/-- Whether `num / den` lies in the interval of reals that round to the double with significand
`m` and exponent `q`. The ends belong to it iff `m` is even. The interval is asymmetric at a
power of two, where the neighbour below is half as far away. -/
def rounds (m : Nat) (q : Int) (num den : Nat) : Bool :=
  let narrow := m = twoTo 52 ∧ -1074 < q
  let low : Nat := if narrow then 4 * m - 1 else 4 * m - 2
  let high : Nat := 4 * m + 2
  let (n, d) := scaled num den (q - 2)
  if m % 2 = 0 then low * d ≤ n ∧ n ≤ high * d else low * d < n ∧ n < high * d

/-- The decimal `digits · 10 ^ power` as a quotient of naturals. -/
def Decimal.toRatio (x : Decimal) : Nat × Nat :=
  if 0 ≤ x.power then (x.digits * tenTo x.power.toNat, 1) else (x.digits, tenTo (-x.power).toNat)

/-- The two neighbours of `num / den` on the grid of multiples of `10 ^ power`, as the lower
one and the quotient's position above it. -/
def gridBelow (num den : Nat) (power : Int) : Nat × Nat × Nat :=
  let (n, d) :=
    if 0 ≤ power then (num, den * tenTo power.toNat) else (num * tenTo (-power).toNat, den)
  (n / d, n % d, d)

/-- The best decimal on the grid of `10 ^ power` that reads back to the double, if there is one:
the nearer of the two neighbours of the value that do, and the even one of two equally near. -/
def onGrid (d : Double) (power : Int) : Option Decimal :=
  let (num, den) := d.toRatio
  let (below, above, unit) := gridBelow num den power
  let readsBack (digits : Nat) : Bool :=
    let x : Decimal := ⟨digits, power⟩
    rounds d.significand d.exponent x.toRatio.1 x.toRatio.2
  let lower := if readsBack below then some below else none
  let upper := if readsBack (below + 1) then some (below + 1) else none
  match lower, upper with
  | some a, some b =>
    let nearer := if 2 * above < unit then a else if unit < 2 * above then b
      else if a % 2 = 0 then a else b
    some ⟨nearer, power⟩
  | some a, none => some ⟨a, power⟩
  | none, some b => some ⟨b, power⟩
  | none, none => none

/-- The first hit on the grids of `10 ^ power`, `10 ^ (power - 1)` and so on. -/
def firstGrid (d : Double) : Nat → Int → Option Decimal
  | 0, _ => none
  | fuel + 1, power =>
    match onGrid d power with
    | some x => some x
    | none => firstGrid d fuel (power - 1)

/-- Moves the zeros at the end of the digits into the power. -/
def Decimal.trim (x : Decimal) : Nat → Decimal
  | 0 => x
  | fuel + 1 => if x.digits % 10 = 0 then Decimal.trim ⟨x.digits / 10, x.power + 1⟩ fuel else x

/-- The shortest decimal of a number that is not zero. Grids are tried from the coarse end, one
above the leading digit, down to seventeen digits. -/
def shortest (d : Double) : Decimal :=
  let (num, den) := d.toRatio
  let lead : Int := ((num.log2 : Int) - (den.log2 : Int)) * 30103 / 100000 + 2
  match firstGrid d 24 lead with
  | some x => x.trim 20
  | none => ⟨0, 0⟩

/-- Text of a number: `0.0`, positional digits with at least one place, or scientific text, whose
exponent bears a sign. -/
def text (d : Double) : String :=
  let sign := if d.isNegative then "-" else ""
  if d.isZero then sign ++ "0.0"
  else
    let x := d.shortest
    let digits := (toString x.digits).toList
    let count : Int := digits.length
    let point : Int := count + x.power
    let body : List Char :=
      if 0 ≤ x.power ∧ point ≤ 16 then
        digits ++ List.replicate x.power.toNat '0' ++ ".0".toList
      else if 0 < point ∧ point ≤ 16 then
        digits.take point.toNat ++ '.' :: digits.drop point.toNat
      else if -5 < point ∧ point ≤ 0 then
        "0.".toList ++ List.replicate (-point).toNat '0' ++ digits
      else
        let mantissa := if digits.length ≤ 1 then digits
          else digits.take 1 ++ '.' :: digits.drop 1
        let exponent := point - 1
        mantissa ++ 'e' :: (if 0 ≤ exponent then '+' else '-') :: (toString exponent.natAbs).toList
    sign ++ String.ofList body

/-- The double nearest to `10 ^ power`. -/
def powerOfTen (power : Nat) : Double :=
  match ofRatio false (tenTo power) 1 with
  | some d => d
  | none => ofMagnitude false 0

/-- Scales down by `10 ^ 308` as often as the exponent asks for, then by what is left. -/
def scaleDown (d : Double) (power : Nat) : Nat → Option Double
  | 0 => some d
  | fuel + 1 =>
    if power ≤ 308 then d.dividedBy (powerOfTen power)
    else if d.isZero then some d
    else (d.dividedBy (powerOfTen 308)).bind fun e => scaleDown e (power - 308) fuel

/-- The double of `± significand · 10 ^ power`: the significand is rounded to a double first and
then scaled, each step rounding once. A number beyond the finite range has no double. -/
def ofDecimal (negative : Bool) (significand : Nat) (power : Int) : Option Double := do
  let start ← ofRatio false significand 1
  let scaled ←
    if 0 ≤ power then
      if power ≤ 308 then start.times (powerOfTen power.toNat)
      else if start.isZero then some start else none
    else scaleDown start (-power).toNat 8
  pure (ofMagnitude negative scaled.magnitude)

end Double

end NodeFeatureOperator
