import NodeFeatureOperator.Power

/-!
# Double-precision numbers

A number with a fraction is a 64-bit binary number, held by its bits. Its value is
`± significand · 2 ^ exponent`, and all arithmetic on it is exact arithmetic on naturals
followed by one rounding to nearest, ties to the even neighbour.

## Main definitions

* `Double.ofRatio`: the nearest double to a quotient of naturals, if it is finite.
* `Double.same`: equality of values, for which the two zeros are equal.
-/

namespace NodeFeatureOperator

/-- A finite number in 64-bit binary format. -/
structure Double where
  /-- Sign, eleven bits of exponent and fifty-two bits of fraction. -/
  bits : UInt64
deriving DecidableEq, Repr, Inhabited

namespace Double

/-- Whether the sign bit is set. -/
def isNegative (d : Double) : Bool := d.bits.toNat ≥ twoTo 63

/-- The bits without the sign. -/
def magnitude (d : Double) : Nat := d.bits.toNat % twoTo 63

/-- Both zeros are zero. -/
def isZero (d : Double) : Bool := d.magnitude == 0

/-- The stored exponent, `0` for subnormal numbers. -/
def exponentField (d : Double) : Nat := d.magnitude / twoTo 52

/-- The integer `m` of the value `m · 2 ^ exponent`. -/
def significand (d : Double) : Nat :=
  if d.exponentField = 0 then d.magnitude % twoTo 52 else twoTo 52 + d.magnitude % twoTo 52

/-- The power of two of the value. -/
def exponent (d : Double) : Int := (max d.exponentField 1 : Int) - 1075

/-- Equality of the values: the two zeros are one value. -/
def same (a b : Double) : Bool := a == b || (a.isZero && b.isZero)

/-- The double with the given sign and magnitude bits. -/
def ofMagnitude (negative : Bool) (magnitude : Nat) : Double :=
  ⟨UInt64.ofNat (if negative then twoTo 63 + magnitude else magnitude)⟩

/-- The nearest natural to `num / den`, a half going to the even neighbour. -/
def roundQuotient (num den : Nat) : Nat :=
  let quotient := num / den
  let twice := 2 * (num % den)
  if twice < den then quotient
  else if den < twice then quotient + 1
  else if quotient % 2 = 0 then quotient else quotient + 1

/-- `num / den` in units of `2 ^ scale`, as a quotient of naturals. -/
def scaled (num den : Nat) (scale : Int) : Nat × Nat :=
  if 0 ≤ scale then (num, den * twoTo scale.toNat) else (num * twoTo (-scale).toNat, den)

/-- The magnitude bits of the double nearest to `num / den`. The scale is the one at which the
quotient has fifty-three bits, and not below that of the subnormal numbers; a significand that
rounds up to `2 ^ 53` carries into the exponent by itself. -/
def nearestMagnitude (num den : Nat) : Nat :=
  let guess : Int := (num.log2 : Int) - (den.log2 : Int) - 52
  let fine : Int := max (guess - 1) (-1074)
  let atFine := scaled num den fine
  let scale : Int := if atFine.1 / atFine.2 < twoTo 53 then fine else max guess (-1074)
  let (n, d) := scaled num den scale
  let m := roundQuotient n d
  if m < twoTo 52 then m else (scale + 1074).toNat * twoTo 52 + m

/-- The double nearest to `± num / den`, unless it lies beyond the finite range. -/
def ofRatio (negative : Bool) (num den : Nat) : Option Double :=
  if num = 0 then some (ofMagnitude negative 0)
  else
    let magnitude := nearestMagnitude num den
    if magnitude < 2047 * twoTo 52 then some (ofMagnitude negative magnitude) else none

/-- The magnitude of the value as a quotient of naturals. -/
def toRatio (d : Double) : Nat × Nat :=
  if 0 ≤ d.exponent then (d.significand * twoTo d.exponent.toNat, 1)
  else (d.significand, twoTo (-d.exponent).toNat)

/-- The product of the magnitudes, rounded. -/
def times (a b : Double) : Option Double :=
  let (n, d) := a.toRatio
  let (m, e) := b.toRatio
  ofRatio false (n * m) (d * e)

/-- The quotient of the magnitudes, rounded; `none` for a division by zero. -/
def dividedBy (a b : Double) : Option Double :=
  let (n, d) := a.toRatio
  let (m, e) := b.toRatio
  if m = 0 then none else ofRatio false (n * e) (d * m)

end Double

end NodeFeatureOperator
