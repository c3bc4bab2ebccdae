/-!
# Hexadecimal text

Lower-case hexadecimal text of numbers and of bytes.

## Main definitions

* `Text.hex`: a number without leading zeros.
* `Text.hexBytes`: two digits for every byte.
-/

namespace NodeFeatureOperator

namespace Text

/-- The digits of a number in base sixteen. -/
def hex (n : Nat) : List Char := Nat.toDigits 16 n

/-- Two digits for a byte. -/
def hexByte (b : UInt8) : List Char :=
  [Nat.digitChar (b.toNat / 16), Nat.digitChar (b.toNat % 16)]

/-- Two digits for every byte. -/
def hexBytes (bytes : List UInt8) : String := String.ofList (bytes.flatMap hexByte)

end Text

end NodeFeatureOperator
