/-!
# Bytes written as text

Base64 text: four characters for three bytes, and at the end two or three characters and equals
signs up to four for one or two bytes. Each sequence of bytes has one text, so that the bits of the
last character that stand for no byte have to be zero.

## Main definitions

* `Text.isBase64`: whether a text stands for bytes.
-/

namespace NodeFeatureOperator

namespace Text

/-- The six bits of a character. -/
def sixBits? (c : Char) : Option Nat :=
  if 'A' ≤ c ∧ c ≤ 'Z' then some (c.toNat - 65)
  else if 'a' ≤ c ∧ c ≤ 'z' then some (c.toNat - 71)
  else if '0' ≤ c ∧ c ≤ '9' then some (c.toNat + 4)
  else if c = '+' then some 62
  else if c = '/' then some 63
  else none

/-- Whether characters stand for bytes. -/
def areBase64 : List Char → Bool
  | [] => true
  | [a, b, '=', '='] => (sixBits? a).isSome && (sixBits? b).any (· % 16 == 0)
  | [a, b, c, '='] =>
    (sixBits? a).isSome && (sixBits? b).isSome && (sixBits? c).any (· % 4 == 0)
  | a :: b :: c :: d :: rest => [a, b, c, d].all (fun x => (sixBits? x).isSome) && areBase64 rest
  | _ => false

/-- Whether a text stands for bytes. -/
def isBase64 (s : String) : Bool := areBase64 s.toList

end Text

end NodeFeatureOperator
