import NodeFeatureOperator.Double.Decimal
import NodeFeatureOperator.Json.Basic

/-!
# Compact JSON text

The text of a value without blanks, the form that is hashed and sent. Inside texts only the quote,
the backslash and the characters below U+0020 are escaped.

## Main definitions

* `Json.chars`, `Json.text`: the compact text.
-/

namespace NodeFeatureOperator

namespace Json

/-- A lower-case hexadecimal digit. -/
def hexDigit (n : Nat) : Char := Nat.digitChar (n % 16)

/-- The characters that stand for one character inside quotes. -/
def escape (c : Char) : List Char :=
  if c = '"' then ['\\', '"']
  else if c = '\\' then ['\\', '\\']
  else if 32 ≤ c.toNat then [c]
  else if c.toNat = 8 then ['\\', 'b']
  else if c.toNat = 9 then ['\\', 't']
  else if c.toNat = 10 then ['\\', 'n']
  else if c.toNat = 12 then ['\\', 'f']
  else if c.toNat = 13 then ['\\', 'r']
  else ['\\', 'u', '0', '0', hexDigit (c.toNat / 16), hexDigit c.toNat]

/-- A text in quotes. -/
def quotedChars (s : String) : List Char := '"' :: s.toList.flatMap escape ++ ['"']

/-- Text of a number. -/
def numberChars : Number → List Char
  | .int i => (toString i).toList
  | .double d => d.text.toList

mutual
/-- The characters of the compact text. -/
def chars : Json → List Char
  | .null => ['n', 'u', 'l', 'l']
  | .bool true => ['t', 'r', 'u', 'e']
  | .bool false => ['f', 'a', 'l', 's', 'e']
  | .num n => numberChars n
  | .str s => quotedChars s
  | .arr [] => ['[', ']']
  | .arr (j :: rest) => '[' :: chars j ++ itemsChars rest
  | .obj [] => ['{', '}']
  | .obj ((k, j) :: rest) => '{' :: quotedChars k ++ ':' :: chars j ++ fieldsChars rest
termination_by structural j => j
/-- The items after the first, and the closing bracket. -/
def itemsChars : List Json → List Char
  | [] => [']']
  | j :: rest => ',' :: chars j ++ itemsChars rest
termination_by structural l => l
/-- The fields after the first, and the closing brace. -/
def fieldsChars : List (String × Json) → List Char
  | [] => ['}']
  | (k, j) :: rest => ',' :: quotedChars k ++ ':' :: chars j ++ fieldsChars rest
termination_by structural l => l
end

/-- The compact text. -/
def text (j : Json) : String := String.ofList j.chars

end Json

end NodeFeatureOperator
