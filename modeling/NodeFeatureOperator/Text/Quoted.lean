import NodeFeatureOperator.Text.Hex
import NodeFeatureOperator.Text.Invisible

/-!
# Quoted text in messages

The form in which a message shows a text it was given: in double quotes, with everything escaped
that would not show. Visible text of any script stands as it is, and so do single quotes.

## Main definitions

* `Text.quoted`: the quoted form.
-/

namespace NodeFeatureOperator

namespace Text

/-- An opening brace. -/
def openBrace : Char := Char.ofNat 123

/-- A closing brace. -/
def closeBrace : Char := Char.ofNat 125

/-- The characters that show one character inside quotes. -/
def showChar (c : Char) : List Char :=
  if c = '"' then ['\\', '"']
  else if c = '\\' then ['\\', '\\']
  else if c = '\n' then ['\\', 'n']
  else if c = '\r' then ['\\', 'r']
  else if c = '\t' then ['\\', 't']
  else if c.toNat = 0 then ['\\', '0']
  else if 32 ≤ c.toNat ∧ c.toNat < 127 then [c]
  else if isInvisible c then '\\' :: 'u' :: openBrace :: hex c.toNat ++ [closeBrace]
  else [c]

/-- The quoted form of a text. -/
def quoted (s : String) : String := String.ofList ('"' :: s.toList.flatMap showChar ++ ['"'])

end Text

end NodeFeatureOperator
