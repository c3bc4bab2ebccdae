import NodeFeatureOperator.Text.Hex

/-!
# Form encoding

The encoding of the parameters of a query: letters, digits and `*-._` stand for themselves, a space
is written as a plus sign, and every other byte as a percent sign and two digits.

## Main definitions

* `Text.formEncoded`: the encoding of a text.
* `Text.parameters`: the parameters of a query.
-/

namespace NodeFeatureOperator

namespace Text

/-- The encoding of a byte. -/
def formByte (b : UInt8) : List Char :=
  let c := Char.ofNat b.toNat
  if c.isAlphanum ∨ c = '*' ∨ c = '-' ∨ c = '.' ∨ c = '_' then [c]
  else if c = ' ' then ['+']
  else '%' :: (hexByte b).map Char.toUpper

/-- The encoding of a text. -/
def formEncoded (s : String) : String := String.ofList (s.toUTF8.toList.flatMap formByte)

/-- The parameters of a query, each after an ampersand. -/
def parameters (entries : List (String × String)) : String :=
  String.join (entries.map fun e => "&" ++ formEncoded e.1 ++ "=" ++ formEncoded e.2)

end Text

end NodeFeatureOperator
