/-!
# Quoted texts as they are written

A quoted text of JSON is a list of pieces: characters, and sixteen-bit units that are written in
hexadecimal. Two units may stand for one character; half such a pair is worth nothing.

## Main definitions

* `Json.Piece.scan?`: the pieces of a quoted text.
* `Json.Piece.text?`: the text that pieces are worth.
-/

namespace NodeFeatureOperator

namespace Json

/-- A piece of a quoted text: a character, or a sixteen-bit unit written in hexadecimal. -/
inductive Piece where
  | char (c : Char)
  | unit (code : Nat)
deriving DecidableEq, Repr, Inhabited

namespace Piece

/-- The value of a hexadecimal digit of either case. -/
def hexValue? (c : Char) : Option Nat :=
  if c.isDigit then some (c.toNat - 48)
  else if 97 ≤ c.toNat ∧ c.toNat ≤ 102 then some (c.toNat - 87)
  else if 65 ≤ c.toNat ∧ c.toNat ≤ 70 then some (c.toNat - 55)
  else none

/-- The unit of four hexadecimal digits. -/
def hexUnit? (a b c d : Char) : Option Nat := do
  let a ← hexValue? a
  let b ← hexValue? b
  let c ← hexValue? c
  let d ← hexValue? d
  pure (((a * 16 + b) * 16 + c) * 16 + d)

/-- The character that a one-letter escape stands for. -/
def escaped? (c : Char) : Option Char :=
  if c = '"' ∨ c = '\\' ∨ c = '/' then some c
  else if c = 'b' then some (Char.ofNat 8)
  else if c = 'f' then some (Char.ofNat 12)
  else if c = 'n' then some '\n'
  else if c = 'r' then some '\r'
  else if c = 't' then some '\t'
  else none

/-- The pieces up to the closing quote, and what follows it. Characters below U+0020 must be
escaped. -/
def scan? : List Char → Option (List Piece × List Char)
  | [] => none
  | '"' :: rest => some ([], rest)
  | '\\' :: 'u' :: a :: b :: c :: d :: rest =>
    match hexUnit? a b c d, scan? rest with
    | some code, some (more, tail) => some (.unit code :: more, tail)
    | _, _ => none
  | '\\' :: e :: rest =>
    match escaped? e, scan? rest with
    | some c, some (more, tail) => some (.char c :: more, tail)
    | _, _ => none
  | c :: rest =>
    if c.toNat < 32 then none
    else
      match scan? rest with
      | some (more, tail) => some (.char c :: more, tail)
      | none => none

/-- The characters of pieces. A high unit needs a low unit after it, and a low unit a high one
before it. -/
def joined? : List Piece → Option (List Char)
  | [] => some []
  | .char c :: rest => (joined? rest).map (c :: ·)
  | .unit high :: .unit low :: rest =>
    if 0xD800 ≤ high ∧ high < 0xDC00 then
      if 0xDC00 ≤ low ∧ low < 0xE000 then
        (joined? rest).map (Char.ofNat (0x10000 + (high - 0xD800) * 1024 + (low - 0xDC00)) :: ·)
      else none
    else if 0xDC00 ≤ high ∧ high < 0xE000 then none
    else (joined? (.unit low :: rest)).map (Char.ofNat high :: ·)
  | .unit code :: rest =>
    if 0xD800 ≤ code ∧ code < 0xE000 then none
    else (joined? rest).map (Char.ofNat code :: ·)

/-- The text of pieces. -/
def text? (pieces : List Piece) : Option String := (joined? pieces).map String.ofList

end Piece

end Json

end NodeFeatureOperator
