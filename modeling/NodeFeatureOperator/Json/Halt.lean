import NodeFeatureOperator.Json.Objection
import NodeFeatureOperator.Json.Reader

/-!
# Where reading halts

A reader goes through a text from its start. Where it halts, it leaves the rest of the text, and the
place of its objection lies at the start of that rest or a few bytes further: one byte for a
character that is looked at, four for the digits of an escape.

A part that nobody looks at is read for its grammar only; there a halved character pair, a number
beyond all range and any depth of nesting pass.

## Main definitions

* `Json.Halt`: an objection with the rest of the text.
* `Json.Halt.objection`: the objection, with its place in the whole text.
* `Json.Halt.string`, `Json.Halt.number`, `Json.Halt.word`: the parts that have no parts.
* `Json.Halt.skip`: a part that nobody looks at.
-/

namespace NodeFeatureOperator

namespace Json

/-- Where and why a reader halts: the rest of the text, and the bytes from its start to the place
of the objection. -/
structure Halt where
  cause : Cause
  rest : List Char
  ahead : Nat := 0
deriving DecidableEq, Repr, Inhabited

namespace Halt

open Written (skipBlanks)

/-- The number of bytes of a text. -/
def byteCount (s : List Char) : Nat := s.foldl (fun n c => n + c.utf8Size) 0

/-- The objection behind a halt in a text. -/
def objection (document : List Char) (h : Halt) : Objection :=
  let start : Place := ⟨1, 0⟩
  ⟨h.cause, start.further (byteCount document - byteCount h.rest + h.ahead) document⟩

/-- What reading a part gives: its worth and the rest of the text, or a halt. -/
abbrev Step (α : Type) := Except Halt (α × List Char)

/-- A halt at the start of a rest. -/
def atStart {α : Type} (cause : Cause) (rest : List Char) : Except Halt α := .error ⟨cause, rest, 0⟩

/-- A halt after the first byte of a rest, or at its end if it is empty. -/
def atNext {α : Type} (cause : Cause) (rest : List Char) : Except Halt α := .error ⟨cause, rest, 1⟩

/-- The rest after the letters of a word. -/
def word : List Char → List Char → Except Halt (List Char)
  | [], s => .ok s
  | _ :: _, [] => atStart (.unfinished .value) []
  | w :: ws, c :: rest => if c = w then word ws rest else atNext .misspelt (c :: rest)

/-! ## Strings -/

/-- Whether a unit is the first half of a character pair. -/
def isHighHalf (code : Nat) : Bool := 0xD800 ≤ code && code < 0xDC00

/-- Whether a unit is the second half of a character pair. -/
def isLowHalf (code : Nat) : Bool := 0xDC00 ≤ code && code < 0xE000

/-- The halt in a string that does not read, from behind its opening quote. `looked` says that its
characters matter, `halved` that the first half of a pair was the last thing read. -/
def inString (looked halved : Bool) : List Char → Halt
  | [] => ⟨.unfinished .string, [], 0⟩
  | '\\' :: 'u' :: a :: b :: c :: d :: rest =>
    match Piece.hexUnit? a b c d with
    | none => ⟨.badEscape, a :: b :: c :: d :: rest, 4⟩
    | some code =>
      if looked && isLowHalf code != halved then ⟨.lonelyHalf, rest, 0⟩
      else inString looked (looked && isHighHalf code) rest
  | ['\\'] => ⟨.unfinished .string, [], 0⟩
  | '\\' :: e :: rest =>
    if e = 'u' then
      if byteCount rest < 4 then ⟨.unfinished .string, [], 0⟩ else ⟨.badEscape, rest, 4⟩
    else if halved then ⟨.missingHalf, e :: rest, 1⟩
    else if (Piece.escaped? e).isSome then inString looked false rest
    else ⟨.badEscape, e :: rest, 1⟩
  | c :: rest =>
    if halved then ⟨.missingHalf, c :: rest, 1⟩
    else if c.toNat < 32 then ⟨.rawControl, c :: rest, if looked then 1 else 0⟩
    else inString looked false rest

/-- The string whose opening quote was read. -/
def string (s : List Char) : Step String :=
  match Piece.scan? s with
  | none => .error (inString true false s)
  | some (pieces, rest) =>
    match Piece.text? pieces with
    | some text => .ok (text, rest)
    | none => .error (inString true false s)

/-- The rest after a string that nobody looks at. -/
def skipString (s : List Char) : Except Halt (List Char) :=
  match Piece.scan? s with
  | some (_, rest) => .ok rest
  | none => .error (inString false false s)

/-! ## Numbers -/

/-- The objection to a number that the text ends in; one that nobody looks at is just bad. -/
def endOfNumber (looked : Bool) : Cause := if looked then .unfinished .value else .badNumber

/-- The halt where a digit has to stand and none does. -/
def atDigit (looked : Bool) : List Char → Halt
  | [] => ⟨endOfNumber looked, [], 0⟩
  | s => ⟨.badNumber, s, 1⟩

/-- The halt in the exponent of a number. -/
def inExponent (looked : Bool) : List Char → Halt
  | _ :: '+' :: rest => atDigit looked rest
  | _ :: '-' :: rest => atDigit looked rest
  | s => atDigit looked (s.drop 1)

/-- The halt in a number from its point or its exponent on. -/
def inPlaces (looked : Bool) : List Char → Halt
  | '.' :: c :: rest =>
    if c.isDigit then inExponent looked (rest.dropWhile Char.isDigit)
    else atDigit looked (c :: rest)
  | ['.'] => atDigit looked []
  | s => inExponent looked s

/-- The halt in a number that does not scan. A zero ends its whole part. -/
def inNumber (looked : Bool) (s : List Char) : Halt :=
  match (if s.head? = some '-' then s.drop 1 else s) with
  | '0' :: c :: rest =>
    if c.isDigit then ⟨.badNumber, c :: rest, 1⟩ else inPlaces looked (c :: rest)
  | c :: rest =>
    if c.isDigit then inPlaces looked (rest.dropWhile Char.isDigit)
    else atDigit looked (c :: rest)
  | [] => atDigit looked []

/-- The digits of an exponent that are left when those before them exceed 31 bits. -/
def digitsLeft (read : Nat) : List Nat → Nat
  | [] => 0
  | d :: rest => if twoTo 31 ≤ read * 10 + d then rest.length else digitsLeft (read * 10 + d) rest

/-- The number at the start of a text. One beyond all range is objected to at its end, or where
its exponent exceeds 31 bits. -/
def number (s : List Char) : Step Number :=
  match Numeral.scan? s with
  | none => .error (inNumber true s)
  | some (n, rest) =>
    match n.value? with
    | some value => .ok (value, rest)
    | none =>
      let left := digitsLeft 0 ((n.exponent.map Prod.snd).getD [])
      atStart .hugeNumber (s.drop (s.length - rest.length - left))

/-- The rest after a number that nobody looks at. -/
def skipNumber (s : List Char) : Except Halt (List Char) :=
  match Numeral.scan? s with
  | some (_, rest) => .ok rest
  | none => .error (inNumber false s)

/-! ## Values that nobody looks at -/

/-- The rest after the colon that follows a key. -/
def colon (s : List Char) : Except Halt (List Char) :=
  match skipBlanks s with
  | ':' :: rest => .ok rest
  | [] => atStart (.unfinished .object) []
  | rest => atNext .noColon rest

/-- The rest after the opening quote of a key that nobody looks at. -/
def skippedKey (s : List Char) : Except Halt (List Char) :=
  match skipBlanks s with
  | '"' :: rest => .ok rest
  | [] => atStart (.unfinished .object) []
  | rest => atNext .bareKey rest

mutual
/-- The rest after a value. Each level of nesting and each item uses at least one character and at
most two units of the budget. -/
def skip : Nat → List Char → Except Halt (List Char)
  | 0, s => atStart .noValue s
  | budget + 1, s =>
    match skipBlanks s with
    | [] => atStart (.unfinished .value) []
    | 'n' :: rest => word ['u', 'l', 'l'] rest
    | 't' :: rest => word ['r', 'u', 'e'] rest
    | 'f' :: rest => word ['a', 'l', 's', 'e'] rest
    | '"' :: rest => skipString rest
    | '[' :: rest =>
      match skipBlanks rest with
      | [] => atStart (.unfinished .list) []
      | ']' :: tail => .ok tail
      | start => skipItems budget start
    | '{' :: rest =>
      match skipBlanks rest with
      | '}' :: tail => .ok tail
      | start => skipFields budget start
    | c :: rest =>
      if c = '-' ∨ c.isDigit then skipNumber (c :: rest) else atNext .noValue (c :: rest)
/-- The rest after one item or more and the closing bracket. -/
def skipItems : Nat → List Char → Except Halt (List Char)
  | 0, s => atStart .noValue s
  | budget + 1, s =>
    match skip budget s with
    | .error h => .error h
    | .ok rest =>
      match skipBlanks rest with
      | ',' :: tail => skipItems budget tail
      | ']' :: tail => .ok tail
      | [] => atStart (.unfinished .list) []
      | tail => atNext .openList tail
/-- The rest after one field or more and the closing brace. -/
def skipFields : Nat → List Char → Except Halt (List Char)
  | 0, s => atStart .noValue s
  | budget + 1, s =>
    match skippedKey s >>= skipString >>= colon >>= skip budget with
    | .error h => .error h
    | .ok rest =>
      match skipBlanks rest with
      | ',' :: tail => skipFields budget tail
      | '}' :: tail => .ok tail
      | [] => atStart (.unfinished .object) []
      | tail => atNext .openObject tail
end

end Halt

end Json

end NodeFeatureOperator
