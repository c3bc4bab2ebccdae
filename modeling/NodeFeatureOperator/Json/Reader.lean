import NodeFeatureOperator.Json.Numeral
import NodeFeatureOperator.Json.Piece
import NodeFeatureOperator.Json.Written

/-!
# Reading JSON text

The grammar of the text. What follows it is read as a document, also where parts are worth nothing.

## Main definitions

* `Json.Written.ofText?`: the document of a text, blanks around it allowed.
* `Json.parse?`: the value of a text.
-/

namespace NodeFeatureOperator

namespace Json

namespace Written

/-- The blanks of the format. -/
def isBlank (c : Char) : Bool := c = ' ' || c = '\n' || c = '\t' || c = '\r'

/-- The text from its first character that is not a blank. -/
def skipBlanks (s : List Char) : List Char := s.dropWhile isBlank

/-- A written number. -/
def ofNumeral (n : Numeral) : Written :=
  match n.value? with
  | some value => .num value
  | none => .unreadable

/-- A written text. -/
def ofPieces (pieces : List Piece) : Written :=
  match Piece.text? pieces with
  | some s => .str s
  | none => .unreadable

/-- A written object. One key that is worth nothing spoils all of it. -/
def ofFields (fields : List (List Piece × Written)) : Written :=
  match fields.mapM fun e => (Piece.text? e.1).map fun key => (key, e.2) with
  | some fields => .obj fields
  | none => .unreadable

mutual
/-- The document at the start of a text, and what follows it. Each level of nesting and each item
uses at least one character and at most two units of the budget. -/
def scan? : Nat → List Char → Option (Written × List Char)
  | 0, _ => none
  | budget + 1, s =>
    match skipBlanks s with
    | 'n' :: 'u' :: 'l' :: 'l' :: rest => some (.null, rest)
    | 't' :: 'r' :: 'u' :: 'e' :: rest => some (.bool true, rest)
    | 'f' :: 'a' :: 'l' :: 's' :: 'e' :: rest => some (.bool false, rest)
    | '"' :: rest => (Piece.scan? rest).map fun r => (ofPieces r.1, r.2)
    | '[' :: rest =>
      match skipBlanks rest with
      | ']' :: tail => some (.arr [], tail)
      | _ => (scanItems? budget rest).map fun r => (.arr r.1, r.2)
    | '{' :: rest =>
      match skipBlanks rest with
      | '}' :: tail => some (.obj [], tail)
      | _ => (scanFields? budget rest).map fun r => (ofFields r.1, r.2)
    | rest => (Numeral.scan? rest).map fun r => (ofNumeral r.1, r.2)
/-- One item or more, and the closing bracket. -/
def scanItems? : Nat → List Char → Option (List Written × List Char)
  | 0, _ => none
  | budget + 1, s =>
    match scan? budget s with
    | none => none
    | some (item, rest) =>
      match skipBlanks rest with
      | ',' :: tail => (scanItems? budget tail).map fun r => (item :: r.1, r.2)
      | ']' :: tail => some ([item], tail)
      | _ => none
/-- One field or more, and the closing brace. -/
def scanFields? : Nat → List Char → Option (List (List Piece × Written) × List Char)
  | 0, _ => none
  | budget + 1, s =>
    match skipBlanks s with
    | '"' :: rest =>
      match Piece.scan? rest with
      | none => none
      | some (key, afterKey) =>
        match skipBlanks afterKey with
        | ':' :: beforeValue =>
          match scan? budget beforeValue with
          | none => none
          | some (value, afterValue) =>
            match skipBlanks afterValue with
            | ',' :: tail => (scanFields? budget tail).map fun r => ((key, value) :: r.1, r.2)
            | '}' :: tail => some ([(key, value)], tail)
            | _ => none
        | _ => none
    | _ => none
end

/-- The greatest number of lists and objects around a value that is read. -/
def maxDepth : Nat := 127

/-- The document of a whole text: one value, with nothing but blanks around it. -/
def ofText? (text : String) : Option Written :=
  let s := text.toList
  match scan? (2 * s.length + 2) s with
  | some (w, rest) => if (skipBlanks rest).isEmpty then some (w.limited maxDepth) else none
  | none => none

end Written

/-- The value of a text. -/
def parse? (text : String) : Option Json := (Written.ofText? text).bind Written.value

end Json

end NodeFeatureOperator
