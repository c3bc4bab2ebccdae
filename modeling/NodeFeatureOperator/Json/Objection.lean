import NodeFeatureOperator.Json.Printer
import NodeFeatureOperator.Text.Quoted

/-!
# Objections to a text

Why a text is not the document that was asked for, and the place where this shows: the line, and
the number of bytes in front of it in the line.

## Main definitions

* `Json.Place`: a place in a text.
* `Json.Objection`: what a reader objects to, and where.
* `Json.Objection.text`: the words for it.
-/

namespace NodeFeatureOperator

namespace Json

/-- A place in a text: its line, counted from one, and the bytes in front of it in the line. -/
structure Place where
  line : Nat
  column : Nat
deriving DecidableEq, Repr, Inhabited

/-- The place a number of bytes further in a text, or at its end. A place may lie within a
character of several bytes. -/
def Place.further (p : Place) (bytes : Nat) : List Char → Place
  | [] => p
  | c :: rest =>
    if bytes = 0 then p
    else if c = '\n' then Place.further ⟨p.line + 1, 0⟩ (bytes - 1) rest
    else if c.utf8Size ≤ bytes then
      Place.further ⟨p.line, p.column + c.utf8Size⟩ (bytes - c.utf8Size) rest
    else ⟨p.line, p.column + bytes⟩

/-- What stands in a text in place of the value that is expected. -/
inductive Found where
  | null
  | bool (value : Bool)
  | num (value : Number)
  | str (value : String)
  | list
  | object
deriving DecidableEq, Repr, Inhabited

/-- The words for what stands in a text. -/
def Found.phrase : Found → String
  | .null => "null"
  | .bool b => "boolean `" ++ (if b then "true" else "false") ++ "`"
  | .num (.int i) => "integer `" ++ toString i ++ "`"
  | .num (.double d) => "floating point `" ++ d.text ++ "`"
  | .str s => "string " ++ Text.quoted s
  | .list => "sequence"
  | .object => "map"

/-- A part of a text that has to be closed, or a value that has to follow. -/
inductive Part where
  | list
  | object
  | string
  | value
deriving DecidableEq, Repr, Inhabited

/-- The words for a part. -/
def Part.phrase : Part → String
  | .list => "a list"
  | .object => "an object"
  | .string => "a string"
  | .value => "a value"

/-- What a reader objects to. -/
inductive Cause where
  /-- The text ends within a part. -/
  | unfinished (part : Part)
  /-- A key has no colon after it. -/
  | noColon
  /-- An item has neither a comma nor a bracket after it. -/
  | openList
  /-- A field has neither a comma nor a brace after it. -/
  | openObject
  /-- A literal word is misspelt. -/
  | misspelt
  /-- No value starts here. -/
  | noValue
  /-- A backslash stands in front of a character that has no escape. -/
  | badEscape
  | badNumber
  | hugeNumber
  /-- A control character stands unescaped in a string. -/
  | rawControl
  /-- A key is no string. -/
  | bareKey
  /-- Half a character pair, or two halves that make no pair. -/
  | lonelyHalf
  /-- The first half of a character pair has no escape after it. -/
  | missingHalf
  /-- A comma has no item or field after it. -/
  | danglingComma
  /-- Something follows the document. -/
  | trailing
  /-- Too many lists and objects stand around a value. -/
  | tooDeep
  /-- A value is of another type than the expected one. -/
  | otherType (found : Found) (expected : String)
  /-- A value of the right type is not among the expected ones. -/
  | otherValue (found : Found) (expected : String)
  /-- A string does not stand for what it should. -/
  | flawed (reason : String)
deriving DecidableEq, Repr, Inhabited

/-- The words for what a reader objects to. -/
def Cause.phrase : Cause → String
  | .unfinished part => "EOF while parsing " ++ part.phrase
  | .noColon => "expected `:`"
  | .openList => "expected `,` or `]`"
  | .openObject => "expected `,` or `\x7d`"
  | .misspelt => "expected ident"
  | .noValue => "expected value"
  | .badEscape => "invalid escape"
  | .badNumber => "invalid number"
  | .hugeNumber => "number out of range"
  | .rawControl => "control character (\\u0000-\\u001F) found while parsing a string"
  | .bareKey => "key must be a string"
  | .lonelyHalf => "lone leading surrogate in hex escape"
  | .missingHalf => "unexpected end of hex escape"
  | .danglingComma => "trailing comma"
  | .trailing => "trailing characters"
  | .tooDeep => "recursion limit exceeded"
  | .otherType found expected => "invalid type: " ++ found.phrase ++ ", expected " ++ expected
  | .otherValue found expected => "invalid value: " ++ found.phrase ++ ", expected " ++ expected
  | .flawed reason => reason

/-- An objection to a text: its cause and its place. -/
structure Objection where
  cause : Cause
  place : Place
deriving DecidableEq, Repr, Inhabited

/-- The words for an objection. -/
def Objection.text (o : Objection) : String :=
  o.cause.phrase ++ " at line " ++ toString o.place.line ++ " column " ++ toString o.place.column

end Json

end NodeFeatureOperator
