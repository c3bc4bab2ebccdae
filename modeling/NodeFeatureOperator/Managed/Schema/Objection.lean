import NodeFeatureOperator.Json.Halt
import NodeFeatureOperator.Managed.Schema

/-!
# Objections under a schema

Why a text does not read under a schema. The text is gone through once from its start, and the first
thing that is wrong is objected to, be it in the grammar or in the type of a value. Fields that the
schema does not list are skipped; the others may be null, except for a text that has to be a certain
one.

An object whose type does not read from a list is still taken for entered when a list stands there.
The list is then given up: the objection comes after its bracket, if it is closed at once. A text
that is not the certain one gives up the object around it in the same way.

## Main definitions

* `Schema.pass`: the rest of a text after a value, or the halt in it.
* `Schema.objection?`: the objection to a whole text.
-/

namespace NodeFeatureOperator

namespace Schema

open Json (Halt)
open Json.Halt (atStart atNext word)
open Json.Written (skipBlanks)

/-- The words for the value that is expected. -/
def expected : Schema → String
  | .text | .exactly _ => "a string"
  | .boolean => "a boolean"
  | .integer bits => "i" ++ toString bits
  | .integerOrText => "IntOrString"
  | .time => "an RFC 3339 formatted date and time string"
  | .bytes => "a base64-encoded string"
  | .anything => "any valid JSON value"
  | .list _ => "a sequence"
  | .dict _ => "a map"
  | .record type _ => type

/-- Whether a number starts with a character. -/
def startsNumber (c : Char) : Bool := c = '-' || c.isDigit

/-- The halt at a value of another type than the expected one. A list or an object is not
entered. -/
def otherType (expected : String) : List Char → Except Halt (List Char)
  | [] => atStart (.unfinished .value) []
  | 'n' :: rest => do
    let tail ← word ['u', 'l', 'l'] rest
    atStart (.otherType .null expected) tail
  | 't' :: rest => do
    let tail ← word ['r', 'u', 'e'] rest
    atStart (.otherType (.bool true) expected) tail
  | 'f' :: rest => do
    let tail ← word ['a', 'l', 's', 'e'] rest
    atStart (.otherType (.bool false) expected) tail
  | '"' :: rest => do
    let (s, tail) ← Halt.string rest
    atStart (.otherType (.str s) expected) tail
  | '[' :: rest => atStart (.otherType .list expected) ('[' :: rest)
  | '{' :: rest => atStart (.otherType .object expected) ('{' :: rest)
  | c :: rest =>
    if startsNumber c then do
      let (n, tail) ← Halt.number (c :: rest)
      atStart (.otherType (.num n) expected) tail
    else atNext .noValue (c :: rest)

/-- Where a list is given up whose bracket was read. -/
def afterList (s : List Char) : List Char :=
  match skipBlanks s with
  | ']' :: rest => rest
  | ',' :: rest => skipBlanks rest
  | rest => rest

/-- Where an object is given up. -/
def afterObject (s : List Char) : List Char :=
  match skipBlanks s with
  | '}' :: rest => rest
  | rest => rest

/-- The rest after a string that is accepted, or the halt behind it. -/
def passString (schema : Schema) (written : String) (tail : List Char) :
    Except Halt (List Char) :=
  match schema with
  | .text | .integerOrText | .anything => .ok tail
  | .exactly expected =>
    if written = expected then .ok tail
    else atStart (.otherValue (.str written) expected) (afterObject tail)
  | .time =>
    match Time.read written with
    | .ok _ => .ok tail
    | .error flaw => atStart (.flawed flaw.text) tail
  | .bytes =>
    if Text.isBase64 written then .ok tail
    else atStart (.otherValue (.str written) schema.expected) tail
  | _ => atStart (.otherType (.str written) schema.expected) tail

/-- The rest after a number that is accepted, or the halt behind it. -/
def passNumber (schema : Schema) (n : Number) (tail : List Char) : Except Halt (List Char) :=
  let wrong (range : String) : Except Halt (List Char) :=
    match n with
    | .int _ => atStart (.otherValue (.num n) range) tail
    | .double _ => atStart (.otherType (.num n) schema.expected) tail
  match schema with
  | .anything => .ok tail
  | .integer bits => if (n.signed? bits).isSome then .ok tail else wrong schema.expected
  | .integerOrText => if (n.signed? 32).isSome then .ok tail else wrong "a 32-bit integer"
  | _ => atStart (.otherType (.num n) schema.expected) tail

/-- The rest after a value that is neither list nor object. -/
def passLeaf (schema : Schema) (s : List Char) : Except Halt (List Char) :=
  match s, schema with
  | 'n' :: rest, .bytes | 'n' :: rest, .anything => word ['u', 'l', 'l'] rest
  | 't' :: rest, .boolean | 't' :: rest, .anything => word ['r', 'u', 'e'] rest
  | 'f' :: rest, .boolean | 'f' :: rest, .anything => word ['a', 'l', 's', 'e'] rest
  | '"' :: rest, _ => do
    let (written, tail) ← Halt.string rest
    passString schema written tail
  | c :: rest, _ =>
    if startsNumber c then do
      let (n, tail) ← Halt.number (c :: rest)
      passNumber schema n tail
    else otherType schema.expected (c :: rest)
  | [], _ => atStart (.unfinished .value) []

/-- The schema of the items of a list, if a list is accepted. -/
def item? : Schema → Option Schema
  | .list item => some item
  | .anything => some .anything
  | _ => none

/-- Whether an object is accepted. -/
def isObject : Schema → Bool
  | .dict _ | .record _ _ | .anything => true
  | _ => false

/-- Whether a list or an object that is not accepted is entered nevertheless. -/
def entersOther : Schema → Bool
  | .record _ _ | .integerOrText => true
  | _ => false

/-- The schema of a field, and whether the field may be null. -/
def field? (key : String) : Schema → Option (Bool × Schema)
  | .record _ fields =>
    match fields.lookup key with
    | some (_, .exactly expected) => some (false, .exactly expected)
    | some (_, s) => some (true, s)
    | none => none
  | .dict item => some (false, item)
  | .anything => some (false, .anything)
  | _ => none

mutual
/-- The rest of a text after a value. Each level of nesting and each item uses at least one
character and at most two units of the budget; `levels` more lists and objects may be entered. -/
def pass : Nat → Nat → Schema → List Char → Except Halt (List Char)
  | 0, _, _, s => atStart .noValue s
  | budget + 1, levels, schema, s =>
    match skipBlanks s with
    | '[' :: rest =>
      if schema.item?.isSome ∨ schema.entersOther then
        if levels = 0 then atNext .tooDeep ('[' :: rest)
        else
          match schema.item? with
          | none => atStart (.otherType .list schema.expected) (afterList rest)
          | some item =>
            match skipBlanks rest with
            | ']' :: tail => .ok tail
            | [] => atStart (.unfinished .list) []
            | start => passItems budget (levels - 1) item start
      else otherType schema.expected ('[' :: rest)
    | '{' :: rest =>
      if schema.isObject ∨ schema.entersOther then
        if levels = 0 then atNext .tooDeep ('{' :: rest)
        else if !schema.isObject then
          atStart (.otherType .object schema.expected) (afterObject rest)
        else
          match skipBlanks rest with
          | '}' :: tail => .ok tail
          | [] => atStart (.unfinished .object) []
          | start => passFields budget (levels - 1) schema start
      else otherType schema.expected ('{' :: rest)
    | start => passLeaf schema start
/-- The rest after one item or more and the closing bracket. -/
def passItems : Nat → Nat → Schema → List Char → Except Halt (List Char)
  | 0, _, _, s => atStart .noValue s
  | budget + 1, levels, item, s =>
    match skipBlanks s with
    | ']' :: rest => atNext .danglingComma (']' :: rest)
    | start => do
      let rest ← pass budget levels item start
      match skipBlanks rest with
      | ',' :: tail => passItems budget levels item tail
      | ']' :: tail => .ok tail
      | [] => atStart (.unfinished .list) []
      | tail => atNext .openList tail
/-- The rest after one field or more and the closing brace. -/
def passFields : Nat → Nat → Schema → List Char → Except Halt (List Char)
  | 0, _, _, s => atStart .noValue s
  | budget + 1, levels, schema, s =>
    match skipBlanks s with
    | '"' :: rest => do
      let (key, afterKey) ← Halt.string rest
      let start ← Halt.colon afterKey
      let rest ←
        match schema.field? key, skipBlanks start with
        | none, start => Halt.skip budget start
        | some (true, _), 'n' :: letters => word ['u', 'l', 'l'] letters
        | some (_, s), start => pass budget levels s start
      match skipBlanks rest with
      | ',' :: tail => passFields budget levels schema tail
      | '}' :: tail => .ok tail
      | [] => atStart (.unfinished .object) []
      | tail => atNext .openObject tail
    | '}' :: rest => atNext .danglingComma ('}' :: rest)
    | [] => atStart (.unfinished .value) []
    | rest => atNext .bareKey rest
end

/-- The objection to a whole text. -/
def objection? (schema : Schema) (text : String) : Option Json.Objection :=
  let document := text.toList
  let halt? : Option Halt :=
    match pass (2 * document.length + 2) Json.Written.maxDepth schema document with
    | .error h => some h
    | .ok rest =>
      match skipBlanks rest with
      | [] => none
      | tail => some ⟨.trailing, tail, 1⟩
  halt?.map (Halt.objection document)

end Schema

end NodeFeatureOperator
