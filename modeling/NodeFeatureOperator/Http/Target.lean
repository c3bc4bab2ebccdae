/-!
# Request targets

The target of a request: a path, and perhaps a query after a question mark. Names are put into it
as they are, so that it may contain characters that no target can have; what follows a number sign
is not sent.

## Main definitions

* `Http.Target.check`: the part of a text that is sent as a target, or why there is none.
-/

namespace NodeFeatureOperator

namespace Http

/-- Why a text is no target. -/
inductive TargetError where
  | tooLong
  | invalidCharacter
deriving DecidableEq, Repr, Inhabited

/-- The text of an error. -/
def TargetError.text : TargetError → String
  | .tooLong => "uri too long"
  | .invalidCharacter => "invalid uri character"

namespace Target

/-- The greatest number of bytes of a target. -/
def maxBytes : Nat := 65534

/-- Whether a character is one that can be seen, or lies beyond the ASCII range. -/
def isGraphic (c : Char) : Bool := '!' ≤ c && c != '\x7f'

/-- Whether a character may stand in a query. -/
def inQuery (c : Char) : Bool :=
  isGraphic c && c != '"' && c != '#' && c != '<' && c != '>'

/-- Whether a character may stand in a path. Braces and a double quote may, although they should
be encoded. -/
def inPath (c : Char) : Bool :=
  isGraphic c && c != '#' && c != '<' && c != '>' && c != '?' && c != Char.ofNat 96

/-- The query from a point on, up to a number sign. -/
def queryFrom : List Char → Except TargetError (List Char)
  | [] => .ok []
  | c :: rest =>
    if c = '#' then .ok []
    else if inQuery c then (queryFrom rest).map (c :: ·)
    else .error .invalidCharacter

/-- The path from a point on, and the query that follows it. -/
def pathFrom : List Char → Except TargetError (List Char)
  | [] => .ok []
  | c :: rest =>
    if c = '?' then (queryFrom rest).map (c :: ·)
    else if c = '#' then .ok []
    else if inPath c then (pathFrom rest).map (c :: ·)
    else .error .invalidCharacter

/-- The part of a text that is sent as a target. -/
def check (text : String) : Except TargetError String :=
  if maxBytes < text.utf8ByteSize then .error .tooLong
  else (pathFrom text.toList).map String.ofList

end Target

end Http

end NodeFeatureOperator
