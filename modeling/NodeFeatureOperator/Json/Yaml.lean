import NodeFeatureOperator.Json.Printer

/-!
# YAML text of a document

A document in block style: an entry a line, items of a list at the indentation of their key, and a
text of several lines as a literal block. A text is written plainly where it reads back as itself,
and in single quotes otherwise. Texts are assumed to consist of printable characters.

## Main definitions

* `Json.yaml`: the text of a document.
-/

namespace NodeFeatureOperator

namespace Json

namespace Yaml

/-- Texts, in small letters, that would read as something else than themselves. -/
def reservedWords : List String :=
  ["", "~", "null", "true", "false", "y", "yes", "on", "n", "no", "off", ".inf", "-.inf", "+.inf",
    ".nan"]

/-- Whether a text starts like a number. -/
def looksNumeric : List Char → Bool
  | c :: d :: _ => c.isDigit || ((c = '+' || c = '-' || c = '.') && d.isDigit)
  | [c] => c.isDigit
  | [] => false

/-- Whether a character has a meaning of its own at the start of a text. -/
def isIndicator (c : Char) : Bool := "#,[]&*!|>'\"%@".toList.contains c || c.toNat ∈ [96, 123, 125]

/-- Whether a character after another one, and before the rest, ends a plain text. -/
def endsPlain (before : Option Char) (c : Char) (rest : List Char) : Bool :=
  let atEnd := match rest with
    | [] => true
    | next :: _ => next == ' '
  match before with
  | none => isIndicator c || (atEnd && (c == '-' || c == '?' || c == ':')) || c == ' '
  | some b => (c == ':' && atEnd) || (c == '#' && b == ' ') || (c == ' ' && rest.isEmpty)

/-- Whether none of the characters ends a plain text. -/
def allPlain (before : Option Char) : List Char → Bool
  | [] => true
  | c :: rest => !endsPlain before c rest && allPlain (some c) rest

/-- Whether a text of one line may be written plainly. -/
def isPlain (s : String) : Bool :=
  let cs := s.toList
  !reservedWords.contains s.toLower && !looksNumeric cs && !("---".isPrefixOf s) &&
    !("...".isPrefixOf s) && allPlain none cs

/-- A text of one line: plain, or in single quotes with quotes doubled. -/
def scalar (s : String) : String :=
  if isPlain s then s
  else String.ofList ('\'' :: s.toList.flatMap (fun c => if c = '\'' then ['\'', '\''] else [c]) ++
    ['\''])

/-- The lines of a text. -/
def linesOf : List Char → List (List Char)
  | [] => [[]]
  | c :: rest =>
    if c = '\n' then [] :: linesOf rest
    else
      match linesOf rest with
      | head :: tail => (c :: head) :: tail
      | [] => [[c]]

/-- The header of a literal block: whether its first line starts with a space, and how many line
ends follow the last line. -/
def blockHeader (cs : List Char) : String :=
  let indentation := if cs.head? = some ' ' ∨ cs.head? = some '\n' then "2" else ""
  let ending := match cs.reverse with
    | '\n' :: '\n' :: _ => "+"
    | ['\n'] => "+"
    | '\n' :: _ => ""
    | _ => "-"
  "|" ++ indentation ++ ending

/-- The lines of a literal block. -/
def blockLines (cs : List Char) : List String :=
  let lines := (linesOf cs).map String.ofList
  if cs.getLast? = some '\n' then lines.dropLast else lines

/-- A value under a key or an item mark: on the same line, on the lines below with a header, on
lines of the same indentation, or on indented lines. -/
inductive Layout where
  | inline (text : String)
  | block (header : String) (lines : List String)
  | items (lines : List String)
  | entries (lines : List String)

/-- A line with more indentation; an empty one has none. -/
def indented (line : String) : String := if line = "" then "" else "  " ++ line

/-- The lines of an entry of an object. -/
def Layout.asEntry (key : String) : Layout → List String
  | .inline text => [scalar key ++ ": " ++ text]
  | .block header lines => (scalar key ++ ": " ++ header) :: lines.map indented
  | .items lines => (scalar key ++ ":") :: lines
  | .entries lines => (scalar key ++ ":") :: lines.map indented

/-- Lines whose first one bears an item mark. -/
def marked : List String → List String
  | [] => ["-"]
  | first :: rest => ("- " ++ first) :: rest.map indented

/-- The lines of an item of a list. -/
def Layout.asItem : Layout → List String
  | .inline text => ["- " ++ text]
  | .block header lines => ("- " ++ header) :: lines.map indented
  | .items lines => marked lines
  | .entries lines => marked lines

/-- The layout of a text. -/
def ofText (s : String) : Layout :=
  let cs := s.toList
  if cs.contains '\n' then .block (blockHeader cs) (blockLines cs) else .inline (scalar s)

mutual
/-- The layout of a value. -/
def layout : Json → Layout
  | .null => .inline "null"
  | .bool b => .inline (if b then "true" else "false")
  | .num n => .inline (String.ofList (numberChars n))
  | .str s => ofText s
  | .arr [] => .inline "[]"
  | .arr items => .items (itemLines items)
  | .obj [] => .inline "\x7b\x7d"
  | .obj fields => .entries (entryLines fields)
termination_by structural j => j
/-- The lines of the items of a list. -/
def itemLines : List Json → List String
  | [] => []
  | j :: rest => (layout j).asItem ++ itemLines rest
termination_by structural l => l
/-- The lines of the entries of an object. -/
def entryLines : List (String × Json) → List String
  | [] => []
  | (key, j) :: rest => (layout j).asEntry key ++ entryLines rest
termination_by structural l => l
end

/-- The lines of a document. -/
def lines (j : Json) : List String :=
  match layout j with
  | .inline text => [text]
  | .block header lines => header :: lines.map indented
  | .items lines => lines
  | .entries lines => lines

end Yaml

/-- The text of a document. -/
def yaml (j : Json) : String := String.join ((Yaml.lines j).map (· ++ "\n"))

end Json

end NodeFeatureOperator
