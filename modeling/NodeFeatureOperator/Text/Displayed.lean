/-!
# Text as it is displayed

What is left of a text for a reader that is no terminal: control characters are dropped, and so are
the control sequences by which a terminal would be told to change colours or to move. Blanks and
line ends stay, as do all characters beyond the ASCII range.

A sequence starts with an escape character. A line end inside it is shown all the same, and with it
everything up to the next control character, where the sequence goes on.

## Main definitions

* `Text.Sequence`: how far a control sequence has been read.
* `Text.displayed`: the characters of a text that are displayed.
-/

namespace NodeFeatureOperator

namespace Text

/-- How far a control sequence has been read. -/
inductive Sequence where
  /-- There is none. -/
  | plain
  /-- After the escape character. -/
  | started
  /-- After a sign that says which sort of short sequence follows. -/
  | designated
  /-- Among the parameters of a control function. -/
  | control
  /-- At the start of a command to a device. -/
  | device
  /-- Among the parameters of a command to a device. -/
  | deviceParameter
  /-- Among the signs between these parameters and what they are for. -/
  | deviceSign
  /-- In a text that a device takes. -/
  | payload
  /-- In a command to the system of the terminal, such as a window title. -/
  | system
deriving DecidableEq, Repr, Inhabited

/-- The character that starts a sequence. -/
def escapeChar : Char := '\x1b'

/-- Whether a character breaks a sequence off. -/
def breaksOff (c : Char) : Bool := c = '\x18' || c = '\x1a'

/-- Whether a character lies in a range. -/
def within (low high c : Char) : Bool := low ≤ c && c ≤ high

/-- Whether a character ends a sequence and says what it was for. -/
def isFinal (c : Char) : Bool := within '@' '~' c

/-- Whether the encoding of a character holds the byte that ends a text for a device. -/
def endsPayload (c : Char) : Bool :=
  127 < c.toNat && (String.singleton c).toUTF8.toList.contains 0x9c

namespace Sequence

/-- Where a sequence stands after a character. -/
def next (s : Sequence) (c : Char) : Sequence :=
  if c = escapeChar then .started
  else if breaksOff c then .plain
  else
    match s with
    | .plain => .plain
    | .started =>
      if within ' ' '/' c then .designated
      else if c = '[' then .control
      else if c = ']' then .system
      else if c = 'P' then .device
      else if c = 'X' || c = '^' || c = '_' then .payload
      else if within '0' '~' c then .plain
      else .started
    | .designated => if within '0' '~' c then .plain else .designated
    | .control => if isFinal c then .plain else .control
    | .device =>
      if within ' ' '/' c then .deviceSign
      else if within '0' '?' c then .deviceParameter
      else if isFinal c then .payload
      else .device
    | .deviceParameter =>
      if within ' ' '/' c then .deviceSign
      else if within '<' '~' c then .payload
      else .deviceParameter
    | .deviceSign => if within '0' '~' c then .payload else .deviceSign
    | .payload => if endsPayload c then .plain else .payload
    | .system => if c = '\x07' then .plain else .system

/-- Whether line ends are shown where a sequence stands. -/
def showsLineEnds : Sequence → Bool
  | .plain | .started | .designated | .control => true
  | _ => false

end Sequence

/-- The control characters that are shown. -/
def isLineEnd (c : Char) : Bool := c = '\t' || c = '\n' || c = '\x0c' || c = '\r'

/-- Whether a character is shown outside sequences. -/
def isShown (c : Char) : Bool := isLineEnd c || (' ' ≤ c && c ≠ '\x7f')

/-- Where the sequence stands once a character has been shown: a character beyond the ASCII range
ends it. -/
def afterShown (s : Sequence) (c : Char) : Sequence := if 127 < c.toNat then .plain else s

/-- The characters that are displayed, from a point on. `showing` says that the character before
this point was shown; then so is this one, unless it is a control character. -/
def displayedFrom : Bool → Sequence → List Char → List Char
  | _, _, [] => []
  | showing, s, c :: rest =>
    if showing && isShown c then c :: displayedFrom true (afterShown s c) rest
    else
      let shown := match s with
        | .plain => isShown c
        | _ => s.showsLineEnds && isLineEnd c
      if shown then c :: displayedFrom true (afterShown s c) rest
      else displayedFrom false (s.next c) rest

/-- The characters of a text that are displayed. -/
def displayed (s : String) : String := String.ofList (displayedFrom false .plain s.toList)

end Text

end NodeFeatureOperator
