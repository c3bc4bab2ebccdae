import NodeFeatureOperator.Json.Basic

/-!
# Edits of a document at a pointer

A pointer names a place in a document by the keys and positions on the way to it. An edit sets or
removes the value there. Keys missing on the way are created as empty objects; a position in a
list has to exist.

## Main definitions

* `Json.Pointer.ofText?`: the parts of a pointer's text.
* `Json.Edit.edited?`: the edited document.
-/

namespace NodeFeatureOperator

namespace Json

/-- The parts of a pointer, from the outside in. -/
abbrev Pointer := List String

namespace Pointer

/-- Undoes the escapes of a part: `~1` is a slash and `~0` a tilde. -/
def unescape : List Char → List Char
  | '~' :: '1' :: rest => '/' :: unescape rest
  | '~' :: '0' :: rest => '~' :: unescape rest
  | c :: rest => c :: unescape rest
  | [] => []

/-- The parts between the slashes of a text. -/
def parts : List Char → List (List Char)
  | [] => [[]]
  | c :: rest =>
    if c = '/' then [] :: parts rest
    else
      match parts rest with
      | head :: tail => (c :: head) :: tail
      | [] => [[c]]

/-- The pointer of a text, which starts with a slash. -/
def ofText? (text : String) : Option Pointer :=
  match text.toList with
  | '/' :: rest => some ((parts rest).map fun p => String.ofList (unescape p))
  | _ => none

/-- The position that a part names in a list: decimal digits without a leading zero. -/
def index? (part : String) : Option Nat :=
  match part.toList with
  | [] => none
  | '0' :: _ :: _ => none
  | cs => if cs.all Char.isDigit then some (cs.foldl (fun n c => n * 10 + (c.toNat - 48)) 0)
    else none

end Pointer

/-- A change of one place of a document: a new value, or none to remove what is there. -/
structure Edit where
  place : Pointer
  value : Option Json
deriving DecidableEq, Repr, Inhabited

namespace Edit

/-- Sets or removes the value at a place. A list is changed at an existing position, or at its end
by the part `-`. -/
def change (value : Option Json) : Pointer → Json → Option Json
  | [key], .obj fields =>
    some (.obj (match value with
      | some j => Dict.insert key j fields
      | none => Dict.erase key fields))
  | [part], .arr items =>
    match value with
    | some j =>
      if part = "-" then some (.arr (items ++ [j]))
      else
        match Pointer.index? part with
        | some i => if i < items.length then some (.arr (items.set i j)) else none
        | none => none
    | none =>
      match Pointer.index? part with
      | some i => if i < items.length then some (.arr (items.eraseIdx i)) else none
      | none => none
  | key :: next :: rest, .obj fields =>
    let child := (Dict.find? key fields).getD (.obj [])
    (change value (next :: rest) child).map fun j => .obj (Dict.insert key j fields)
  | part :: next :: rest, .arr items =>
    match Pointer.index? part with
    | none => none
    | some i =>
      match items[i]? with
      | none => none
      | some child => (change value (next :: rest) child).map fun j => .arr (items.set i j)
  | _, _ => none

/-- The edited document, or `none` if the place does not exist in it. -/
def edited? (e : Edit) (j : Json) : Option Json := change e.value e.place j

/-- Applies edits in order. -/
def applyAll? (edits : List Edit) (j : Json) : Option Json :=
  edits.foldlM (fun d e => e.edited? d) j

end Edit

end Json

end NodeFeatureOperator
