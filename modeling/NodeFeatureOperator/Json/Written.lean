import NodeFeatureOperator.Json.Basic

/-!
# Values as they are written

A document may hold more than a value: a field may be written twice, and a part may follow the
grammar without being worth anything, as a number beyond all range, half a character pair, or a
list inside too many others. None of this does harm where nobody looks, so that it is the reader of
a part who decides what it means there.

## Main definitions

* `Json.Written`: a value as it is written.
* `Json.written`: the plain way to write a value.
* `Json.Written.value`: the value of a whole document, where the last of repeated fields counts.
* `Json.Written.text?` and the others: what a part is worth to a reader of one type.
-/

namespace NodeFeatureOperator

namespace Json

/-- A value as it is written. -/
inductive Written where
  /-- A part that is worth nothing. -/
  | unreadable
  | null
  | bool (value : Bool)
  | num (value : Number)
  | str (value : String)
  | arr (items : List Written)
  /-- The fields of an object in their order, repeated ones as often as they are written. -/
  | obj (fields : List (String × Written))
deriving Repr, Inhabited

mutual
/-- The plain way to write a value. -/
def written : Json → Written
  | .null => .null
  | .bool b => .bool b
  | .num n => .num n
  | .str s => .str s
  | .arr items => .arr (writtenItems items)
  | .obj fields => .obj (writtenFields fields)
termination_by structural j => j
/-- The plain way to write items. -/
def writtenItems : List Json → List Written
  | [] => []
  | j :: rest => written j :: writtenItems rest
termination_by structural l => l
/-- The plain way to write fields. -/
def writtenFields : List (String × Json) → List (String × Written)
  | [] => []
  | (key, j) :: rest => (key, written j) :: writtenFields rest
termination_by structural l => l
end

namespace Written

mutual
/-- The value of a whole document. -/
def value : Written → Option Json
  | .unreadable => none
  | .null => some .null
  | .bool b => some (.bool b)
  | .num n => some (.num n)
  | .str s => some (.str s)
  | .arr items => (valueOfItems items).map .arr
  | .obj fields => (valueOfFields [] fields).map .obj
termination_by structural w => w
/-- The values of items. -/
def valueOfItems : List Written → Option (List Json)
  | [] => some []
  | w :: rest =>
    match value w, valueOfItems rest with
    | some j, some tail => some (j :: tail)
    | _, _ => none
termination_by structural l => l
/-- The dictionary of fields, added to those already read. -/
def valueOfFields (read : Dict Json) : List (String × Written) → Option (Dict Json)
  | [] => some read
  | (key, w) :: rest =>
    match value w with
    | some j => valueOfFields (Dict.insert key j read) rest
    | none => none
termination_by structural l => l
end

mutual
/-- A document in which what lies inside more than `levels` lists and objects is unreadable. -/
def limited (levels : Nat) : Written → Written
  | .arr items =>
    match levels with
    | 0 => .unreadable
    | inner + 1 => .arr (limitedItems inner items)
  | .obj fields =>
    match levels with
    | 0 => .unreadable
    | inner + 1 => .obj (limitedFields inner fields)
  | w => w
termination_by structural w => w
/-- Items limited to a number of levels. -/
def limitedItems (levels : Nat) : List Written → List Written
  | [] => []
  | w :: rest => limited levels w :: limitedItems levels rest
termination_by structural l => l
/-- Fields limited to a number of levels. -/
def limitedFields (levels : Nat) : List (String × Written) → List (String × Written)
  | [] => []
  | (key, w) :: rest => (key, limited levels w) :: limitedFields levels rest
termination_by structural l => l
end

/-- The text of a text value. -/
def text? : Written → Option String
  | .str s => some s
  | _ => none

/-- The truth value of a boolean. -/
def bool? : Written → Option Bool
  | .bool b => some b
  | _ => none

/-- The value of an integer of at most `bits` bits in two's complement. -/
def signed? (bits : Nat) : Written → Option Int
  | .num n => n.signed? bits
  | _ => none

/-- The value of an unsigned integer of at most `bits` bits. -/
def unsigned? (bits : Nat) : Written → Option Nat
  | .num n => n.unsigned? bits
  | _ => none

/-- The fields of an object. -/
def fields? : Written → Option (List (String × Written))
  | .obj fields => some fields
  | _ => none

/-- Every item of a list, read by `read`. -/
def listOf? {α : Type} (read : Written → Option α) : Written → Option (List α)
  | .arr items => items.mapM read
  | _ => none

/-- Every value of an object, read by `read`; under a repeated key the last one counts. -/
def dictOf? {α : Type} (read : Written → Option α) : Written → Option (Dict α)
  | .obj fields =>
    fields.foldlM (fun d e => (read e.2).map fun v => Dict.insert e.1 v d) []
  | _ => none

/-- The texts of a list of texts. -/
def texts? : Written → Option (List String) := listOf? text?

/-- The entries of an object whose values are texts. -/
def textDict? : Written → Option (Dict String) := dictOf? text?

/-- A value that may be null, read by `read` if it is not. -/
def optional? {α : Type} (read : Written → Option α) : Written → Option (Option α)
  | .null => some none
  | w => (read w).map some

end Written

end Json

end NodeFeatureOperator
