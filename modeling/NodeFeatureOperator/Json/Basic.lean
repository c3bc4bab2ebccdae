import NodeFeatureOperator.Dict
import NodeFeatureOperator.Double.Basic
import NodeFeatureOperator.Power

/-!
# JSON values

The value type of the interchange format. Integers and numbers with a fraction are different
values even where they are numerically equal; an object is a dictionary in key order.

## Main results

* `Json.instDecidableEq`: equality of values is decidable.
* `Json.WellFormed`: the keys of every object are distinct.
-/

namespace NodeFeatureOperator

/-- A number of a document: an integer, or a number that was written with a fraction, with an
exponent, or beyond the integer range. -/
inductive Number where
  | int (value : Int)
  | double (value : Double)
deriving DecidableEq, Repr, Inhabited

namespace Number

/-- Equality of numbers as values: an integer never equals a double, the two zero doubles do. -/
def same : Number → Number → Bool
  | .int a, .int b => a == b
  | .double a, .double b => a.same b
  | _, _ => false

/-- Whether the number is zero. -/
def isZero : Number → Bool
  | .int a => a == 0
  | .double a => a.isZero

/-- The value of an integer of at most `bits` bits in two's complement; a double is none, whatever
its value. -/
def signed? (bits : Nat) : Number → Option Int
  | .int i => if -(twoTo (bits - 1) : Int) ≤ i ∧ i < twoTo (bits - 1) then some i else none
  | .double _ => none

/-- The value of an unsigned integer of at most `bits` bits. -/
def unsigned? (bits : Nat) : Number → Option Nat
  | .int i => if 0 ≤ i ∧ i < twoTo bits then some i.toNat else none
  | .double _ => none

end Number

/-- A JSON value. -/
inductive Json where
  | null
  | bool (value : Bool)
  | num (value : Number)
  | str (value : String)
  | arr (items : List Json)
  | obj (fields : List (String × Json))
deriving Repr, Inhabited

namespace Json

mutual
/-- Decides equality of values. -/
def decEq : (a b : Json) → Decidable (a = b)
  | .null, .null => isTrue rfl
  | .bool a, .bool b =>
    if h : a = b then isTrue (h ▸ rfl) else isFalse fun e => h (Json.bool.inj e)
  | .num a, .num b =>
    if h : a = b then isTrue (h ▸ rfl) else isFalse fun e => h (Json.num.inj e)
  | .str a, .str b =>
    if h : a = b then isTrue (h ▸ rfl) else isFalse fun e => h (Json.str.inj e)
  | .arr a, .arr b =>
    match decEqItems a b with
    | isTrue h => isTrue (h ▸ rfl)
    | isFalse h => isFalse fun e => h (Json.arr.inj e)
  | .obj a, .obj b =>
    match decEqFields a b with
    | isTrue h => isTrue (h ▸ rfl)
    | isFalse h => isFalse fun e => h (Json.obj.inj e)
  | .null, .bool _ | .null, .num _ | .null, .str _ | .null, .arr _ | .null, .obj _ => isFalse nofun
  | .bool _, .null | .bool _, .num _ | .bool _, .str _ | .bool _, .arr _ | .bool _, .obj _ =>
    isFalse nofun
  | .num _, .null | .num _, .bool _ | .num _, .str _ | .num _, .arr _ | .num _, .obj _ =>
    isFalse nofun
  | .str _, .null | .str _, .bool _ | .str _, .num _ | .str _, .arr _ | .str _, .obj _ =>
    isFalse nofun
  | .arr _, .null | .arr _, .bool _ | .arr _, .num _ | .arr _, .str _ | .arr _, .obj _ =>
    isFalse nofun
  | .obj _, .null | .obj _, .bool _ | .obj _, .num _ | .obj _, .str _ | .obj _, .arr _ =>
    isFalse nofun
termination_by structural a => a
/-- Decides equality of lists of values. -/
def decEqItems : (a b : List Json) → Decidable (a = b)
  | [], [] => isTrue rfl
  | [], _ :: _ => isFalse nofun
  | _ :: _, [] => isFalse nofun
  | a :: as, b :: bs =>
    match decEq a b, decEqItems as bs with
    | isTrue h, isTrue hs => isTrue (h ▸ hs ▸ rfl)
    | isFalse h, _ => isFalse fun e => h (List.cons.inj e).1
    | _, isFalse hs => isFalse fun e => hs (List.cons.inj e).2
termination_by structural a => a
/-- Decides equality of lists of fields. -/
def decEqFields : (a b : List (String × Json)) → Decidable (a = b)
  | [], [] => isTrue rfl
  | [], _ :: _ => isFalse nofun
  | _ :: _, [] => isFalse nofun
  | (k, a) :: as, (l, b) :: bs =>
    if hk : k = l then
      match decEq a b, decEqFields as bs with
      | isTrue h, isTrue hs => isTrue (hk ▸ h ▸ hs ▸ rfl)
      | isFalse h, _ => isFalse fun e => h (Prod.mk.inj (List.cons.inj e).1).2
      | _, isFalse hs => isFalse fun e => hs (List.cons.inj e).2
    else isFalse fun e => hk (Prod.mk.inj (List.cons.inj e).1).1
termination_by structural a => a
end

instance instDecidableEq : DecidableEq Json := decEq

mutual
/-- The keys of every object in the value are distinct. -/
def WellFormed : Json → Prop
  | .arr items => WellFormedItems items
  | .obj fields => (fields.map Prod.fst).Nodup ∧ WellFormedFields fields
  | _ => True
termination_by structural j => j
/-- Every item is well formed. -/
def WellFormedItems : List Json → Prop
  | [] => True
  | j :: rest => WellFormed j ∧ WellFormedItems rest
termination_by structural l => l
/-- Every field's value is well formed. -/
def WellFormedFields : List (String × Json) → Prop
  | [] => True
  | (_, j) :: rest => WellFormed j ∧ WellFormedFields rest
termination_by structural l => l
end

/-- An integer value. -/
def int (value : Int) : Json := .num (.int value)

/-- A list of texts. -/
def texts (items : List String) : Json := .arr (items.map .str)

/-- An object whose values are texts. -/
def textDict (entries : Dict String) : Json := .obj (Dict.mapValues .str entries)

/-- An object of the fields that are present. -/
def record (fields : List (String × Option Json)) : Json := .obj (Dict.present fields)

/-- The field of an object; nothing else has fields. -/
def field? (key : String) : Json → Option Json
  | .obj fields => Dict.find? key fields
  | _ => none

/-- The text of a text value. -/
def text? : Json → Option String
  | .str s => some s
  | _ => none

/-- The items of a list. -/
def items? : Json → Option (List Json)
  | .arr items => some items
  | _ => none

/-- The fields of an object. -/
def fields? : Json → Option (Dict Json)
  | .obj fields => some fields
  | _ => none

/-- The value of an integer; a double is none, whatever its value. -/
def int? : Json → Option Int
  | .num (.int i) => some i
  | _ => none

/-- The value of an unsigned integer of at most `bits` bits. -/
def unsigned? (bits : Nat) : Json → Option Nat
  | .num n => n.unsigned? bits
  | _ => none

end Json

end NodeFeatureOperator
