import NodeFeatureOperator.Managed.Object

/-!
# Drift

Whether a live value still carries everything that a desired value sets. Fields that only the live
value has do not count, and neither does a missing field whose desired value is zero, as servers
leave those out. Lists have to agree item by item.

## Main definitions

* `Json.covers`: the relation between a live and a desired value.
* `ManagedObject.carries`: the same for objects.
-/

namespace NodeFeatureOperator

namespace Json

/-- Whether a value is the zero of its type. -/
def isZero : Json → Bool
  | .null => true
  | .bool b => !b
  | .num n => n.isZero
  | .str s => s.isEmpty
  | .arr items => items.isEmpty
  | .obj fields => fields.isEmpty

/-- Equality of values that are not both lists and not both objects. -/
def sameScalar : Json → Json → Bool
  | .bool a, .bool b => a == b
  | .num a, .num b => a.same b
  | .str a, .str b => a == b
  | _, _ => false

mutual
/-- Whether a live value carries all that a desired value sets. -/
def covers (live : Json) : Json → Bool
  | .obj want =>
    match live with
    | .obj fields => coversFields fields want
    | .null => want.isEmpty
    | _ => false
  | .arr want =>
    match live with
    | .arr items => coversItems items want
    | .null => want.isEmpty
    | _ => false
  | want =>
    match live with
    | .null => want.isZero
    | _ => sameScalar live want
termination_by structural want => want
/-- Whether live fields carry all desired ones. -/
def coversFields (live : Dict Json) : List (String × Json) → Bool
  | [] => true
  | (key, want) :: rest =>
    (match Dict.find? key live with
      | some l => covers l want
      | none => want.isZero) && coversFields live rest
termination_by structural want => want
/-- Whether live items carry the desired ones, one by one. -/
def coversItems (live : List Json) : List Json → Bool
  | [] => live.isEmpty
  | want :: rest =>
    match live with
    | [] => false
    | l :: others => covers l want && coversItems others rest
termination_by structural want => want
end

end Json

/-- Whether a live object carries all that a desired object sets. -/
def ManagedObject.carries (live desired : ManagedObject) : Bool :=
  live.toJson.covers desired.toJson

end NodeFeatureOperator
