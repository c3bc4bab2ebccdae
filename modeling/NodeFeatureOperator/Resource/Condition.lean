import NodeFeatureOperator.Resource.Metadata

/-!
# Conditions

The reported state of a deployment: four conditions that all carry the same reason and message.

## Main definitions

* `Condition.sameState`: equality up to the time of the last transition.
* `Condition.available`, `Condition.degraded`, `Condition.progressing`: the three condition sets.
* `Condition.isAvailable`: whether a set reports the deployment as available.
-/

namespace NodeFeatureOperator

/-- The status of a condition. -/
inductive ConditionStatus where
  | true
  | false
  | unknown
deriving DecidableEq, Repr

namespace ConditionStatus

instance : Inhabited ConditionStatus := ⟨.unknown⟩

/-- The text of a status. -/
def text : ConditionStatus → String
  | .true => "True"
  | .false => "False"
  | .unknown => "Unknown"

/-- The status of a truth value. -/
def ofBool : Bool → ConditionStatus
  | Bool.true => .true
  | Bool.false => .false

/-- The status with a text. -/
def ofText? (s : String) : Option ConditionStatus :=
  if s = "True" then some .true
  else if s = "False" then some .false
  else if s = "Unknown" then some .unknown
  else none

/-- Reads a status: its text, or an object with the text as its only key and null under it. -/
def ofWritten? : Json.Written → Option ConditionStatus
  | .str s => ofText? s
  | .obj [(s, .null)] => ofText? s
  | _ => none

end ConditionStatus

/-- What a condition is about. -/
inductive ConditionType where
  /-- All operands are deployed and healthy. -/
  | available
  /-- Operands are rolling out. -/
  | progressing
  /-- An operand is broken or could not be observed. -/
  | degraded
  /-- The deployment can be upgraded safely. -/
  | upgradeable
deriving DecidableEq, Repr, Inhabited

namespace ConditionType

/-- The text of a type. -/
def text : ConditionType → String
  | .available => "Available"
  | .progressing => "Progressing"
  | .degraded => "Degraded"
  | .upgradeable => "Upgradeable"

/-- The types in the order in which they are reported. -/
def all : List ConditionType := [.available, .progressing, .degraded, .upgradeable]

end ConditionType

/-- A condition of a deployment. The type is a text, as conditions written by others are kept. -/
structure Condition where
  type : String
  status : ConditionStatus
  reason : String
  message : String
  lastTransition : Time
deriving DecidableEq, Repr, Inhabited

namespace Condition

/-- The names of the fields in their declared order. -/
def fieldNames : List String := ["type", "status", "reason", "message", "lastTransitionTime"]

/-- Reads a condition; all its fields are needed. -/
def ofWritten? (w : Json.Written) : Option Condition := do
  let fields ← Field.ofRecord? fieldNames 5 w
  let type ← Field.required Json.Written.text? "type" fields
  let status ← Field.required ConditionStatus.ofWritten? "status" fields
  let reason ← Field.required Json.Written.text? "reason" fields
  let message ← Field.required Json.Written.text? "message" fields
  let lastTransition ← Field.required Time.ofWritten? "lastTransitionTime" fields
  pure ⟨type, status, reason, message, lastTransition⟩

/-- Writes a condition. -/
def toJson (c : Condition) : Json :=
  .obj [
    ("lastTransitionTime", .str c.lastTransition.text),
    ("message", .str c.message),
    ("reason", .str c.reason),
    ("status", .str c.status.text),
    ("type", .str c.type)]

/-- Equality of everything but the time of the last transition. -/
def sameState (a b : Condition) : Bool :=
  a.type == b.type && a.status == b.status && a.reason == b.reason && a.message == b.message

/-- Whether two sets have the same states in the same order. -/
def sameStates (a b : List Condition) : Bool :=
  a.length == b.length && (a.zip b).all fun p => p.1.sameState p.2

/-- Whether a set reports the deployment as available. -/
def isAvailable (conditions : List Condition) : Bool :=
  conditions.any fun c => c.type == ConditionType.available.text && c.status == .true

/-- The condition set in which the types of `holding` hold and the others do not. -/
def setOf (holding : List ConditionType) (reason message : String) (time : Time) :
    List Condition :=
  ConditionType.all.map fun t =>
    ⟨t.text, .ofBool (holding.contains t), reason, message, time⟩

/-- The reason of every condition when all components are healthy. -/
def availableReason : String := "AllComponentsAvailable"

/-- The message of every condition when all components are healthy. -/
def availableMessage : String := "all NFD components are deployed and ready"

/-- Every component is deployed and ready. -/
def available (time : Time) : List Condition :=
  setOf [.available, .upgradeable] availableReason availableMessage time

/-- A component is broken or could not be observed. -/
def degraded (reason message : String) (time : Time) : List Condition :=
  setOf [.degraded] reason message time

/-- A component is still rolling out. -/
def progressing (reason message : String) (time : Time) : List Condition :=
  setOf [.progressing] reason message time

end Condition

end NodeFeatureOperator
