import NodeFeatureOperator.Managed.Object

/-!
# The state of a Job

A Job is complete once a pod has succeeded or a condition says so, and failed once a condition
says so. A Job may be both; the reader decides which counts.

## Main definitions

* `JobState.isComplete`, `JobState.isFailed`: the two verdicts.
* `JobState.failureMessage?`: why the Job failed.
-/

namespace NodeFeatureOperator

namespace Json

/-- The integer in a field, if there is one. -/
def count? (key : String) (j : Json) : Option Int := (j.field? key).bind Json.int?

/-- The items in a field, none if there is no list. -/
def itemsAt (key : String) (j : Json) : List Json := ((j.field? key).bind Json.items?).getD []

/-- The text in a field, if there is one. -/
def textAt? (key : String) (j : Json) : Option String := (j.field? key).bind Json.text?

end Json

namespace JobState

/-- Whether a condition says that a type holds. -/
def holds (type : String) (condition : Json) : Bool :=
  condition.textAt? "type" == some type && condition.textAt? "status" == some "True"

/-- The conditions of a status. -/
def conditions (status : Option Json) : List Json :=
  match status with
  | some s => s.itemsAt "conditions"
  | none => []

/-- The number of pods that succeeded. -/
def succeeded (status : Option Json) : Int := (status.bind fun s => s.count? "succeeded").getD 0

/-- Whether the Job has completed. -/
def isComplete (status : Option Json) : Bool :=
  1 ≤ succeeded status || (conditions status).any (holds "Complete")

/-- Whether the Job has failed. -/
def isFailed (status : Option Json) : Bool := (conditions status).any (holds "Failed")

/-- The message of the first condition that says so, or else its reason. -/
def failureMessage? (status : Option Json) : Option String :=
  ((conditions status).find? (holds "Failed")).bind fun c =>
    match c.textAt? "message" with
    | some m => some m
    | none => c.textAt? "reason"

end JobState

end NodeFeatureOperator
