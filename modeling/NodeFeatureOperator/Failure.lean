import NodeFeatureOperator.Duration
import NodeFeatureOperator.Json.Objection

/-!
# Failures

What can go wrong in a pass, as a tree: a refusal or breakdown of the cluster interface, a failure
of the operator's own, one of these on a component, or several of them joined.

## Main definitions

* `Failure.message`: the text of a failure.
* `Failure.isRetryable`, `Failure.isNotFound`, `Failure.isConflict`: its classification.
* `Failure.join`: one failure for those collected over a pass.
-/

namespace NodeFeatureOperator

/-- A refusal by the cluster interface, as its error document gives it. -/
structure Refusal where
  status : String
  message : String
  reason : String
  code : Nat
deriving DecidableEq, Repr, Inhabited

/-- The text of a refusal: message and reason, then the whole document. -/
def Refusal.text (r : Refusal) : String :=
  "ApiError: " ++ r.message ++ ": " ++ r.reason ++ " (ErrorResponse \x7b status: " ++
    Text.quoted r.status ++ ", message: " ++ Text.quoted r.message ++ ", reason: " ++
    Text.quoted r.reason ++ ", code: " ++ toString r.code ++ " \x7d)"

/-- A breakdown on the way to the cluster interface and back. -/
inductive Breakdown where
  /-- A stream of documents ended within a line. -/
  | brokenStream
  /-- A request could not be made up. -/
  | invalidRequest (message : String)
  /-- The service did not answer. -/
  | noAnswer (message : String)
  /-- An answer is not a document of the type asked for; what is objected to is known for managed
  objects. -/
  | undecodable (objection : Option Json.Objection)
deriving DecidableEq, Repr, Inhabited

/-- The text of a breakdown. -/
def Breakdown.text : Breakdown → String
  | .brokenStream => "Error finding newline character"
  | .invalidRequest message => "Failed to build request: " ++ message
  | .noAnswer message => "ServiceError: " ++ message
  | .undecodable none => "Error deserializing response"
  | .undecodable (some objection) => "Error deserializing response: " ++ objection.text

/-- A failure of the operator. -/
inductive Failure where
  /-- The cluster interface refused a request. -/
  | refused (refusal : Refusal)
  /-- A request or its answer was lost. -/
  | broken (breakdown : Breakdown)
  /-- A managed component failed to converge. -/
  | component (label name ns : String) (source : Failure)
  /-- The controller reference of a managed object could not be set. -/
  | ownerReference (kind name message : String)
  /-- The prune Job ran and failed. -/
  | pruneJobFailed (ns name message : String)
  /-- A bounded wait expired. -/
  | timeout (operation : String) (after : Duration)
  /-- A document could not be written or read. -/
  | serialization (message : String)
  /-- The operator contradicts itself. -/
  | internal (message context : String)
  /-- Several failures of one pass. -/
  | multiple (parts : List Failure)
deriving Repr, Inhabited

namespace Failure

/-- The context of an internal failure that names none. -/
def unknownContext : String := "unknown"

mutual
/-- The text of a failure. -/
def message : Failure → String
  | .refused r => "kubernetes error: " ++ r.text
  | .broken b => "kubernetes error: " ++ b.text
  | .component label name ns source =>
    label ++ " " ++ ns ++ "/" ++ name ++ ": " ++ message source
  | .ownerReference kind name m =>
    "cannot set owner reference on " ++ kind ++ " " ++ name ++ ": " ++ m
  | .pruneJobFailed ns name m =>
    "prune job " ++ ns ++ "/" ++ name ++ " failed: " ++ m
  | .timeout operation after => "timed out after " ++ after.text ++ " waiting for " ++ operation
  | .serialization m => "serialization error: " ++ m
  | .internal m context => "internal error [" ++ context ++ "]: " ++ m
  | .multiple parts => "; ".intercalate (messages parts)
termination_by structural f => f
/-- The texts of several failures. -/
def messages : List Failure → List String
  | [] => []
  | f :: rest => message f :: messages rest
termination_by structural l => l
end

/-- Whether a refusal may resolve by itself: all but the codes from 400 to 499, and 409. -/
def Refusal.isRetryable (r : Refusal) : Bool :=
  !(400 ≤ r.code ∧ r.code < 500 ∧ r.code ≠ 409)

mutual
/-- Whether a later pass may succeed. Several failures are worth a retry if one of them is. -/
def isRetryable : Failure → Bool
  | .refused r => Refusal.isRetryable r
  | .broken _ => true
  | .component _ _ _ source => isRetryable source
  | .ownerReference _ _ _ => false
  | .pruneJobFailed _ _ _ => false
  | .timeout _ _ => true
  | .serialization _ => false
  | .internal _ _ => true
  | .multiple parts => anyRetryable parts
termination_by structural f => f
/-- Whether one of several failures is worth a retry. -/
def anyRetryable : List Failure → Bool
  | [] => false
  | f :: rest => isRetryable f || anyRetryable rest
termination_by structural l => l
end

/-- Whether the object asked for does not exist. -/
def isNotFound : Failure → Bool
  | .refused r => r.code == 404
  | .component _ _ _ source => isNotFound source
  | _ => false

/-- Whether a write was refused because the object had changed. -/
def isConflict : Failure → Bool
  | .refused r => r.code == 409
  | .component _ _ _ source => isConflict source
  | _ => false

mutual
/-- Whether an answer that could not be decoded is behind the failure. -/
def isUndecodable : Failure → Bool
  | .broken (.undecodable _) => true
  | .component _ _ _ source => isUndecodable source
  | .multiple parts => anyUndecodable parts
  | _ => false
termination_by structural f => f
/-- Whether such an answer is behind one of several failures. -/
def anyUndecodable : List Failure → Bool
  | [] => false
  | f :: rest => isUndecodable f || anyUndecodable rest
termination_by structural l => l
end

/-- One failure for a list of them: none for none, a single one itself. -/
def join : List Failure → Option Failure
  | [] => none
  | [f] => some f
  | parts => some (.multiple parts)

/-- The outcome of a pass over the failures collected in it. -/
def joined (failures : List Failure) : Except Failure Unit :=
  match join failures with
  | none => .ok ()
  | some f => .error f

end Failure

end NodeFeatureOperator
