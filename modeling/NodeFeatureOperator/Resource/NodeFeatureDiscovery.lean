import NodeFeatureOperator.Resource.Condition
import NodeFeatureOperator.Resource.Spec

/-!
# The NodeFeatureDiscovery resource

One deployment of the operands in its namespace: metadata, desired state, and the conditions that
the operator reports.

## Main definitions

* `NodeFeatureDiscovery`: the resource.
* `NodeFeatureDiscovery.ofWritten?`, `NodeFeatureDiscovery.toJson`: reading and writing.
* `NodeFeatureDiscovery.ownerReference?`: the reference by which it controls an object.
-/

namespace NodeFeatureOperator

/-- A deployment of the operands. An absent status is not an empty one. -/
structure NodeFeatureDiscovery where
  metadata : Metadata
  spec : Spec
  status : Option (List Condition) := none
deriving DecidableEq, Repr, Inhabited

namespace NodeFeatureDiscovery

/-- The interface group of the resource. -/
def group : String := "nfd.kubernetes.io"

/-- The version of the resource in its group. -/
def version : String := "v1"

/-- The interface version of the resource. -/
def apiVersion : String := "nfd.kubernetes.io/v1"

/-- The plural by which paths name resources of the kind. -/
def plural : String := "nodefeaturediscoveries"

/-- The kind of the resource. -/
def kind : String := "NodeFeatureDiscovery"

/-- The finalizer that keeps a resource until its managed objects are gone. -/
def finalizer : String := "nfd.kubernetes.io/finalizer"

/-- Whether the operator's finalizer is present. -/
def hasFinalizer (n : NodeFeatureDiscovery) : Bool :=
  match n.metadata.finalizers with
  | some list => list.contains finalizer
  | none => false

/-- Whether deletion has been requested. -/
def isDeleting (n : NodeFeatureDiscovery) : Bool := n.metadata.deletionTimestamp.isSome

/-- The reported conditions, none before the first report. -/
def conditions (n : NodeFeatureDiscovery) : List Condition := n.status.getD []

/-- The namespace, empty when it is absent. -/
def ns (n : NodeFeatureDiscovery) : String := n.metadata.ns.getD ""

/-- The name, empty when it is absent. -/
def name (n : NodeFeatureDiscovery) : String := n.metadata.name.getD ""

/-- The reference by which the resource controls an object; it takes a name and a uid, of which
each may be empty but not absent. -/
def ownerReference? (n : NodeFeatureDiscovery) : Option OwnerReference :=
  match n.metadata.name, n.metadata.uid with
  | some name, some uid =>
    some { apiVersion := apiVersion, kind := kind, name := name, uid := uid,
           controller := some true }
  | _, _ => none

/-- Reads a status. -/
def statusOfWritten? (w : Json.Written) : Option (List Condition) := do
  let fields ← Field.ofRecord? ["conditions"] 0 w
  Field.defaulted [] (Json.Written.listOf? Condition.ofWritten?) "conditions" fields

/-- Writes a status; conditions are left out when there are none. -/
def statusToJson (conditions : List Condition) : Json :=
  .record [("conditions", Spec.unlessEmpty Condition.toJson conditions)]

/-- Reads a resource. Metadata and desired state are needed; interface version and kind are not
looked at. -/
def ofWritten? (w : Json.Written) : Option NodeFeatureDiscovery := do
  let fields ← Field.ofRecord? ["metadata", "spec", "status"] 3 w
  let metadata ← Field.required Metadata.ofWritten? "metadata" fields
  let spec ← Field.required Spec.ofWritten? "spec" fields
  let status ← Field.optional statusOfWritten? "status" fields
  pure ⟨metadata, spec, status⟩

/-- Reads a resource from a value. -/
def ofJson? (j : Json) : Option NodeFeatureDiscovery := ofWritten? j.written

/-- Reads a resource from text. -/
def ofText? (text : String) : Option NodeFeatureDiscovery :=
  (Json.Written.ofText? text).bind ofWritten?

/-- Writes a resource. -/
def toJson (n : NodeFeatureDiscovery) : Json :=
  .record [
    ("apiVersion", some (.str apiVersion)),
    ("kind", some (.str kind)),
    ("metadata", some n.metadata.toJson),
    ("spec", some n.spec.toJson),
    ("status", n.status.map statusToJson)]

end NodeFeatureDiscovery

end NodeFeatureOperator
