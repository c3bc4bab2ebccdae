import NodeFeatureOperator.Resource.Field
import NodeFeatureOperator.Time.Reader

/-!
# Object metadata

The identity of an object in the cluster and what every object carries: labels, annotations,
finalizers, references to its owners, and the version that guards a write.

## Main definitions

* `OwnerReference`, `Metadata`: the data.
* `Metadata.ofWritten?`, `Metadata.toJson`: reading and writing.
-/

namespace NodeFeatureOperator

/-- A reference to an object that owns another one. -/
structure OwnerReference where
  apiVersion : String
  kind : String
  name : String
  uid : String
  controller : Option Bool := none
  blockOwnerDeletion : Option Bool := none
deriving DecidableEq, Repr, Inhabited

namespace OwnerReference

/-- Whether the owner controls the object. -/
def isController (r : OwnerReference) : Bool := r.controller == some true

/-- Reads a reference; a missing text is empty. -/
def ofWritten? (w : Json.Written) : Option OwnerReference := do
  let fields ← w.fields?
  let apiVersion ← Field.text "apiVersion" fields
  let blockOwnerDeletion ← Field.optional Json.Written.bool? "blockOwnerDeletion" fields
  let controller ← Field.optional Json.Written.bool? "controller" fields
  let kind ← Field.text "kind" fields
  let name ← Field.text "name" fields
  let uid ← Field.text "uid" fields
  pure ⟨apiVersion, kind, name, uid, controller, blockOwnerDeletion⟩

/-- Writes a reference. -/
def toJson (r : OwnerReference) : Json :=
  .record [
    ("apiVersion", some (.str r.apiVersion)),
    ("blockOwnerDeletion", r.blockOwnerDeletion.map .bool),
    ("controller", r.controller.map .bool),
    ("kind", some (.str r.kind)),
    ("name", some (.str r.name)),
    ("uid", some (.str r.uid))]

end OwnerReference

/-- A record of which fields a writer manages. -/
structure ManagedFields where
  apiVersion : Option String := none
  fieldsType : Option String := none
  fieldsV1 : Option Json := none
  manager : Option String := none
  operation : Option String := none
  subresource : Option String := none
  time : Option Time := none
deriving DecidableEq, Repr, Inhabited

/-- Reads a point in time. -/
def Time.ofWritten? (w : Json.Written) : Option Time := w.text?.bind Time.ofText?

/-- Writes a point in time to the second. -/
def Time.toSecondJson (t : Time) : Json := .str t.wholeSeconds

namespace ManagedFields

/-- Reads a record of managed fields. -/
def ofWritten? (w : Json.Written) : Option ManagedFields := do
  let fields ← w.fields?
  let apiVersion ← Field.optionalText "apiVersion" fields
  let fieldsType ← Field.optionalText "fieldsType" fields
  let fieldsV1 ← Field.optional Json.Written.value "fieldsV1" fields
  let manager ← Field.optionalText "manager" fields
  let operation ← Field.optionalText "operation" fields
  let subresource ← Field.optionalText "subresource" fields
  let time ← Field.optional Time.ofWritten? "time" fields
  pure ⟨apiVersion, fieldsType, fieldsV1, manager, operation, subresource, time⟩

/-- Writes a record of managed fields. -/
def toJson (m : ManagedFields) : Json :=
  .record [
    ("apiVersion", m.apiVersion.map .str),
    ("fieldsType", m.fieldsType.map .str),
    ("fieldsV1", m.fieldsV1),
    ("manager", m.manager.map .str),
    ("operation", m.operation.map .str),
    ("subresource", m.subresource.map .str),
    ("time", m.time.map Time.toSecondJson)]

end ManagedFields

/-- The metadata of an object. Every part may be absent, and an empty part is not an absent
one. -/
structure Metadata where
  name : Option String := none
  generateName : Option String := none
  ns : Option String := none
  uid : Option String := none
  resourceVersion : Option String := none
  selfLink : Option String := none
  labels : Option (Dict String) := none
  annotations : Option (Dict String) := none
  finalizers : Option (List String) := none
  ownerReferences : Option (List OwnerReference) := none
  creationTimestamp : Option Time := none
  deletionTimestamp : Option Time := none
  deletionGracePeriodSeconds : Option Int := none
  generation : Option Int := none
  managedFields : Option (List ManagedFields) := none
deriving DecidableEq, Repr, Inhabited

namespace Metadata

/-- Reads metadata: an object with optional fields; fields of other names do not count. -/
def ofWritten? (w : Json.Written) : Option Metadata := do
  let fields ← w.fields?
  let name ← Field.optionalText "name" fields
  let generateName ← Field.optionalText "generateName" fields
  let ns ← Field.optionalText "namespace" fields
  let uid ← Field.optionalText "uid" fields
  let resourceVersion ← Field.optionalText "resourceVersion" fields
  let selfLink ← Field.optionalText "selfLink" fields
  let labels ← Field.optional Json.Written.textDict? "labels" fields
  let annotations ← Field.optional Json.Written.textDict? "annotations" fields
  let finalizers ← Field.optional Json.Written.texts? "finalizers" fields
  let ownerReferences ←
    Field.optional (Json.Written.listOf? OwnerReference.ofWritten?) "ownerReferences" fields
  let creationTimestamp ← Field.optional Time.ofWritten? "creationTimestamp" fields
  let deletionTimestamp ← Field.optional Time.ofWritten? "deletionTimestamp" fields
  let deletionGracePeriodSeconds ←
    Field.optional (Json.Written.signed? 64) "deletionGracePeriodSeconds" fields
  let generation ← Field.optional (Json.Written.signed? 64) "generation" fields
  let managedFields ←
    Field.optional (Json.Written.listOf? ManagedFields.ofWritten?) "managedFields" fields
  pure ⟨name, generateName, ns, uid, resourceVersion, selfLink, labels, annotations, finalizers,
    ownerReferences, creationTimestamp, deletionTimestamp, deletionGracePeriodSeconds,
    generation, managedFields⟩

/-- Reads metadata from a value. -/
def ofJson? (j : Json) : Option Metadata := ofWritten? j.written

/-- Writes metadata; absent parts are left out. -/
def toJson (m : Metadata) : Json :=
  .record [
    ("annotations", m.annotations.map .textDict),
    ("creationTimestamp", m.creationTimestamp.map Time.toSecondJson),
    ("deletionGracePeriodSeconds", m.deletionGracePeriodSeconds.map .int),
    ("deletionTimestamp", m.deletionTimestamp.map Time.toSecondJson),
    ("finalizers", m.finalizers.map .texts),
    ("generateName", m.generateName.map .str),
    ("generation", m.generation.map .int),
    ("labels", m.labels.map .textDict),
    ("managedFields", m.managedFields.map fun l => .arr (l.map ManagedFields.toJson)),
    ("name", m.name.map .str),
    ("namespace", m.ns.map .str),
    ("ownerReferences", m.ownerReferences.map fun l => .arr (l.map OwnerReference.toJson)),
    ("resourceVersion", m.resourceVersion.map .str),
    ("selfLink", m.selfLink.map .str),
    ("uid", m.uid.map .str)]

/-- The name by which messages call the object: its own, or the one it was to be generated
from. -/
def anyName (m : Metadata) : String :=
  match m.name, m.generateName with
  | some name, _ => name
  | none, some name => name
  | none, none => ""

end Metadata

end NodeFeatureOperator
