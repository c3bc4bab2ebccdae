import NodeFeatureOperator.Component.Basic
import NodeFeatureOperator.Failure
import NodeFeatureOperator.Resource.NodeFeatureDiscovery

/-!
# Ownership and labels

How an object is claimed for its owner: two labels, and a controller reference. An object has at
most one controller, so one that another owner controls is left to it.

## Main definitions

* `Metadata.withLabels`: the metadata with the operator's labels.
* `Metadata.controlledBy`: the metadata with a controller reference to an owner.
-/

namespace NodeFeatureOperator

/-- The label that selects the pods of a workload. -/
def appLabel : String := "app"

/-- The label that names the manager of an object. -/
def managedByLabel : String := "app.kubernetes.io/managed-by"

/-- The name of this manager. -/
def managedByValue : String := "nfd-operator"

/-- The labels that select the pods of a workload. -/
def selectorLabels (app : String) : Dict String := [(appLabel, app)]

namespace OwnerReference

/-- Puts a reference in the place of the first one with its uid, or at the end. -/
def place (ref : OwnerReference) : List OwnerReference → List OwnerReference
  | [] => [ref]
  | r :: rest => if r.uid = ref.uid then ref :: rest else r :: place ref rest

end OwnerReference

namespace Metadata

/-- Sets the labels that select and mark a managed object; other labels stay. -/
def withLabels (app : String) (m : Metadata) : Metadata :=
  let labels := Dict.insert appLabel app (m.labels.getD [])
  { m with labels := some (Dict.insert managedByLabel managedByValue labels) }

/-- The reference of a controller other than the owner with this uid. -/
def foreignController? (uid : String) (m : Metadata) : Option OwnerReference :=
  (m.ownerReferences.getD []).find? fun r => r.isController && r.uid != uid

/-- Makes a resource the controller of an object. It fails if the resource has no name or uid yet,
and if another owner controls the object; the metadata stands beside the outcome, as a list of
references may have come into being before the failure. -/
def controlledBy (owner : NodeFeatureDiscovery) (kind : String) (m : Metadata) :
    Except Failure Unit × Metadata :=
  let target := m.name.getD ""
  match owner.ownerReference? with
  | none => (.error (.ownerReference kind target "owner has no name or uid yet"), m)
  | some ref =>
    let refs := m.ownerReferences.getD []
    match m.foreignController? ref.uid with
    | some other =>
      (.error (.ownerReference kind target
        ("already controlled by " ++ other.kind ++ " " ++ other.name)),
        { m with ownerReferences := some refs })
    | none => (.ok (), { m with ownerReferences := some (ref.place refs) })

end Metadata

end NodeFeatureOperator
