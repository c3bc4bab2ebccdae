import NodeFeatureOperator.Managed.Kind
import NodeFeatureOperator.Managed.Schema.Workload

/-!
# Whole documents

The schemas of the managed objects. Interface version and kind may be missing, but not differ.

## Main definitions

* `Schema.document`: the schema of the objects of a kind.
-/

namespace NodeFeatureOperator

namespace Schema

/-- The fields that only the objects of a kind have. -/
def contentFields : ResourceKind → List (String × Presence × Schema)
  | .configMap => [opt "binaryData" (.dict .bytes), optDict "data", optFlag "immutable"]
  | .daemonSet => [opt "spec" daemonSetSpec, opt "status" daemonSetStatus]
  | .deployment => [opt "spec" deploymentSpec, opt "status" deploymentStatus]
  | .job => [opt "spec" jobSpec, opt "status" jobStatus]

/-- The schema of the objects of a kind. -/
def document (kind : ResourceKind) : Schema :=
  .record kind.text (opt "apiVersion" (.exactly kind.apiVersion) ::
    opt "kind" (.exactly kind.text) :: opt "metadata" objectMeta :: contentFields kind)

end Schema

end NodeFeatureOperator
