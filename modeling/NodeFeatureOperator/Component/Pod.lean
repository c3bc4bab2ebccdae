import NodeFeatureOperator.Component.Basic
import NodeFeatureOperator.Component.Ownership
import NodeFeatureOperator.Resource.Spec

/-!
# Pieces of pods

What the pods of the components share: tolerations, the preference for control-plane nodes,
security contexts, environment and mounts. Fields are written in key order.

## Main definitions

* `Pod.controlPlaneTolerations`, `Pod.workerTolerations`: the tolerations of the two sorts of pods.
* `Pod.controlPlaneAffinity`: the preference for control-plane nodes.
* `Pod.restrictedSecurity`, `Pod.privilegedSecurity`: the security contexts.
* `Pod.template`: a pod template around a pod.
-/

namespace NodeFeatureOperator

namespace Pod

/-- The older label of control-plane nodes. -/
def masterRole : String := "node-role.kubernetes.io/master"

/-- The label of control-plane nodes. -/
def controlPlaneRole : String := "node-role.kubernetes.io/control-plane"

/-- The toleration of the taint of a node role. -/
def roleToleration (role : String) : Toleration :=
  { key := some role, operator := some "Equal", value := some "", effect := some "NoSchedule" }

/-- The toleration of every taint that keeps pods from being scheduled. -/
def everyNodeToleration : Toleration :=
  { operator := some "Exists", effect := some "NoSchedule" }

/-- The tolerations of control-plane pods: those of the two roles, then the user's in order. -/
def controlPlaneTolerations (s : Spec) : List Toleration :=
  roleToleration masterRole :: roleToleration controlPlaneRole :: s.tolerations

/-- The tolerations of worker pods: every node's, then the user's in order. -/
def workerTolerations (s : Spec) : List Toleration := everyNodeToleration :: s.workerTolerations

/-- Writes a list of tolerations. -/
def tolerationsJson (list : List Toleration) : Json := .arr (list.map Toleration.toJson)

/-- The preference, of weight one, for nodes with a role. -/
def rolePreference (role : String) : Json :=
  .obj [
    ("preference", .obj [("matchExpressions", .arr [.obj [
      ("key", .str role), ("operator", .str "In"), ("values", .texts [""])]])]),
    ("weight", .int 1)]

/-- The preference for nodes with either role of the control plane. -/
def controlPlaneAffinity : Json :=
  .obj [("nodeAffinity", .obj [("preferredDuringSchedulingIgnoredDuringExecution",
    .arr [rolePreference masterRole, rolePreference controlPlaneRole])])]

/-- No capabilities at all. -/
def noCapabilities : Json := .obj [("drop", .texts ["ALL"])]

/-- No root, no writes to the root file system, no escalation, no capabilities, and the default
filter of system calls. -/
def restrictedSecurity : Json :=
  .obj [
    ("allowPrivilegeEscalation", .bool false),
    ("capabilities", noCapabilities),
    ("readOnlyRootFilesystem", .bool true),
    ("runAsNonRoot", .bool true),
    ("seccompProfile", .obj [("type", .str "RuntimeDefault")])]

/-- Root with escalation, as the socket of the kubelet asks for; no capabilities and no writes to
the root file system. -/
def privilegedSecurity : Json :=
  .obj [
    ("allowPrivilegeEscalation", .bool true),
    ("capabilities", noCapabilities),
    ("readOnlyRootFilesystem", .bool true),
    ("runAsUser", .int 0)]

/-- The environment of every container: the name of its node. -/
def environment : Json :=
  .arr [.obj [("name", .str "NODE_NAME"),
    ("valueFrom", .obj [("fieldRef", .obj [("fieldPath", .str "spec.nodeName")])])]]

/-- A path of the host that a container sees read-only. -/
structure HostMount where
  name : String
  hostPath : String
  mountPath : String
  pathType : Option String := none
deriving DecidableEq, Repr, Inhabited

/-- The volume of a host path. -/
def HostMount.volume (m : HostMount) : Json :=
  .obj [
    ("hostPath", .record [("path", some (.str m.hostPath)), ("type", m.pathType.map .str)]),
    ("name", .str m.name)]

/-- A read-only mount of a volume. -/
def readOnlyMount (name mountPath : String) : Json :=
  .obj [("mountPath", .str mountPath), ("name", .str name), ("readOnly", .bool true)]

/-- The mount of a host path. -/
def HostMount.mount (m : HostMount) : Json := readOnlyMount m.name m.mountPath

/-- The template of the pods of a workload, which carry its selector labels. -/
def template (app : String) (pod : Json) : Json :=
  .obj [("metadata", .obj [("labels", .textDict (selectorLabels app))]), ("spec", pod)]

/-- The selector of the pods of a workload. -/
def selector (app : String) : Json := .obj [("matchLabels", .textDict (selectorLabels app))]

end Pod

end NodeFeatureOperator
