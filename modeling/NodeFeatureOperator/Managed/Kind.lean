/-!
# Kinds of managed objects

The four kinds of objects that the operator creates, with their interface group and the names by
which paths and messages call them.

## Main definitions

* `ResourceKind`: the kinds.
* `ResourceKind.ofText?`: the kind of a name.
-/

namespace NodeFeatureOperator

/-- A kind of managed object. -/
inductive ResourceKind where
  | configMap
  | daemonSet
  | deployment
  | job
deriving DecidableEq, Repr, Inhabited

namespace ResourceKind

/-- The name of a kind. -/
def text : ResourceKind → String
  | .configMap => "ConfigMap"
  | .daemonSet => "DaemonSet"
  | .deployment => "Deployment"
  | .job => "Job"

/-- The interface group and version of a kind. -/
def apiVersion : ResourceKind → String
  | .configMap => "v1"
  | .daemonSet => "apps/v1"
  | .deployment => "apps/v1"
  | .job => "batch/v1"

/-- The name of a collection of the kind. -/
def plural : ResourceKind → String
  | .configMap => "configmaps"
  | .daemonSet => "daemonsets"
  | .deployment => "deployments"
  | .job => "jobs"

/-- The kinds in the order of their names. -/
def all : List ResourceKind := [.configMap, .daemonSet, .deployment, .job]

/-- The kind with a name. -/
def ofText? (s : String) : Option ResourceKind := all.find? fun k => k.text == s

end ResourceKind

end NodeFeatureOperator
