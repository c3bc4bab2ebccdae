import NodeFeatureOperator.Component.Blueprint
import NodeFeatureOperator.Managed.Object

/-!
# Building components

A component is built onto an object, a fresh one or one from the cluster: labels, the content
that the operator owns, and the controller reference. All else on the object stays.

## Main definitions

* `Component.fill`: the content of an object with the operator's part of it replaced.
* `Component.buildOnto`: the object as built, beside the outcome.
* `Component.desired`: a component built from scratch.
-/

namespace NodeFeatureOperator

namespace Component

/-- Replaces the part of a content that the operator owns: the data of the configuration, the
specification of a workload. A content of another kind cannot be filled. -/
def fill (c : Component) (s : Spec) (content : Content) : Option Content :=
  match c, content with
  | .workerConfig, .configMap x =>
    some (.configMap { x with data := some [(Blueprint.configKey, s.configData)] })
  | .worker, .daemonSet w => some (.daemonSet { w with spec := some (Blueprint.worker s) })
  | .topologyUpdater, .daemonSet w =>
    some (.daemonSet { w with spec := some (Blueprint.topologyUpdater s) })
  | .master, .deployment w => some (.deployment { w with spec := some (Blueprint.master s) })
  | .collector, .deployment w =>
    some (.deployment { w with spec := some (Blueprint.collector s) })
  | .prune, .job w => some (.job { w with spec := some (Blueprint.prune s) })
  | _, _ => none

/-- Builds a component onto an object. The object stands beside the outcome as far as it was
changed. -/
def buildOnto (c : Component) (n : NodeFeatureDiscovery) (o : ManagedObject) :
    Except Failure Unit × ManagedObject :=
  match c.fill n.spec o.content with
  | none =>
    (.error (.internal (c.label ++ " cannot be built into a " ++ o.kind.text) "set_as_desired"), o)
  | some content =>
    let (outcome, metadata) := (o.metadata.withLabels c.name).controlledBy n o.kind.text
    (outcome, ⟨metadata, content⟩)

/-- The object of a component built onto another one. -/
def built (c : Component) (n : NodeFeatureDiscovery) (o : ManagedObject) :
    Except Failure ManagedObject :=
  let (outcome, object) := c.buildOnto n o
  outcome.map fun _ => object

/-- The object of a component that carries only its name and namespace. -/
def emptyObject (c : Component) (ns : String) : ManagedObject :=
  ManagedObject.empty c.kind c.name ns

/-- A component built from scratch. -/
def desired (c : Component) (n : NodeFeatureDiscovery) (ns : String) :
    Except Failure ManagedObject :=
  c.built n (c.emptyObject ns)

end Component

end NodeFeatureOperator
