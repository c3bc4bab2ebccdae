import NodeFeatureOperator.Cluster.Program
import NodeFeatureOperator.Component.Build
import NodeFeatureOperator.Drift

/-!
# Convergence of one component

A component that does not exist is created. One that exists is left alone if it carries the
digest and the content of the desired object, and is otherwise rebuilt and replaced under the
version that was read.

## Main definitions

* `Component.converge`: one component.
* `convergeWorker`: the worker's configuration, then the worker.
-/

namespace NodeFeatureOperator

/-- What convergence did to a component. -/
inductive Outcome where
  | created
  | updated
  | unchanged
deriving DecidableEq, Repr, Inhabited

/-- The name of an outcome. -/
def Outcome.text : Outcome → String
  | .created => "Created"
  | .updated => "Updated"
  | .unchanged => "Unchanged"

namespace Component

/-- A failure on a component in a namespace. -/
def failure (c : Component) (ns : String) (f : Failure) : Failure := .component c.label c.name ns f

/-- Creates the object of a component, with its digest noted on it. -/
def createWith (hash : String) (desired : ManagedObject) : Program (Except Failure Outcome) := do
  match ← Program.request (.create (desired.recordHash hash)) with
  | .error f => pure (.error f)
  | .ok () => pure (.ok .created)

/-- Rebuilds a component onto its live object, and writes it if that changes anything. -/
def rebuild (c : Component) (n : NodeFeatureDiscovery) (hash : String) (live : ManagedObject) :
    Program (Except Failure Outcome) := do
  match c.built n live with
  | .error f => pure (.error f)
  | .ok built =>
    let updated := built.recordHash hash
    if updated = live then pure (.ok .unchanged)
    else
      match ← Program.request (.update updated) with
      | .error f => pure (.error f)
      | .ok () => pure (.ok .updated)

/-- Converges a component; failures do not say yet on which component they occurred. -/
def convergeCore (c : Component) (n : NodeFeatureDiscovery) (ns : String) :
    Program (Except Failure Outcome) := do
  match c.desired n ns with
  | .error f => pure (.error f)
  | .ok desired =>
    let hash := desired.contentHash
    match ← Program.request (.get c.kind c.name ns) with
    | .error f => pure (.error f)
    | .ok none => createWith hash desired
    | .ok (some live) =>
      if live.recordedHash = some hash ∧ live.carries desired then pure (.ok .unchanged)
      else c.rebuild n hash live

/-- Converges a component. -/
def converge (c : Component) (n : NodeFeatureDiscovery) (ns : String) :
    Program (Except Failure Outcome) := do
  let outcome ← c.convergeCore n ns
  pure (outcome.mapError (c.failure ns))

/-- Converges a component, whatever that does to it. -/
def settle (c : Component) (n : NodeFeatureDiscovery) (ns : String) :
    Program (Except Failure Unit) := do
  let outcome ← c.converge n ns
  pure (outcome.map fun _ => ())

end Component

/-- Converges the worker's configuration, and then the worker. -/
def convergeWorker (n : NodeFeatureDiscovery) (ns : String) : Program (Except Failure Unit) := do
  match ← Component.workerConfig.settle n ns with
  | .error f => pure (.error f)
  | .ok () => Component.worker.settle n ns

/-- Converges the topology updater where it is asked for; one that exists otherwise is left. -/
def convergeTopology (n : NodeFeatureDiscovery) (ns : String) : Program (Except Failure Unit) :=
  if n.spec.topologyUpdater then Component.topologyUpdater.settle n ns else pure (.ok ())

end NodeFeatureOperator
