import NodeFeatureOperator.Reconcile.Health
import NodeFeatureOperator.Reconcile.Teardown

/-!
# The reconcile pass

One pass over a NodeFeatureDiscovery. A resource that is not being deleted gets the operator's
finalizer first; then each pass converges the components, whichever of them fail, and reports the
conditions if they changed. A resource that is being deleted keeps the finalizer until its managed
objects are gone and pruning is done.

## Main definitions

* `reconcile`: the pass.
* `Config`: its timing, and `Action`: when the next pass is due.
* `errorPolicy`: what follows a failed pass.
-/

namespace NodeFeatureOperator

/-- The timing of the controller. -/
structure Config where
  /-- The time to the next pass once everything is available. -/
  resync : Duration := Duration.ofSeconds 60
  /-- The time to the next pass while something is under way. -/
  progress : Duration := Duration.ofSeconds 10
  /-- The time to the next pass after a failure that may resolve by itself. -/
  error : Duration := Duration.ofSeconds 30
  /-- The wait for the prune Job to disappear. -/
  prunePoll : PollConfig := {}
deriving DecidableEq, Repr, Inhabited

/-- When the next pass is due. -/
inductive Action where
  /-- When something changes. -/
  | awaitChange
  /-- After a time, or when something changes. -/
  | requeue (after : Duration)
deriving DecidableEq, Repr, Inhabited

/-- The time from adding the finalizer to the pass that sees it. -/
def finalizerRequeue : Duration := Duration.ofSeconds 1

namespace NodeFeatureDiscovery

/-- The resource with the operator's finalizer at the end of its list. -/
def addFinalizer (n : NodeFeatureDiscovery) : NodeFeatureDiscovery :=
  let finalizers := n.metadata.finalizers.getD [] ++ [finalizer]
  { n with metadata := { n.metadata with finalizers := some finalizers } }

/-- The resource without the operator's finalizer; an absent list stays absent. -/
def removeFinalizer (n : NodeFeatureDiscovery) : NodeFeatureDiscovery :=
  let finalizers := n.metadata.finalizers.map fun l => l.filter (· != finalizer)
  { n with metadata := { n.metadata with finalizers := finalizers } }

end NodeFeatureDiscovery

/-- Recomputes the conditions and writes them if their states changed. The answer says whether the
deployment is available. -/
def reportStatus (time : Time) (n : NodeFeatureDiscovery) (name ns : String) :
    Program (Except Failure Bool) := do
  let conditions ← observeConditions time n
  if Condition.sameStates n.conditions conditions then
    pure (.ok (Condition.isAvailable conditions))
  else
    match ← Program.request (.patchStatus name ns conditions) with
    | .error f => pure (.error f)
    | .ok () => pure (.ok (Condition.isAvailable conditions))

/-- The failure of an outcome, as a list. -/
def failureOf {α : Type} : Except Failure α → List Failure
  | .error f => [f]
  | .ok _ => []

/-- A pass over a resource that carries the finalizer and is not being deleted. -/
def convergePass (config : Config) (time : Time) (n : NodeFeatureDiscovery) (name ns : String) :
    Program (Except Failure Action) := do
  let master ← Component.master.settle n ns
  let worker ← convergeWorker n ns
  let topology ← convergeTopology n ns
  let collector ← Component.collector.settle n ns
  let status ← reportStatus time n name ns
  let failures := failureOf master ++ failureOf worker ++ failureOf topology ++
    failureOf collector ++ failureOf status
  match Failure.join failures with
  | some f => pure (.error f)
  | none =>
    match status with
    | .ok true => pure (.ok (.requeue config.resync))
    | _ => pure (.ok (.requeue config.progress))

/-- A pass over a resource that is being deleted. -/
def finalize (config : Config) (n : NodeFeatureDiscovery) (ns : String) :
    Program (Except Failure Action) := do
  if n.hasFinalizer then
    match ← deleteComponents n ns with
    | .error f => pure (.error f)
    | .ok () =>
      match ← remainingComponents n ns with
      | .error f => pure (.error f)
      | .ok (_ :: _) => pure (.ok (.requeue config.progress))
      | .ok [] =>
        match ← prune config.prunePoll n ns with
        | .error f => pure (.error f)
        | .ok false => pure (.ok (.requeue config.prunePoll.interval))
        | .ok true =>
          match ← Program.request (.updateResource n.removeFinalizer) with
          | .error f => pure (.error f)
          | .ok _ => pure (.ok .awaitChange)
  else pure (.ok .awaitChange)

/-- A pass over a resource as it was read. -/
def passOver (config : Config) (time : Time) (n : NodeFeatureDiscovery) (name ns : String) :
    Program (Except Failure Action) := do
  if n.isDeleting then finalize config n ns
  else if n.hasFinalizer then convergePass config time n name ns
  else
    match ← Program.request (.updateResource n.addFinalizer) with
    | .error f => pure (.error f)
    | .ok _ => pure (.ok (.requeue finalizerRequeue))

/-- One pass, set off by an object that may be out of date: only its name and namespace count, and
the resource is read again. Conditions that the pass writes bear the given time. -/
def reconcile (config : Config) (time : Time) (trigger : Metadata) :
    Program (Except Failure Action) := do
  let name := trigger.anyName
  match trigger.ns with
  | none =>
    pure (.error (.internal "NodeFeatureDiscovery must be namespaced" "reconcile"))
  | some ns =>
    match ← Program.request (.getResource name ns) with
    | .error f => pure (.error f)
    | .ok none => pure (.ok .awaitChange)
    | .ok (some n) => passOver config time n name ns

/-- What follows a failed pass: a retry if that may help, or else a wait for a change. -/
def errorPolicy (config : Config) (f : Failure) : Action :=
  if f.isRetryable then .requeue config.error else .awaitChange

end NodeFeatureOperator
