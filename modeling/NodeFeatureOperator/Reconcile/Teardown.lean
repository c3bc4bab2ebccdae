import NodeFeatureOperator.Managed.JobState
import NodeFeatureOperator.Reconcile.Converge
import NodeFeatureOperator.Reconcile.Poll

/-!
# Teardown

Deletion of the managed objects, and the prune Job that takes labels off the nodes afterwards. All
deletions are attempted. A failed prune Job is left in place; a completed one has done its work as
soon as its deletion is accepted.

## Main definitions

* `teardownComponents`: the components that are torn down.
* `deleteComponents`, `remainingComponents`: their deletion, and what is left of them.
* `prune`: one step of the prune Job.
-/

namespace NodeFeatureOperator

/-- The components to tear down: the topology updater only where it is asked for. -/
def teardownComponents (s : Spec) : List Component :=
  Component.teardownOrder.filter fun c => c != .topologyUpdater || s.topologyUpdater

/-- Deletes components one by one, and gives the failures. -/
def deleteEach (ns : String) : List Component → Program (List Failure)
  | [] => pure []
  | c :: rest => do
    match ← Program.request (.delete c.kind c.name ns) with
    | .ok () => deleteEach ns rest
    | .error f =>
      let others ← deleteEach ns rest
      pure (c.failure ns f :: others)

/-- Deletes every component but the prune Job; failures are joined. -/
def deleteComponents (n : NodeFeatureDiscovery) (ns : String) : Program (Except Failure Unit) := do
  let failures ← deleteEach ns (teardownComponents n.spec)
  pure (Failure.joined failures)

/-- The components of a list that still exist; the first failure ends the search. -/
def existing (ns : String) : List Component → Program (Except Failure (List Component))
  | [] => pure (.ok [])
  | c :: rest => do
    match ← Program.request (.get c.kind c.name ns) with
    | .error f => pure (.error (c.failure ns f))
    | .ok found =>
      match ← existing ns rest with
      | .error f => pure (.error f)
      | .ok others => pure (.ok (if found.isSome then c :: others else others))

/-- The components to tear down that still exist. -/
def remainingComponents (n : NodeFeatureDiscovery) (ns : String) :
    Program (Except Failure (List Component)) :=
  existing ns (teardownComponents n.spec)

/-- Creates the prune Job; nothing is pruned yet. -/
def startPrune (n : NodeFeatureDiscovery) (ns : String) : Program (Except Failure Bool) := do
  match Component.prune.desired n ns with
  | .error f => pure (.error (Component.prune.failure ns f))
  | .ok job =>
    match ← Program.request (.create job) with
    | .error f => pure (.error (Component.prune.failure ns f))
    | .ok () => pure (.ok false)

/-- Whether the prune Job has disappeared. -/
def pruneGone (ns : String) : Program (Except Failure Bool) := do
  let found ← Program.request (.get Component.prune.kind Component.prune.name ns)
  pure (found.map Option.isNone)

/-- Deletes the completed prune Job. Pruning is done once that is accepted; whether the Job
disappears in time does not matter. -/
def finishPrune (poll : PollConfig) (ns : String) : Program (Except Failure Bool) := do
  match ← Program.request (.delete Component.prune.kind Component.prune.name ns) with
  | .error f => pure (.error (Component.prune.failure ns f))
  | .ok () =>
    let _ ← waitUntil poll "prune job deletion" fun _ => pruneGone ns
    pure (.ok true)

/-- What is done about a prune Job with a status. -/
def followPrune (poll : PollConfig) (ns : String) (status : Option Json) :
    Program (Except Failure Bool) :=
  if JobState.isFailed status then
    pure (.error (.pruneJobFailed ns Component.prune.name
      ((JobState.failureMessage? status).getD "job failed")))
  else if JobState.isComplete status then finishPrune poll ns
  else pure (.ok false)

/-- One step of pruning; the answer says whether pruning is done. It is done at once where it is
not asked for. -/
def prune (poll : PollConfig) (n : NodeFeatureDiscovery) (ns : String) :
    Program (Except Failure Bool) := do
  if n.spec.pruneOnDelete then
    match ← Program.request (.get Component.prune.kind Component.prune.name ns) with
    | .error f => pure (.error (Component.prune.failure ns f))
    | .ok none => startPrune n ns
    | .ok (some object) =>
      match object.content with
      | .job job => followPrune poll ns job.status
      | other =>
        pure (.error (Component.prune.failure ns
          (.internal ("expected a Job, got a " ++ other.kind.text) Failure.unknownContext)))
  else pure (.ok true)

end NodeFeatureOperator
