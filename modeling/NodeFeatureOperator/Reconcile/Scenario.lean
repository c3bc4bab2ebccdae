import NodeFeatureOperator.Cluster.Rehearsal
import NodeFeatureOperator.Json.Pointer
import NodeFeatureOperator.Reconcile.Pass

/-!
# Scenarios

A scenario is a run of steps against a rehearsal store: users who install and edit resources, other
clients who write objects, mishaps, and the operator's passes or single tasks of these. One resource
is the current one, and steps that name none are about it.

## Main definitions

* `Scenario`: the state of a run.
* `Scenario.Step`, `Scenario.Result`: the steps, and what comes of them.
* `Scenario.perform`: one step.
-/

namespace NodeFeatureOperator

/-- The state of a run: the store, the clock, and the resource installed last. -/
structure Scenario where
  rehearsal : Rehearsal := {}
  time : Duration := Duration.ofSeconds 0
  current : ResourceKey := ⟨"", ""⟩
deriving Repr, Inhabited

namespace Scenario

/-- A single task of a pass. -/
inductive Task where
  | observe
  | converge (c : Component)
  | master
  | worker
  | topologyUpdater
  | collector
  | deleteComponents
  | prune
  | remainingComponents
deriving DecidableEq, Repr, Inhabited

/-- The place of an object; without a namespace it lies in that of the current resource. -/
structure Place where
  kind : ResourceKind
  name : String
  ns : Option String := none
deriving DecidableEq, Repr, Inhabited

/-- A step of a run. -/
inductive Step where
  /-- A user stores a resource, which becomes the current one. -/
  | install (n : NodeFeatureDiscovery)
  /-- A user edits the current resource. -/
  | editResource (edits : List Json.Edit)
  /-- A user asks for the deletion of the current resource. -/
  | requestDeletion
  /-- Another client stores an object, perhaps under another kind than its own. -/
  | put (kind : ResourceKind) (o : ManagedObject)
  /-- Another client edits an object. -/
  | edit (place : Place) (edits : List Json.Edit)
  /-- Another client removes an object. -/
  | remove (place : Place)
  /-- A look at an object. -/
  | show (place : Place)
  /-- Deletions of an object are to be slow. -/
  | linger (place : Place) (reads : Option Nat)
  /-- Another client is to write an object after its next read. -/
  | contend (place : Place)
  /-- Calls are to fail. -/
  | fault (f : Fault)
  /-- The operator makes a pass, set off by the current resource or by another trigger. -/
  | pass (trigger : Option Metadata)
  /-- The operator does one task for the current resource, in its namespace or another one. -/
  | task (t : Task) (ns : Option String)
deriving Repr, Inhabited

/-- What comes of a step. -/
inductive Result where
  /-- The step was taken. -/
  | done
  /-- There is no current resource. -/
  | noResource
  /-- There is no such object. -/
  | noObject
  /-- An edit does not fit the document. -/
  | unfitEdit
  /-- An edited resource is not a resource any more. -/
  | unreadableResource
  /-- An edited object is not an object any more. -/
  | unreadableObject (e : ManagedObject.DocumentError)
  /-- Whether there was something to remove. -/
  | removed (existed : Bool)
  /-- An object, if there is one. -/
  | shown (o : Option ManagedObject)
  /-- What a pass came to, and how long it took. -/
  | passed (outcome : Except Failure Action) (waited : Duration)
  /-- What was observed. -/
  | observed (conditions : List Condition)
  /-- What convergence came to. -/
  | converged (outcome : Except Failure Outcome)
  /-- How a task ended. -/
  | ended (outcome : Except Failure Unit)
  /-- Whether pruning is done. -/
  | pruned (outcome : Except Failure Bool)
  /-- The components that are left. -/
  | remaining (outcome : Except Failure (List Component))
deriving Inhabited

/-- The time that conditions bear in a scenario; nothing depends on it. -/
def conditionTime : Time := ⟨0, 0⟩

/-- The time at which a requested deletion is noted: the start of 2024. -/
def deletionTime : Time := ⟨1704067200, 0⟩

/-- The key of a place. -/
def keyOf (s : Scenario) (p : Place) : ObjectKey := ⟨p.kind, p.ns.getD s.current.ns, p.name⟩

/-- The current resource. -/
def resource? (s : Scenario) : Option NodeFeatureDiscovery := s.rehearsal.store.resource? s.current

/-- The same run with another store. -/
def withStore (s : Scenario) (store : Store) : Scenario :=
  { s with rehearsal := { s.rehearsal with store := store } }

/-- Runs a program of the operator. -/
def runProgram {α : Type} (p : Program α) (s : Scenario) : α × Scenario :=
  let (a, rehearsal, time) := p.run Rehearsal.respond s.rehearsal s.time
  (a, { s with rehearsal := rehearsal, time := time })

/-- Edits the current resource. -/
def editResource (edits : List Json.Edit) (s : Scenario) : Result × Scenario :=
  match s.resource? with
  | none => (.noResource, s)
  | some n =>
    match Json.Edit.applyAll? edits n.toJson with
    | none => (.unfitEdit, s)
    | some j =>
      match NodeFeatureDiscovery.ofJson? j with
      | none => (.unreadableResource, s)
      | some edited => (.done, s.withStore (s.rehearsal.store.putResource s.current edited))

/-- Notes on the current resource that its deletion was requested. -/
def requestDeletion (s : Scenario) : Scenario :=
  match s.resource? with
  | none => s
  | some n =>
    let metadata := { n.metadata with deletionTimestamp := some deletionTime }
    let store := s.rehearsal.store
    let resources := Table.insert s.current { n with metadata := metadata } store.resources
    s.withStore { store with resources := resources }

/-- Edits an object where it is stored. -/
def editObject (place : Place) (edits : List Json.Edit) (s : Scenario) : Result × Scenario :=
  match s.rehearsal.store.object? (s.keyOf place) with
  | none => (.noObject, s)
  | some o =>
    match Json.Edit.applyAll? edits o.toJson with
    | none => (.unfitEdit, s)
    | some j =>
      match ManagedObject.ofDocument j with
      | .error e => (.unreadableObject e, s)
      | .ok edited => (.done, s.withStore (s.rehearsal.store.putObject (s.keyOf place) edited))

/-- Removes an object, whether or not it lingers. -/
def removeObject (place : Place) (s : Scenario) : Result × Scenario :=
  let key := s.keyOf place
  let r := s.rehearsal
  let after := { r with store := r.store.dropObject key, dying := Table.erase key r.dying }
  (.removed (r.store.object? key).isSome, { s with rehearsal := after })

/-- Makes a pass. -/
def makePass (config : Config) (trigger : Option Metadata) (s : Scenario) : Result × Scenario :=
  let trigger := trigger.getD { name := some s.current.name, ns := some s.current.ns }
  let (outcome, after) := s.runProgram (reconcile config conditionTime trigger)
  (.passed outcome ⟨after.time.nanoseconds - s.time.nanoseconds⟩, after)

/-- The program of a task for a resource. -/
def taskProgram (config : Config) (n : NodeFeatureDiscovery) (ns : String) : Task → Program Result
  | .observe => return .observed (← observeConditions conditionTime n)
  | .converge c => return .converged (← c.converge n ns)
  | .master => return .ended (← Component.master.settle n ns)
  | .worker => return .ended (← convergeWorker n ns)
  | .topologyUpdater => return .ended (← convergeTopology n ns)
  | .collector => return .ended (← Component.collector.settle n ns)
  | .deleteComponents => return .ended (← deleteComponents n ns)
  | .prune => return .pruned (← prune config.prunePoll n ns)
  | .remainingComponents => return .remaining (← remainingComponents n ns)

/-- Does one task. -/
def doTask (config : Config) (t : Task) (ns : Option String) (s : Scenario) : Result × Scenario :=
  match s.resource? with
  | none => (.noResource, s)
  | some n => s.runProgram (taskProgram config n (ns.getD s.current.ns) t)

/-- Takes one step. The log holds the calls of this step alone. -/
def perform (config : Config) (step : Step) (s : Scenario) : Result × Scenario :=
  let s := { s with rehearsal := { s.rehearsal with log := [] } }
  let r := s.rehearsal
  match step with
  | .install n =>
    (.done, { s.withStore (r.store.putResource n.key n) with current := n.key })
  | .editResource edits => s.editResource edits
  | .requestDeletion => (.done, s.requestDeletion)
  | .put kind o => (.done, s.withStore (r.store.putObject { o.key with kind := kind } o))
  | .edit place edits => s.editObject place edits
  | .remove place => s.removeObject place
  | .show place => (.shown (r.store.object? (s.keyOf place)), s)
  | .linger place reads =>
    (.done, { s with
      rehearsal := { r with lingering := Table.insert (s.keyOf place) reads r.lingering } })
  | .contend place =>
    (.done, { s with rehearsal := { r with contended := some (s.keyOf place) } })
  | .fault f => (.done, { s with rehearsal := { r with faults := r.faults ++ [f] } })
  | .pass trigger => s.makePass config trigger
  | .task t ns => s.doTask config t ns

/-- The calls of the latest step, in order. -/
def calls (s : Scenario) : List Call := s.rehearsal.log.reverse

end Scenario

end NodeFeatureOperator
