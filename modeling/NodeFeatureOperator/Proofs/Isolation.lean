import NodeFeatureOperator.Proofs.Faults

/-!
# Failures are isolated

Two passes begin with the same store and run under two schedules of faults, which fail calls about
the object of one component in any way. Then they write the same about every other component, and
leave the same objects of these, so that a component that cannot be written keeps none of the others
from being written. Only the worker waits for its configuration.

What differs is the version that a store gives to an object: it counts all writes, those about the
component that fails included.

## Main definitions

* `Schedule`: which calls fail, by the calls made before.
* `Store.respondUnder`: a store that answers calls unless a schedule makes them fail.

## Main results

* `component_failures_isolated`: what two passes under two schedules have in common.
* `failures_shift_versions`: the versions are not among that.
-/

namespace NodeFeatureOperator

/-- Which calls fail, and how: told from the calls made before, the latest first, and the call. -/
abbrev Schedule := List Call → Call → Option Failure

/-- The calls that a schedule makes fail are about the object under one key. -/
def Schedule.Only (key : ObjectKey) (plan : Schedule) : Prop :=
  ∀ past call, (plan past call).isSome = true → call.subject? = some key

/-- A store, with the calls that it was asked: it answers them unless the schedule makes them fail,
and then they have no effect. -/
def Store.respondUnder (plan : Schedule) : Program.Responder (Store × List Call) :=
  fun call state =>
    match plan state.2 call with
    | some f => (.error f, (state.1, call :: state.2))
    | none => ((state.1.respond call).1, ((state.1.respond call).2, call :: state.2))

/-! ### Runs under a schedule -/

/-- Under a schedule a call is answered as the store answers it, or fails if it is about the object
of the schedule. -/
theorem Store.answers_respondUnder {key : ObjectKey} {plan : Schedule} (hplan : plan.Only key)
    (call : Call) (state : Store × List Call) :
    state.1.Answers key call (Store.respondUnder plan call state).1
      (Store.respondUnder plan call state).2.1 := by
  rw [Store.respondUnder]
  split
  next f hfail => exact .failed call f (hplan state.2 call (by simp [hfail]))
  next => exact .served call

/-- **The failures of a component are isolated.** Two passes over the same store, in which every
object lies under a key of its names, read the same resource, which bears the finalizer and is not
being deleted. They run under two schedules of faults, each of which fails calls about the object of
one component and no others. Then at the place of any other component they make the same writes
with the same answers, and leave the same object apart from its version; where the faults are about
the worker's configuration, the worker is excepted. -/
theorem component_failures_isolated {config : Config} {time : Time} {trigger : Metadata}
    {n : NodeFeatureDiscovery} {ns : String} {s : Store} {faulty c : Component}
    {plan plan' : Schedule} {t₀ : Duration} (hs : s.Named) (hns : trigger.ns = some ns)
    (hn : s.resource? ⟨ns, trigger.anyName⟩ = some n) (hfin : n.hasFinalizer = true)
    (hdel : n.isDeleting = false) (hplan : plan.Only (faulty.place ns))
    (hplan' : plan'.Only (faulty.place ns)) (hc : c ≠ faulty)
    (hworker : ¬ (faulty = .workerConfig ∧ c = .worker)) :
    writesAt (c.place ns) ((reconcile config time trigger).exchanges
        (Store.respondUnder plan) (s, []) t₀) =
      writesAt (c.place ns) ((reconcile config time trigger).exchanges
        (Store.respondUnder plan') (s, []) t₀) ∧
    (((reconcile config time trigger).run (Store.respondUnder plan) (s, []) t₀).2.1.1.object?
        (c.place ns)).map ManagedObject.unversioned =
      (((reconcile config time trigger).run (Store.respondUnder plan') (s, []) t₀).2.1.1.object?
        (c.place ns)).map ManagedObject.unversioned := by
  have hplace : c.place ns ≠ faulty.place ns := fun heq => hc (Component.place_injective heq).1
  have hgate : c = .worker → Component.workerConfig.place ns ≠ faulty.place ns := fun heq hsame =>
    hworker ⟨(Component.place_injective hsame).1.symm, heq⟩
  -- under either schedule the pass does what is due in the store that both begin with
  have hdue : ∀ plan : Schedule, plan.Only (faulty.place ns) → _ := fun plan hplan =>
    due_of_reconcile
      (Program.ends_exchanges (Store.respondUnder plan) (reconcile config time trigger) (s, []) t₀)
      hs (Store.answersAll_exchanges (Store.answers_respondUnder hplan) _ (s, []) t₀)
      hns hn hfin hdel hplace hgate
  obtain ⟨hwrites, hafter⟩ := hdue plan hplan
  obtain ⟨hwrites', hafter'⟩ := hdue plan' hplan'
  exact ⟨hwrites.trans hwrites'.symm, hafter.trans hafter'.symm⟩

/-! ### A master that cannot be created -/

/-- No call fails. -/
def Schedule.none : Schedule := fun _ _ => .none

/-- The master in a namespace cannot be created. -/
def Schedule.masterRefused (ns : String) : Schedule := fun _ call =>
  if call.verb = .create ∧ call.subject? = some (Component.master.place ns) then
    some Store.alreadyExists
  else .none

/-- A schedule without failures is about any one object. -/
theorem Schedule.only_none (key : ObjectKey) : Schedule.none.Only key := by
  intro past call h
  cases h

/-- That schedule is about the master only. -/
theorem Schedule.only_masterRefused (ns : String) :
    (Schedule.masterRefused ns).Only (Component.master.place ns) := by
  intro past call h
  rw [masterRefused] at h
  split at h
  next hcall => exact hcall.2
  · cases h

/-- A pass creates the worker, the same one, whether or not the master can be created. -/
theorem component_failures_isolated_occupied :
    writesAt (Component.worker.place "gpu") ((reconcile {} ⟨0, 0⟩ installed.metadata).exchanges
        (Store.respondUnder Schedule.none) (Store.occupied, []) (Duration.ofSeconds 0)) =
      writesAt (Component.worker.place "gpu") ((reconcile {} ⟨0, 0⟩ installed.metadata).exchanges
        (Store.respondUnder (Schedule.masterRefused "gpu")) (Store.occupied, [])
        (Duration.ofSeconds 0)) ∧
    (((reconcile {} ⟨0, 0⟩ installed.metadata).run (Store.respondUnder Schedule.none)
        (Store.occupied, []) (Duration.ofSeconds 0)).2.1.1.object?
        (Component.worker.place "gpu")).map ManagedObject.unversioned =
      (((reconcile {} ⟨0, 0⟩ installed.metadata).run
        (Store.respondUnder (Schedule.masterRefused "gpu"))
        (Store.occupied, []) (Duration.ofSeconds 0)).2.1.1.object?
        (Component.worker.place "gpu")).map ManagedObject.unversioned ∧
    (writesAt (Component.worker.place "gpu") ((reconcile {} ⟨0, 0⟩ installed.metadata).exchanges
        (Store.respondUnder (Schedule.masterRefused "gpu")) (Store.occupied, [])
        (Duration.ofSeconds 0))).map (·.call.verb) = [.create] := by
  have hns : installed.metadata.ns = some "gpu" := rfl
  have hn : Store.occupied.resource? ⟨"gpu", installed.metadata.anyName⟩ =
      some (installed.withVersion "1") := rfl
  have hfin : (installed.withVersion "1").hasFinalizer = true := by decide
  refine and_assoc.mp ⟨?_, by decide +kernel⟩
  exact component_failures_isolated Store.coherent_occupied.named hns hn hfin rfl
    (Schedule.only_none (Component.master.place "gpu")) (Schedule.only_masterRefused "gpu")
    (by decide) (by decide)

/-- **Failures shift versions.** The worker that a pass creates has another version if the creation
of the master fails before, although that failure is not about the worker. -/
theorem failures_shift_versions :
    Store.occupied.Named ∧
    Store.occupied.resource? ⟨"gpu", installed.metadata.anyName⟩ =
      some (installed.withVersion "1") ∧
    (installed.withVersion "1").hasFinalizer = true ∧
    (installed.withVersion "1").isDeleting = false ∧
    Schedule.none.Only (Component.master.place "gpu") ∧
    (Schedule.masterRefused "gpu").Only (Component.master.place "gpu") ∧
    ((reconcile {} ⟨0, 0⟩ installed.metadata).run (Store.respondUnder Schedule.none)
        (Store.occupied, []) (Duration.ofSeconds 0)).2.1.1.object?
        (Component.worker.place "gpu") ≠
      ((reconcile {} ⟨0, 0⟩ installed.metadata).run
        (Store.respondUnder (Schedule.masterRefused "gpu"))
        (Store.occupied, []) (Duration.ofSeconds 0)).2.1.1.object?
        (Component.worker.place "gpu") :=
  ⟨Store.coherent_occupied.named, rfl, by decide, rfl,
    Schedule.only_none _, Schedule.only_masterRefused "gpu", by decide +kernel⟩

end NodeFeatureOperator
