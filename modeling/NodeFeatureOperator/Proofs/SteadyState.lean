import NodeFeatureOperator.Proofs.Pass
import NodeFeatureOperator.Proofs.Settled

/-!
# The steady state

After a pass that converged without a failure, on a store that gives back what was written, the next
pass finds nothing to do. The first pass has settled every component and written the states of its
verdict, or found them written; the look at the workloads comes to the same verdict again, since the
report touches no object.

## Main definitions

* `Settling`: how far a pass has come that converges.
* `SameButStatus`, `Reported`: what a report leaves.

## Main results

* `exists_settling_of_convergePass`: a pass that succeeds settles every component, and reports.
* `reported_of_run`: a report that succeeds leaves the states of the verdict.
* `exists_converged_of_run`: what a pass that succeeds leaves.
* `next_pass_quiet`: the pass after a pass that succeeds.
-/

namespace NodeFeatureOperator

/-! ### Conditions -/

namespace Condition

/-- What a condition says, apart from the time of its last transition. -/
def state (c : Condition) : String × ConditionStatus × String × String :=
  (c.type, c.status, c.reason, c.message)

/-- Conditions have the same state exactly if they say the same. -/
theorem sameState_iff {c d : Condition} : c.sameState d = true ↔ c.state = d.state := by
  simp [sameState, state, and_assoc]

/-- Lists of conditions have the same states exactly if the lists of their states are equal. -/
theorem sameStates_iff {a b : List Condition} :
    sameStates a b = true ↔ a.map state = b.map state := by
  induction a generalizing b with
  | nil => cases b <;> simp [sameStates]
  | cons c a ih =>
      cases b with
      | nil => simp [sameStates]
      | cons d b =>
          have hrest := ih (b := b)
          rw [sameStates, Bool.and_eq_true, beq_iff_eq] at hrest
          rw [sameStates, Bool.and_eq_true, beq_iff_eq, List.length_cons, List.length_cons,
            Nat.add_right_cancel_iff, List.zip_cons_cons, List.all_cons, Bool.and_eq_true,
            sameState_iff, and_left_comm, hrest, List.map_cons, List.map_cons, List.cons.injEq]

/-- Conditions have the same states as themselves. -/
theorem sameStates_self (cs : List Condition) : sameStates cs cs = true := sameStates_iff.mpr rfl

/-- Conditions of the same states agree on whether the deployment is available. -/
theorem isAvailable_congr {a b : List Condition} (h : sameStates a b = true) :
    isAvailable a = isAvailable b := by
  have hstates : ∀ cs : List Condition, isAvailable cs =
      (cs.map state).any fun s => s.1 == ConditionType.available.text && s.2.1 == .true :=
    fun cs => by rw [isAvailable, List.any_map]; rfl
  rw [hstates, hstates, sameStates_iff.mp h]

end Condition

/-- The states that a verdict is reported by do not depend on the time of the report. -/
theorem Health.map_state_conditions (v : Health) (time time' : Time) :
    (v.conditions time).map Condition.state = (v.conditions time').map Condition.state := by
  cases v <;> rfl

/-- Neither does it depend on that time whether a list of conditions has these states. -/
theorem Health.sameStates_conditions (v : Health) (cs : List Condition) (time time' : Time) :
    Condition.sameStates cs (v.conditions time) = Condition.sameStates cs (v.conditions time') := by
  rw [Bool.eq_iff_iff, Condition.sameStates_iff, Condition.sameStates_iff,
    v.map_state_conditions time time']

/-- Nor whether the deployment is reported as available. -/
theorem Health.isAvailable_conditions (v : Health) (time time' : Time) :
    Condition.isAvailable (v.conditions time) = Condition.isAvailable (v.conditions time') :=
  Condition.isAvailable_congr (Condition.sameStates_iff.mpr (v.map_state_conditions time time'))

/-- The look at the workloads only reads, and comes to the same verdict wherever the objects are the
same. -/
theorem exists_verdict (ns : String) (checks : List HealthCheck) (s : Store) :
    ∃ v, ∀ s', (∀ k, s'.object? k = s.object? k) → (firstUnhealthy ns checks).Quiet s' v := by
  induction checks with
  | nil => exact ⟨.healthy, fun _ _ => .done _⟩
  | cons check rest ih =>
      obtain ⟨v, hv⟩ := ih
      let read := s.object? (check.component.place ns)
      have hget : ∀ s' : Store, (∀ k, s'.object? k = s.object? k) →
          (s'.respond (.get check.component.kind check.component.name ns)).1 = .ok read :=
        fun s' hs' => congrArg Except.ok (hs' _)
      by_cases hhealthy : check.judge ns (.ok read) = .healthy
      · refine ⟨v, fun s' hs' => .call rfl ?_⟩
        rw [hget s' hs']
        simp only [Program.bind, hhealthy]
        exact hv s' hs'
      · refine ⟨check.judge ns (.ok read), fun s' hs' => .call rfl ?_⟩
        rw [hget s' hs']
        dsimp only [Program.bind]
        split
        · contradiction
        · exact .done _

/-! ### Convergence of all components -/

section Passes

variable {config : Config} {time : Time} {n n' : NodeFeatureDiscovery} {name ns : String}
  {s₀ s s' : Store} {cs : List Component} {t t' : Duration}

/-- How far a pass has come that began with the store `s₀`: the components of the list are settled,
and no resource was touched. -/
structure Settling (n : NodeFeatureDiscovery) (ns : String) (s₀ : Store) (cs : List Component)
    (s : Store) : Prop where
  settled : ∀ c ∈ cs, c.Settled n ns s
  coherent : s.Coherent
  resources : ∀ k, s.resource? k = s₀.resource? k

/-- One component more is settled. -/
theorem Settling.settle (h : Settling n ns s₀ cs s) {c : Component}
    (hrun : (c.settle n ns).run Store.respond s t = (.ok (), s', t')) :
    Settling n ns s₀ (c :: cs) s' := by
  have hc : c.Converged n ns s s' := Component.converged_of_run h.coherent hrun
  refine ⟨fun d hd => ?_, hc.coherent h.coherent, fun k => (hc.resource? k).trans (h.resources k)⟩
  obtain rfl | hd := List.mem_cons.mp hd
  · exact hc.1
  · exact hc.settled (h.settled d hd)

/-- The worker and its configuration are settled. -/
theorem Settling.worker (h : Settling n ns s₀ cs s)
    (hrun : (convergeWorker n ns).run Store.respond s t = (.ok (), s', t')) :
    Settling n ns s₀ (.worker :: .workerConfig :: cs) s' := by
  rw [convergeWorker] at hrun
  obtain ⟨r, s₁, t₁, hconfig, hworker⟩ := Program.exists_run_of_bind hrun
  cases r with
  | error f => cases (Prod.mk.inj hworker).1
  | ok u => exact (h.settle hconfig).settle hworker

/-- The topology updater is settled where it is asked for. -/
theorem Settling.topology (h : Settling n ns s₀ cs s)
    (hrun : (convergeTopology n ns).run Store.respond s t = (.ok (), s', t')) :
    Settling n ns s₀ (if n.spec.topologyUpdater then .topologyUpdater :: cs else cs) s' := by
  rw [convergeTopology] at hrun
  split at hrun
  next hflag =>
    rw [if_pos hflag]
    exact h.settle hrun
  next hflag =>
    rw [if_neg hflag]
    obtain ⟨-, rfl, -⟩ := Program.run_done_eq_iff.mp hrun
    exact h

/-- Only an outcome without a failure has none. -/
theorem failureOf_eq_nil_iff {α : Type} {r : Except Failure α} :
    failureOf r = [] ↔ ∃ a, r = .ok a := by
  cases r <;> simp [failureOf]

/-- A pass that converges without a failure has settled every component, and then reported whether
the deployment is available, on which the time of the next pass depends. -/
theorem exists_settling_of_convergePass {action : Action} (hs : s₀.Coherent)
    (hrun : (convergePass config time n name ns).run Store.respond s₀ t = (.ok action, s', t')) :
    ∃ s t₁ available, (∀ c ∈ teardownComponents n.spec, c.Settled n ns s) ∧
      (∀ k, s.resource? k = s₀.resource? k) ∧
      (reportStatus time n name ns).run Store.respond s t₁ = (.ok available, s', t') ∧
      action = .requeue (if available then config.resync else config.progress) := by
  rw [convergePass_eq] at hrun
  obtain ⟨master, s₁, t₁, hmaster, hrun⟩ := Program.exists_run_of_bind hrun
  obtain ⟨worker, s₂, t₂, hworker, hrun⟩ := Program.exists_run_of_bind hrun
  obtain ⟨topology, s₃, t₃, htopology, hrun⟩ := Program.exists_run_of_bind hrun
  obtain ⟨collector, s₄, t₄, hcollector, hrun⟩ := Program.exists_run_of_bind hrun
  obtain ⟨status, s₅, t₅, hstatus, hrun⟩ := Program.exists_run_of_bind hrun
  obtain ⟨hconclude, rfl, rfl⟩ := Program.run_done_eq_iff.mp hrun
  obtain ⟨hnil, rfl⟩ := conclude_eq_ok_iff.mp hconclude
  -- without a failure to report each part has succeeded
  simp only [List.append_eq_nil_iff, failureOf_eq_nil_iff] at hnil
  obtain ⟨⟨⟨⟨⟨_, rfl⟩, ⟨_, rfl⟩⟩, ⟨_, rfl⟩⟩, ⟨_, rfl⟩⟩, ⟨available, rfl⟩⟩ := hnil
  have h₀ : Settling n ns s₀ [] s₀ := ⟨by simp, hs, fun _ => rfl⟩
  have h₄ := (((h₀.settle hmaster).worker hworker).topology htopology).settle hcollector
  refine ⟨s₄, t₄, available, fun c hc => h₄.settled c ?_, h₄.resources, hstatus, ?_⟩
  · obtain ⟨hprune, htop⟩ := mem_teardownComponents.mp hc
    cases hflag : n.spec.topologyUpdater <;> cases c <;> simp_all
  · cases available <;> rfl

/-! ### The report -/

/-- A resource that differs from another one at most in its status and its version. -/
structure SameButStatus (n n' : NodeFeatureDiscovery) : Prop where
  spec : n'.spec = n.spec
  owner : n'.ownerReference? = n.ownerReference?
  deleting : n'.isDeleting = n.isDeleting
  finalizer : n'.hasFinalizer = n.hasFinalizer
  ns : n'.ns = n.ns

/-- What a report leaves: the objects as they were, and the resource as it was but for its status,
which has the states of the verdict. -/
structure Reported (key : ResourceKey) (n : NodeFeatureDiscovery) (time : Time) (v : Health)
    (s s' : Store) : Prop where
  objects : ∀ k, s'.object? k = s.object? k
  resource : ∃ n', s'.resource? key = some n' ∧ SameButStatus n n' ∧
    Condition.sameStates n'.conditions (v.conditions time) = true

/-- A report on a resource that is there succeeds. -/
theorem exists_run_reportStatus {m : NodeFeatureDiscovery} (hm : s.resource? ⟨ns, name⟩ = some m)
    (time : Time) (n : NodeFeatureDiscovery) (t : Duration) :
    ∃ available s', (reportStatus time n name ns).run Store.respond s t =
      (.ok available, s', t) := by
  obtain ⟨v, hv⟩ := exists_verdict n.ns (HealthCheck.all n.spec.topologyUpdater) s
  have hobserve : (observeConditions time n).Quiet s (v.conditions time) :=
    (hv s fun _ => rfl).bind (.done _)
  rw [reportStatus, Program.bind_eq, Program.run_bind, hobserve.run_eq]
  dsimp only
  split
  · exact ⟨_, _, rfl⟩
  · have hpatch : s.respond (.patchStatus name ns (v.conditions time)) =
        (.ok (), s.putResource ⟨ns, name⟩ { m with status := some (v.conditions time) }) := by
      simp only [Store.respond, Store.patchStatus, hm]
    simp only [Program.bind_eq, Program.request, Program.bind, Program.run, hpatch]
    exact ⟨_, _, rfl⟩

/-- A report that succeeds has written the states of the verdict, unless they were there already. -/
theorem reported_of_run {v : Health} {available : Bool}
    (hn : s.resource? ⟨ns, name⟩ = some n)
    (hv : (firstUnhealthy n.ns (HealthCheck.all n.spec.topologyUpdater)).Quiet s v)
    (hrun : (reportStatus time n name ns).run Store.respond s t = (.ok available, s', t')) :
    Reported ⟨ns, name⟩ n time v s s' ∧
      available = Condition.isAvailable (v.conditions time) := by
  have hobserve : (observeConditions time n).Quiet s (v.conditions time) := hv.bind (.done _)
  rw [reportStatus] at hrun
  obtain ⟨conditions, s₁, t₁, hconditions, hrun⟩ := Program.exists_run_of_bind hrun
  rw [hobserve.run_eq] at hconditions
  simp only [Prod.mk.injEq] at hconditions
  obtain ⟨rfl, rfl, rfl⟩ := hconditions
  split at hrun
  next hsame =>
    obtain ⟨hvalue, rfl, -⟩ := Program.run_done_eq_iff.mp hrun
    refine ⟨⟨fun _ => rfl, n, hn, ⟨rfl, rfl, rfl, rfl, rfl⟩, hsame⟩, ?_⟩
    exact (Except.ok.inj hvalue).symm
  next =>
    have hpatch : s.respond (.patchStatus name ns (v.conditions time)) =
        (.ok (), s.putResource ⟨ns, name⟩ { n with status := some (v.conditions time) }) := by
      simp only [Store.respond, Store.patchStatus, hn]
    simp only [Program.bind_eq, Program.request, Program.bind, Program.run, hpatch] at hrun
    obtain ⟨hvalue, rfl, -⟩ := Program.run_done_eq_iff.mp hrun
    refine ⟨⟨fun _ => rfl, _, Store.resource?_putResource_self _ _ s, ⟨rfl, rfl, rfl, rfl, rfl⟩,
      Condition.sameStates_self _⟩, ?_⟩
    exact (Except.ok.inj hvalue).symm

/-! ### The next pass -/

/-- A pass over a resource whose components are settled, and whose conditions have the states of the
verdict, only reads. -/
theorem quiet_convergePass {v : Health} (hfin : ∀ c ∈ teardownComponents n.spec, c.Settled n ns s)
    (hv : (firstUnhealthy n.ns (HealthCheck.all n.spec.topologyUpdater)).Quiet s v)
    (hsame : Condition.sameStates n.conditions (v.conditions time) = true) :
    (convergePass config time n name ns).Quiet s (.ok (.requeue
      (if Condition.isAvailable (v.conditions time) then config.resync else config.progress))) := by
  have hsettled : ∀ c : Component, c ≠ .prune → c ≠ .topologyUpdater →
      (c.settle n ns).Quiet s (.ok ()) := fun c hc htop =>
    (hfin c (mem_teardownComponents.mpr ⟨hc, fun h => absurd h htop⟩)).quiet
  have hworker : (convergeWorker n ns).Quiet s (.ok ()) :=
    (hsettled .workerConfig (by decide) (by decide)).bind
      (hsettled .worker (by decide) (by decide))
  have htopology : (convergeTopology n ns).Quiet s (.ok ()) := by
    rw [convergeTopology]
    split
    next hflag =>
      exact (hfin .topologyUpdater (mem_teardownComponents.mpr ⟨by decide, fun _ => hflag⟩)).quiet
    · exact .done _
  have hreport : (reportStatus time n name ns).Quiet s
      (.ok (Condition.isAvailable (v.conditions time))) := by
    have hobserve : (observeConditions time n).Quiet s (v.conditions time) := hv.bind (.done _)
    refine hobserve.bind ?_
    rw [if_pos hsame]
    exact .done _
  rw [convergePass_eq]
  refine (hsettled .master (by decide) (by decide)).bind (hworker.bind (htopology.bind ?_))
  refine (hsettled .collector (by decide) (by decide)).bind (hreport.bind ?_)
  cases Condition.isAvailable (v.conditions time) <;> exact .done _

/-- A pass that reads a resource which bears the finalizer and is not being deleted converges it. -/
theorem run_reconcile {trigger : Metadata} {s : Store} (hns : trigger.ns = some ns)
    (hn : s.resource? ⟨ns, trigger.anyName⟩ = some n) (hdel : n.isDeleting = false)
    (hfin : n.hasFinalizer = true) :
    (reconcile config time trigger).run Store.respond s t =
      (convergePass config time n trigger.anyName ns).run Store.respond s t := by
  have hread : s.respond (.getResource trigger.anyName ns) = (.ok (some n), s) := by
    simp only [Store.respond, hn]
  have hpass : passOver config time n trigger.anyName ns =
      convergePass config time n trigger.anyName ns := by
    simp only [passOver, hdel, hfin, Bool.false_eq_true, if_false, if_true]
  simp only [reconcile, hns, Program.bind_eq, Program.request, Program.bind, Program.run, hread,
    hpass]

/-- Such a pass only reads if its convergence does. -/
theorem quiet_reconcile {trigger : Metadata} {s : Store} {r : Except Failure Action}
    (hns : trigger.ns = some ns) (hn : s.resource? ⟨ns, trigger.anyName⟩ = some n)
    (hdel : n.isDeleting = false) (hfin : n.hasFinalizer = true)
    (h : (convergePass config time n trigger.anyName ns).Quiet s r) :
    (reconcile config time trigger).Quiet s r := by
  have hread : (s.respond (.getResource trigger.anyName ns)).1 = .ok (some n) :=
    congrArg Except.ok hn
  simp only [reconcile, hns]
  refine .call rfl ?_
  rw [hread]
  simp only [Program.bind, passOver, hdel, hfin, Bool.false_eq_true, if_false, if_true]
  exact h

/-- A pass that succeeds leaves the resource as it was but for its status, and every component
settled. -/
theorem exists_converged_of_run {trigger : Metadata} {s₁ : Store} {t₀ t₁ : Duration}
    {action : Action} (hs : s₀.Coherent) (hns : trigger.ns = some ns)
    (hn : s₀.resource? ⟨ns, trigger.anyName⟩ = some n) (hfin : n.hasFinalizer = true)
    (hdel : n.isDeleting = false)
    (hrun : (reconcile config time trigger).run Store.respond s₀ t₀ = (.ok action, s₁, t₁)) :
    s₁.Coherent ∧ (∀ c ∈ teardownComponents n.spec, c.Settled n ns s₁) ∧
      ∃ n₁, s₁.resource? ⟨ns, trigger.anyName⟩ = some n₁ ∧ SameButStatus n n₁ := by
  refine ⟨hs.run hrun, ?_⟩
  rw [run_reconcile hns hn hdel hfin] at hrun
  obtain ⟨s, t, available, hsettled, hresources, hreport, -⟩ :=
    exists_settling_of_convergePass hs hrun
  obtain ⟨v, hv⟩ := exists_verdict n.ns (HealthCheck.all n.spec.topologyUpdater) s
  obtain ⟨hreported, -⟩ := reported_of_run ((hresources _).trans hn) (hv s fun _ => rfl) hreport
  obtain ⟨n₁, hn₁, hsame, -⟩ := hreported.resource
  exact ⟨fun c hc => (hsettled c hc).congr (hreported.objects _), n₁, hn₁, hsame⟩

/-- **The steady state is quiet.** On a store that gives back what was written, where every object
lies under its own key, whatever else the objects carry: after a pass that succeeds over a resource
that bears the finalizer and is not being deleted, the next pass, at whatever time, makes no calls
but reads, leaves the store as it is, and comes to the same action. -/
theorem next_pass_quiet {config : Config} {time time' : Time} {trigger trigger' : Metadata}
    {ns : String} {n : NodeFeatureDiscovery} {s₀ s₁ : Store} {t₀ t₁ : Duration} {action : Action}
    (hs : s₀.Coherent) (hns : trigger.ns = some ns)
    (hn : s₀.resource? ⟨ns, trigger.anyName⟩ = some n) (hfin : n.hasFinalizer = true)
    (hdel : n.isDeleting = false)
    (hrun : (reconcile config time trigger).run Store.respond s₀ t₀ = (.ok action, s₁, t₁))
    (hname' : trigger'.anyName = trigger.anyName) (hns' : trigger'.ns = trigger.ns)
    (t : Duration) :
    (reconcile config time' trigger').run Store.respond s₁ t = (.ok action, s₁, t) ∧
      ∀ e ∈ (reconcile config time' trigger').exchanges Store.respond s₁ t,
        e.call.isRead = true := by
  rw [run_reconcile hns hn hdel hfin] at hrun
  obtain ⟨s, t₂, available, hsettled, hresources, hreport, rfl⟩ :=
    exists_settling_of_convergePass hs hrun
  obtain ⟨v, hv⟩ := exists_verdict n.ns (HealthCheck.all n.spec.topologyUpdater) s
  obtain ⟨hreported, rfl⟩ :=
    reported_of_run ((hresources _).trans hn) (hv s fun _ => rfl) hreport
  obtain ⟨n', hn', hsame, hstates⟩ := hreported.resource
  have hsettled' : ∀ c ∈ teardownComponents n'.spec, c.Settled n' ns s₁ := by
    rw [hsame.spec]
    exact fun c hc =>
      ((hsettled c hc).congr (hreported.objects _)).congr_owner hsame.spec hsame.owner
  have hv' : (firstUnhealthy n'.ns (HealthCheck.all n'.spec.topologyUpdater)).Quiet s₁ v := by
    rw [hsame.ns, hsame.spec]
    exact hv s₁ hreported.objects
  have hstates' := (v.sameStates_conditions n'.conditions time' time).trans hstates
  have hpass : (convergePass config time' n' trigger'.anyName ns).Quiet s₁ _ :=
    quiet_convergePass hsettled' hv' hstates'
  rw [v.isAvailable_conditions time' time] at hpass
  have hquiet := quiet_reconcile (hns'.trans hns) (hname' ▸ hn') (hsame.deleting.trans hdel)
    (hsame.finalizer.trans hfin) hpass
  exact ⟨hquiet.run_eq t, hquiet.isRead_of_mem t⟩

end Passes

/-- A resource that bears the finalizer and asks for the topology updater. -/
def installed : NodeFeatureDiscovery where
  metadata := { name := some "nfd", ns := some "gpu", uid := some "7",
                finalizers := some [NodeFeatureDiscovery.finalizer] }
  spec := { topologyUpdater := true }

/-- A store with the resource, and with a configuration at the worker's place that carries labels,
owners and data of others. -/
def Store.occupied : Store :=
  (({} : Store).putResource installed.key installed).putObject (Component.workerConfig.place "gpu")
    { metadata := { name := some Component.workerConfig.name, ns := some "gpu",
                    labels := some [("team", "hardware")],
                    ownerReferences := some [{ apiVersion := "v1", kind := "Node", name := "a",
                                               uid := "9" }] }
      content := .configMap { data := some [("other", "x")] } }

/-- Its objects lie under their keys. -/
theorem Store.coherent_occupied : Store.occupied.Coherent :=
  (Store.coherent_of_empty rfl).putObject rfl

/-- The first pass on that store succeeds, and the pass after it is quiet. -/
theorem next_pass_quiet_occupied :
    ∃ s₁ t₁, (reconcile {} ⟨0, 0⟩ installed.metadata).run Store.respond Store.occupied
        (Duration.ofSeconds 0) = (.ok (.requeue (Duration.ofSeconds 10)), s₁, t₁) ∧
      (reconcile {} ⟨60, 0⟩ installed.metadata).run Store.respond s₁ t₁ =
        (.ok (.requeue (Duration.ofSeconds 10)), s₁, t₁) ∧
      ∀ e ∈ (reconcile {} ⟨60, 0⟩ installed.metadata).exchanges Store.respond s₁ t₁,
        e.call.isRead = true := by
  have hns : installed.metadata.ns = some "gpu" := rfl
  have hn : Store.occupied.resource? ⟨"gpu", installed.metadata.anyName⟩ =
      some (installed.withVersion "1") := rfl
  have hfin : (installed.withVersion "1").hasFinalizer = true := by decide
  have hfirst : ((reconcile {} ⟨0, 0⟩ installed.metadata).run Store.respond Store.occupied
      (Duration.ofSeconds 0)).1.toOption = some (.requeue (Duration.ofSeconds 10)) := by
    decide +kernel
  generalize hrun : (reconcile {} ⟨0, 0⟩ installed.metadata).run Store.respond Store.occupied
    (Duration.ofSeconds 0) = first at hfirst
  obtain ⟨r, s₁, t₁⟩ := first
  cases r with
  | error f => cases hfirst
  | ok action =>
      obtain rfl := Option.some.inj hfirst
      exact ⟨s₁, t₁, rfl,
        next_pass_quiet Store.coherent_occupied hns hn hfin rfl hrun rfl rfl t₁⟩

end NodeFeatureOperator
