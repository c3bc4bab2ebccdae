import NodeFeatureOperator.Proofs.Controller
import NodeFeatureOperator.Proofs.Verdict

/-!
# What availability says about ownership

The conditions of a deployment are those of the workloads under its well-known names. The look at
them does not ask who controls them, whereas convergence leaves alone what another owner controls. A
second resource in a namespace, none of whose components can be built, is therefore reported as
available once the workloads of the first one are healthy.

## Main definitions

* `HealthCheck.Passes`, `HealthCheck.IsOwn`: whether a checked workload is healthy, and whether the
  resource controls it.
* `Contested`: another owner controls the object of every component of a resource.

## Main results

* `isAvailable_observed_iff`: when a deployment is found available.
* `exists_contested_pass`: what a pass over a contested resource leaves.
* `available_whoever_controls_iff`: when others' workloads make a resource available.
-/

namespace NodeFeatureOperator

/-! ### The look at the workloads -/

namespace HealthCheck

/-- The workload of a check is stored, and judged healthy. -/
def Passes (check : HealthCheck) (ns : String) (s : Store) : Prop :=
  ∃ o, s.object? (check.component.place ns) = some o ∧ check.judge ns (.ok (some o)) = .healthy

/-- The workload of a check is stored, and the resource controls it. -/
def IsOwn (check : HealthCheck) (n : NodeFeatureDiscovery) (s : Store) : Prop :=
  ∃ o, s.object? (check.component.place n.ns) = some o ∧ o.isControlledBy n = true

/-- Only what is stored is judged healthy. -/
theorem judge_eq_healthy_iff {check : HealthCheck} {ns : String} {s : Store} :
    check.judge ns (.ok (s.object? (check.component.place ns))) = .healthy ↔
      check.Passes ns s := by
  rw [Passes]
  cases s.object? (check.component.place ns) with
  | none => simp [judge, unobserved]
  | some o => simp

end HealthCheck

/-- The look at the workloads comes out healthy exactly if every one of them passes its check. -/
theorem eq_healthy_iff_of_quiet {ns : String} {checks : List HealthCheck} {s : Store} {v : Health}
    (h : (firstUnhealthy ns checks).Quiet s v) :
    v = .healthy ↔ ∀ check ∈ checks, check.Passes ns s := by
  induction checks with
  | nil =>
      cases h
      simp
  | cons check rest ih =>
      rw [List.forall_mem_cons, ← HealthCheck.judge_eq_healthy_iff]
      cases h with
      | call _ hnext =>
          dsimp only [Program.bind, Store.respond] at hnext
          split at hnext
          next hhealthy =>
            have hjudge : check.judge ns (.ok (s.object? (check.component.place ns))) = .healthy :=
              hhealthy
            rw [ih hnext, hjudge, eq_self, true_and]
          next verdict hunhealthy =>
            cases hnext
            exact iff_of_false hunhealthy fun hall => hunhealthy hall.1

section Observed

variable {n : NodeFeatureDiscovery} {s : Store}

/-- A deployment is found available exactly if every workload that is looked at is stored and
healthy. -/
theorem isAvailable_observed_iff (time : Time) (t : Duration) :
    Condition.isAvailable ((observeConditions time n).run Store.respond s t).1 = true ↔
      ∀ check ∈ HealthCheck.all n.spec.topologyUpdater, check.Passes n.ns s := by
  obtain ⟨v, hv⟩ := exists_verdict n.ns (HealthCheck.all n.spec.topologyUpdater) s
  have hquiet := hv s fun _ => rfl
  have hobserve : (observeConditions time n).Quiet s (v.conditions time) := hquiet.bind (.done _)
  rw [hobserve.run_eq, Health.isAvailable_conditions_iff, eq_healthy_iff_of_quiet hquiet]

end Observed

/-! ### Components of another owner -/

/-- Convergence of a component that another owner controls only reads, and fails. -/
theorem Component.exists_quiet_failure {c : Component} {n : NodeFeatureDiscovery} {ns uid : String}
    {s : Store} {live : ManagedObject} {other : OwnerReference} (huid : n.metadata.uid = some uid)
    (hlive : s.object? (c.place ns) = some live)
    (hother : live.metadata.foreignController? uid = some other) :
    ∃ f, (c.settle n ns).Quiet s (.error f) := by
  have hcore : ∃ f, (c.convergeCore n ns).Quiet s (.error f) := by
    cases hdesired : c.desired n ns with
    | error f =>
        rw [convergeCore, hdesired]
        exact ⟨f, .done _⟩
    | ok desired =>
        obtain ⟨_, ref, -, href, -, -⟩ := built_eq_ok_iff.mp hdesired
        obtain ⟨-, hrefuid⟩ := NodeFeatureDiscovery.controller_of_ownerReference? href
        obtain rfl : ref.uid = uid := Option.some.inj (hrefuid.trans huid)
        have hget : (s.respond (.get c.kind c.name ns)).1 = .ok (some live) :=
          congrArg Except.ok hlive
        obtain ⟨f, hbuilt⟩ := exists_built_error_of_foreign (c := c) href hother
        rw [convergeCore_eq hdesired]
        refine ⟨f, .call rfl ?_⟩
        rw [hget]
        simp only [Except.bind, amendment_of_unbuilt href hother hbuilt]
        exact .done _
  obtain ⟨f, hf⟩ := hcore
  have hconverge : (c.converge n ns).Quiet s (.error (c.failure ns f)) := hf.bind (.done _)
  exact ⟨_, hconverge.bind (.done _)⟩

/-- A resource with a uid lies under its key, with the finalizer and not being deleted, and another
owner controls the object of every component of it. -/
structure Contested (key : ResourceKey) (n : NodeFeatureDiscovery) (uid : String) (s : Store) :
    Prop where
  stored : s.resource? key = some n
  finalizer : n.hasFinalizer = true
  staying : n.isDeleting = false
  identified : n.metadata.uid = some uid
  held : ∀ c ∈ teardownComponents n.spec, ∃ o other, s.object? (c.place key.ns) = some o ∧
    o.metadata.foreignController? uid = some other

section Contested

variable {key : ResourceKey} {n : NodeFeatureDiscovery} {uid : String} {s : Store}

/-- Each component of a contested resource fails without a write. -/
theorem Contested.quiet_settle (h : Contested key n uid s) (c : Component)
    (hc : c ∈ teardownComponents n.spec) : ∃ f, (c.settle n key.ns).Quiet s (.error f) := by
  obtain ⟨o, other, ho, hother⟩ := h.held c hc
  exact Component.exists_quiet_failure h.identified ho hother

/-- A pass over a contested resource fails and leaves all objects alone. Still it reports the
resource as available if the workloads under the well-known names are healthy. -/
theorem exists_contested_pass (h : Contested key n uid s) (config : Config) (time : Time)
    (trigger : Metadata) (t : Duration) (hname : trigger.anyName = key.name)
    (hns : trigger.ns = some key.ns) :
    ∃ f s' n', (reconcile config time trigger).run Store.respond s t = (.error f, s', t) ∧
      (∀ k, s'.object? k = s.object? k) ∧ s'.resource? key = some n' ∧
      (Condition.isAvailable n'.conditions = true ↔
        ∀ check ∈ HealthCheck.all n.spec.topologyUpdater, check.Passes n.ns s) := by
  have hn : s.resource? ⟨key.ns, trigger.anyName⟩ = some n := hname ▸ h.stored
  obtain ⟨master, hmaster⟩ := h.quiet_settle .master (mem_teardownComponents.mpr (by simp))
  obtain ⟨config', hconfig⟩ :=
    h.quiet_settle .workerConfig (mem_teardownComponents.mpr (by simp))
  obtain ⟨collector, hcollector⟩ :=
    h.quiet_settle .collector (mem_teardownComponents.mpr (by simp))
  have hworker : (convergeWorker n key.ns).Quiet s (.error config') := hconfig.bind (.done _)
  have htopology : ∃ r, (convergeTopology n key.ns).Quiet s r := by
    rw [convergeTopology]
    split
    next hflag =>
      obtain ⟨f, hf⟩ := h.quiet_settle .topologyUpdater
        (mem_teardownComponents.mpr ⟨by decide, fun _ => hflag⟩)
      exact ⟨_, hf⟩
    · exact ⟨_, .done _⟩
  obtain ⟨topology, htopology⟩ := htopology
  obtain ⟨available, s', hreport⟩ := exists_run_reportStatus hn time n t
  obtain ⟨v, hv⟩ := exists_verdict n.ns (HealthCheck.all n.spec.topologyUpdater) s
  have hquiet := hv s fun _ => rfl
  obtain ⟨hreported, -⟩ := reported_of_run hn hquiet hreport
  obtain ⟨n', hn', -, hstates⟩ := hreported.resource
  rw [hname] at hn'
  let failures := failureOf (.error master : Except Failure Unit) ++
    failureOf (.error config' : Except Failure Unit) ++ failureOf topology ++
    failureOf (.error collector : Except Failure Unit) ++ failureOf (.ok available)
  refine ⟨.multiple failures, s', n', ?_, hreported.objects, hn', ?_⟩
  · rw [run_reconcile hns hn h.staying h.finalizer, convergePass_eq]
    simp only [Program.run_bind, hmaster.run_eq, hworker.run_eq,
      htopology.run_eq, hcollector.run_eq, hreport]
    rfl
  · rw [Condition.isAvailable_congr hstates, Health.isAvailable_conditions_iff,
      eq_healthy_iff_of_quiet hquiet]

/-- **Others' workloads make a resource available.** The conditions that are found for a resource
report it as available, although it does not control every workload that was looked at, exactly if
all these workloads are healthy and one of them is not its own. That is what a pass over a resource
leaves in its status, too, if no component of it could be built since another owner controls them
all. -/
theorem available_whoever_controls_iff (n : NodeFeatureDiscovery) (s : Store) :
    (∀ (time : Time) (t : Duration),
      (Condition.isAvailable ((observeConditions time n).run Store.respond s t).1 = true ∧
          ∃ check ∈ HealthCheck.all n.spec.topologyUpdater, ¬ check.IsOwn n s) ↔
        (∀ check ∈ HealthCheck.all n.spec.topologyUpdater, check.Passes n.ns s) ∧
          ∃ check ∈ HealthCheck.all n.spec.topologyUpdater, ¬ check.IsOwn n s) ∧
    ∀ (key : ResourceKey) (uid : String), Contested key n uid s →
      ∀ (config : Config) (time : Time) (trigger : Metadata) (t : Duration),
        trigger.anyName = key.name → trigger.ns = some key.ns →
        ∃ f s' n', (reconcile config time trigger).run Store.respond s t = (.error f, s', t) ∧
          (∀ k, s'.object? k = s.object? k) ∧ s'.resource? key = some n' ∧
          (Condition.isAvailable n'.conditions = true ↔
            ∀ check ∈ HealthCheck.all n.spec.topologyUpdater, check.Passes n.ns s) := by
  refine ⟨fun time t => ?_, fun key uid h config time trigger t hname hns => ?_⟩
  · rw [isAvailable_observed_iff]
  · exact exists_contested_pass h config time trigger t hname hns

end Contested

/-! ### Two resources in a namespace -/

/-- A second resource in the namespace of the one that is installed. -/
def latecomer : NodeFeatureDiscovery where
  metadata := { name := some "late", ns := some "gpu", uid := some "8",
                finalizers := some [NodeFeatureDiscovery.finalizer] }
  spec := { topologyUpdater := true }

/-- A healthy status of a workload with one pod. -/
def oneReady : Json :=
  .obj [("availableReplicas", .int 1), ("currentNumberScheduled", .int 1),
    ("desiredNumberScheduled", .int 1), ("numberReady", .int 1)]

/-- The object of a component that the installed resource controls. -/
def Component.ofInstalled (c : Component) : ManagedObject where
  metadata := { name := some c.name, ns := some "gpu",
                ownerReferences := installed.ownerReference?.map fun ref => [ref] }
  content :=
    match c.kind with
    | .configMap => .configMap {}
    | .daemonSet => .daemonSet { status := some oneReady }
    | .deployment => .deployment { status := some oneReady }
    | .job => .job {}

/-- A store with both resources, and with the healthy workloads of the installed one. -/
def Store.shared : Store where
  revision := 0
  resources := [(installed.key, installed), (latecomer.key, latecomer)]
  objects := Component.teardownOrder.map fun c => (c.place "gpu", c.ofInstalled)

/-- The second resource finds the places of its components taken. -/
theorem contested_shared : Contested latecomer.key latecomer "8" Store.shared where
  stored := by decide
  finalizer := by decide
  staying := rfl
  identified := rfl
  held := by
    intro c hc
    cases c with
    | prune => exact absurd rfl (mem_teardownComponents.mp hc).1
    | _ => exact ⟨_, _, rfl, rfl⟩

/-- All of them hold healthy workloads. -/
theorem passes_shared :
    ∀ check ∈ HealthCheck.all latecomer.spec.topologyUpdater,
      check.Passes latecomer.ns Store.shared := by
  intro check hcheck
  simp only [HealthCheck.all, latecomer, if_true, List.cons_append, List.nil_append,
    List.mem_cons, List.not_mem_nil, or_false] at hcheck
  obtain rfl | rfl | rfl | rfl := hcheck <;> exact ⟨_, rfl, by decide⟩

/-- None of them is controlled by the second resource. -/
theorem not_isOwn_shared {check : HealthCheck}
    (h : check ∈ HealthCheck.all latecomer.spec.topologyUpdater) :
    ¬ check.IsOwn latecomer Store.shared := by
  simp only [HealthCheck.all, latecomer, if_true, List.cons_append, List.nil_append,
    List.mem_cons, List.not_mem_nil, or_false] at h
  rintro ⟨o, ho, hown⟩
  obtain rfl | rfl | rfl | rfl := h <;> cases ho <;> exact absurd hown (by decide)

/-- A pass over the second resource builds nothing, and still it reports that all its components are
deployed and ready. -/
theorem available_on_foreign_workloads :
    ∃ f s' n', Contested latecomer.key latecomer "8" Store.shared ∧
      (reconcile {} ⟨0, 0⟩ latecomer.metadata).run Store.respond Store.shared
        (Duration.ofSeconds 0) = (.error f, s', Duration.ofSeconds 0) ∧
      s'.resource? latecomer.key = some n' ∧ Condition.isAvailable n'.conditions = true ∧
      ∀ check ∈ HealthCheck.all latecomer.spec.topologyUpdater,
        ¬ check.IsOwn latecomer Store.shared := by
  obtain ⟨f, s', n', hrun, -, hn', havailable⟩ := exists_contested_pass contested_shared {} ⟨0, 0⟩
    latecomer.metadata (Duration.ofSeconds 0) rfl rfl
  exact ⟨f, s', n', contested_shared, hrun, hn', havailable.mpr passes_shared,
    fun _ => not_isOwn_shared⟩

/-- The same pass, by what it finds. -/
theorem available_whoever_controls_iff_shared :
    Contested latecomer.key latecomer "8" Store.shared ∧
      ∃ f s' n', (reconcile {} ⟨0, 0⟩ latecomer.metadata).run Store.respond Store.shared
          (Duration.ofSeconds 0) = (.error f, s', Duration.ofSeconds 0) ∧
        (∀ k, s'.object? k = Store.shared.object? k) ∧ s'.resource? latecomer.key = some n' ∧
        (Condition.isAvailable n'.conditions = true ↔
          ∀ check ∈ HealthCheck.all latecomer.spec.topologyUpdater,
            check.Passes latecomer.ns Store.shared) :=
  ⟨contested_shared, (available_whoever_controls_iff latecomer Store.shared).2 _ _
    contested_shared {} ⟨0, 0⟩ latecomer.metadata (Duration.ofSeconds 0) rfl rfl⟩

end NodeFeatureOperator
