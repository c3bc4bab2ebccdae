import NodeFeatureOperator.Proofs.Converge
import NodeFeatureOperator.Proofs.Teardown
import NodeFeatureOperator.Reconcile.Pass

/-!
# Traces of a pass

A pass reads the resource, and what it does next depends on what it read alone: it tears down,
converges, or adds the finalizer. Each way has its own calls, and only the teardown can end in the
release of the resource.

## Main definitions

* `ConvergeCall`, `TeardownCall`: the calls of a pass that converges, and of one that tears down.
* `ReportCall`: the calls of a report.
* `conclude`: what a pass that converges makes of its failures.
* `TornDown`: the exchanges of a teardown up to the prune Job.

## Main results

* `asks_reconcile`, `asks_passOver`: the three ways of a pass.
* `convergePass_eq`, `only_convergePass`: the steps and the calls of a pass that converges.
* `asks_finalize`, `teardownCall_or_release`: the calls of a teardown, of which the release of the
  resource is the last.
* `asks_create`, `asks_delete`, `asks_update`: when a pass creates, deletes and replaces objects.
* `asks_updateResource`, `asks_release`: when it writes the resource, and when it gives it up.
-/

namespace NodeFeatureOperator

open Component (deleted found)

namespace NodeFeatureDiscovery

/-- The finalizers, none where there is no list. -/
def finalizers (n : NodeFeatureDiscovery) : List String := n.metadata.finalizers.getD []

/-- The operator's finalizer is present if it is in the list. -/
theorem hasFinalizer_iff {n : NodeFeatureDiscovery} :
    n.hasFinalizer = true ↔ finalizer ∈ n.finalizers := by
  rw [hasFinalizer, finalizers]
  cases n.metadata.finalizers <;> simp

/-- The finalizer is there once it was added. -/
@[simp] theorem hasFinalizer_addFinalizer (n : NodeFeatureDiscovery) :
    n.addFinalizer.hasFinalizer = true :=
  hasFinalizer_iff.mpr (List.mem_append_right _ (List.mem_singleton_self _))

/-- The finalizer is gone once it was removed. -/
@[simp] theorem hasFinalizer_removeFinalizer (n : NodeFeatureDiscovery) :
    n.removeFinalizer.hasFinalizer = false := by
  rw [hasFinalizer, removeFinalizer]
  cases n.metadata.finalizers <;> simp

end NodeFeatureDiscovery

/-! ### The pass and its three ways -/

/-- A pass reads the resource that its trigger names, and goes on only with a resource. -/
theorem asks_reconcile {config : Config} {time : Time} {trigger : Metadata} {t : List Exchange}
    {call : Call} (h : (reconcile config time trigger).Asks t call) :
    ∃ ns, trigger.ns = some ns ∧
      ((t = [] ∧ call = .getResource trigger.anyName ns) ∨
        ∃ n rest, t = ⟨.getResource trigger.anyName ns, .ok (some n)⟩ :: rest ∧
          (passOver config time n trigger.anyName ns).Asks rest call) := by
  rw [reconcile] at h
  split at h
  · simp at h
  next ns hns =>
    refine ⟨ns, hns, ?_⟩
    simp only [Program.bind_eq, Program.request, Program.bind, Program.asks_call_iff] at h
    obtain ⟨rfl, rfl⟩ | ⟨answer, rest, rfl, h⟩ := h
    · exact .inl ⟨rfl, rfl⟩
    rcases answer with f | _ | n
    · simp at h
    · simp at h
    · exact .inr ⟨n, rest, rfl, h⟩

/-- A pass that reads a resource goes on with it. -/
theorem asks_reconcile_of_read {config : Config} {time : Time} {trigger : Metadata} {ns : String}
    {n : NodeFeatureDiscovery} {rest : List Exchange} {call : Call} (hns : trigger.ns = some ns)
    (h : (passOver config time n trigger.anyName ns).Asks rest call) :
    (reconcile config time trigger).Asks
      (⟨.getResource trigger.anyName ns, .ok (some n)⟩ :: rest) call := by
  rw [reconcile, hns]
  exact .call h

/-- A resource that is being deleted is torn down; one that bears the finalizer is converged; any
other is given the finalizer, and that is all. -/
theorem asks_passOver {config : Config} {time : Time} {n : NodeFeatureDiscovery}
    {name ns : String} {t : List Exchange} {call : Call}
    (h : (passOver config time n name ns).Asks t call) :
    (n.isDeleting = true ∧ (finalize config n ns).Asks t call) ∨
      (n.isDeleting = false ∧ n.hasFinalizer = true ∧
        (convergePass config time n name ns).Asks t call) ∨
      (n.isDeleting = false ∧ n.hasFinalizer = false ∧ t = [] ∧
        call = .updateResource n.addFinalizer) := by
  rw [passOver] at h
  split at h
  next hdel => exact .inl ⟨hdel, h⟩
  next hdel =>
    have hdel : n.isDeleting = false := by simpa using hdel
    split at h
    next hfin => exact .inr (.inl ⟨hdel, hfin, h⟩)
    next hfin =>
      have hfin : n.hasFinalizer = false := by simpa using hfin
      simp only [Program.bind_eq, Program.request, Program.bind, Program.asks_call_iff] at h
      obtain ⟨rfl, rfl⟩ | ⟨answer, rest, rfl, h⟩ := h
      · exact .inr (.inr ⟨hdel, hfin, rfl, rfl⟩)
      · cases answer <;> simp at h

/-- A resource that bears the finalizer and is not being deleted is converged. -/
theorem passOver_eq_convergePass (config : Config) (time : Time) {n : NodeFeatureDiscovery}
    (hdel : n.isDeleting = false) (hfin : n.hasFinalizer = true) (name ns : String) :
    passOver config time n name ns = convergePass config time n name ns := by
  simp only [passOver, hdel, hfin, Bool.false_eq_true, if_false, if_true]

/-! ### Convergence -/

/-- What a pass makes of its failures: they are joined, and without any the next pass is due, which
is a resync if the deployment is available. -/
def conclude (config : Config) (failures : List Failure) (available : Bool) :
    Except Failure Action :=
  match Failure.join failures with
  | some f => .error f
  | none => .ok (.requeue (if available then config.resync else config.progress))

/-- A pass goes on to the next one only without failures. -/
theorem conclude_eq_ok_iff {config : Config} {failures : List Failure} {available : Bool}
    {action : Action} :
    conclude config failures available = .ok action ↔ failures = [] ∧
      action = .requeue (if available then config.resync else config.progress) := by
  rw [conclude, ← join_eq_none_iff]
  cases Failure.join failures <;> simp [eq_comm]

/-- A pass that converges attends to its parts, reports, and concludes from all failures. -/
theorem convergePass_eq (config : Config) (time : Time) (n : NodeFeatureDiscovery)
    (name ns : String) :
    convergePass config time n name ns =
      (Component.master.settle n ns).bind fun master =>
      (convergeWorker n ns).bind fun worker =>
      (convergeTopology n ns).bind fun topology =>
      (Component.collector.settle n ns).bind fun collector =>
      (reportStatus time n name ns).bind fun status =>
      .done (conclude config (failureOf master ++ failureOf worker ++ failureOf topology ++
        failureOf collector ++ failureOf status) (status.toOption == some true)) := by
  refine congrArg (Program.bind _) (funext fun master => ?_)
  refine congrArg (Program.bind _) (funext fun worker => ?_)
  refine congrArg (Program.bind _) (funext fun topology => ?_)
  refine congrArg (Program.bind _) (funext fun collector => ?_)
  refine congrArg (Program.bind _) (funext fun status => ?_)
  dsimp only
  rw [conclude]
  generalize Failure.join _ = joined
  rcases joined with _ | f
  · rcases status with f | _ | _ <;> rfl
  · rfl

/-- The calls of a pass that converges: look-ups, writes of components other than the prune Job,
each at its place, and the report. -/
inductive ConvergeCall (ns : String) : Call → Prop
  | get (kind : ResourceKind) (name ns' : String) : ConvergeCall ns (.get kind name ns')
  | create {c : Component} {o : ManagedObject} :
      c ≠ .prune → o.key = c.place ns → ConvergeCall ns (.create o)
  | update (o : ManagedObject) : ConvergeCall ns (.update o)
  | patchStatus (name ns' : String) (conditions : List Condition) :
      ConvergeCall ns (.patchStatus name ns' conditions)

/-- Convergence of a component makes the calls of a pass that converges. -/
theorem only_settle {c : Component} (hc : c ≠ .prune) (n : NodeFeatureDiscovery) (ns : String) :
    (c.settle n ns).Only (ConvergeCall ns) := by
  refine Program.Only.bind (Program.only_of_asks fun t call h => ?_) fun _ => trivial
  obtain ⟨desired, hdesired, ⟨-, rfl⟩ | ⟨-, rfl⟩ | ⟨live, built, -, -, -, -, rfl⟩⟩ :=
    Component.asks_converge h
  · exact .get _ _ _
  · exact .create hc ((ManagedObject.key_recordHash _ _).trans (Component.desired_key hdesired))
  · exact .update _

/-- The calls of a report: look-ups of workloads, and the write of the conditions. -/
inductive ReportCall : Call → Prop
  | get (kind : ResourceKind) (name ns : String) : ReportCall (.get kind name ns)
  | patchStatus (name ns : String) (conditions : List Condition) :
      ReportCall (.patchStatus name ns conditions)

/-- The calls of a report are calls of a pass that converges. -/
theorem ReportCall.convergeCall {call : Call} (h : ReportCall call) (ns : String) :
    ConvergeCall ns call := by
  cases h with
  | get kind name ns' => exact .get kind name ns'
  | patchStatus name ns' conditions => exact .patchStatus name ns' conditions

/-- The look at the workloads makes calls of a report. -/
theorem only_firstUnhealthy (ns : String) (checks : List HealthCheck) :
    (firstUnhealthy ns checks).Only ReportCall := by
  induction checks with
  | nil => exact trivial
  | cons check rest ih =>
      refine ⟨.get _ _ _, fun found => ?_⟩
      simp only [Program.bind]
      split
      · exact ih
      · exact trivial

/-- The report makes no other calls. -/
theorem only_reportStatus (time : Time) (n : NodeFeatureDiscovery) (name ns : String) :
    (reportStatus time n name ns).Only ReportCall := by
  refine Program.Only.bind ((only_firstUnhealthy n.ns _).bind fun _ => trivial) fun cs => ?_
  split
  · exact trivial
  · refine ⟨.patchStatus _ _ _, fun answer => ?_⟩
    cases answer <;> exact trivial

/-- A pass that converges looks up, writes components at their places, and reports. -/
theorem only_convergePass (config : Config) (time : Time) (n : NodeFeatureDiscovery)
    (name ns : String) : (convergePass config time n name ns).Only (ConvergeCall ns) := by
  rw [convergePass_eq]
  refine (only_settle (by decide) n ns).bind fun master => ?_
  refine Program.Only.bind ?_ fun worker => ?_
  · refine (only_settle (by decide) n ns).bind fun config => ?_
    cases config with
    | error f => exact trivial
    | ok u => exact only_settle (by decide) n ns
  refine Program.Only.bind ?_ fun topology => ?_
  · rw [convergeTopology]
    split
    · exact only_settle (by decide) n ns
    · exact trivial
  refine (only_settle (by decide) n ns).bind fun collector => ?_
  have hreport := (only_reportStatus time n name ns).mono fun _ h => h.convergeCall ns
  exact hreport.bind fun status => trivial

/-- A pass that reads a resource with the finalizer comes to the worker's configuration although the
master could not be looked up. -/
theorem asks_settle_workerConfig (config : Config) (time : Time) (trigger : Metadata)
    {n : NodeFeatureDiscovery} {ns : String} {master : ManagedObject} {t : List Exchange}
    {call : Call} (hns : trigger.ns = some ns) (hdel : n.isDeleting = false)
    (hfin : n.hasFinalizer = true) (hmaster : Component.master.desired n ns = .ok master)
    (f : Failure) (h : (Component.workerConfig.settle n ns).Asks t call) :
    (reconcile config time trigger).Asks
      (⟨.getResource trigger.anyName ns, .ok (some n)⟩ ::
        ⟨.get Component.master.kind Component.master.name ns, .error f⟩ :: t) call := by
  refine asks_reconcile_of_read hns ?_
  rw [passOver_eq_convergePass config time hdel hfin]
  refine Program.asks_bind_iff.mpr (.inr ?_)
  refine ⟨_, [_], t, rfl, Component.ends_settle_refused hmaster f, ?_⟩
  exact Program.asks_bind_iff.mpr (.inl (Program.asks_bind_iff.mpr (.inl h)))

/-- A pass that reads a resource with the finalizer, and with the flag, creates a topology updater
that does not exist, although the components before it could not be looked up. -/
theorem asks_create_topologyUpdater (config : Config) (time : Time) (trigger : Metadata)
    {n : NodeFeatureDiscovery} {ns : String} {ref : OwnerReference} (hns : trigger.ns = some ns)
    (hdel : n.isDeleting = false) (hfin : n.hasFinalizer = true)
    (hflag : n.spec.topologyUpdater = true) (href : n.ownerReference? = some ref) (f : Failure) :
    ∃ o, o.key = Component.topologyUpdater.place ns ∧ (reconcile config time trigger).Asks
      [⟨.getResource trigger.anyName ns, .ok (some n)⟩,
        ⟨.get Component.master.kind Component.master.name ns, .error f⟩,
        ⟨.get Component.workerConfig.kind Component.workerConfig.name ns, .error f⟩,
        found ns .topologyUpdater none] (.create o) := by
  obtain ⟨master, hmaster⟩ := Component.exists_desired href .master ns
  obtain ⟨workerConfig, hworkerConfig⟩ := Component.exists_desired href .workerConfig ns
  obtain ⟨topology, htopology⟩ := Component.exists_desired href .topologyUpdater ns
  refine ⟨_, (ManagedObject.key_recordHash topology.contentHash _).trans
    (Component.desired_key htopology), asks_reconcile_of_read hns ?_⟩
  have hworker : (convergeWorker n ns).Ends
      [⟨.get Component.workerConfig.kind Component.workerConfig.name ns, .error f⟩]
      (.error (Component.workerConfig.failure ns f)) :=
    Program.ends_bind_iff.mpr
      ⟨_, [_], [], rfl, Component.ends_settle_refused hworkerConfig f, .done _⟩
  rw [passOver_eq_convergePass config time hdel hfin]
  refine Program.asks_bind_iff.mpr (.inr ?_)
  refine ⟨_, [_], _, rfl, Component.ends_settle_refused hmaster f, ?_⟩
  refine Program.asks_bind_iff.mpr (.inr ⟨_, [_], _, rfl, hworker, ?_⟩)
  refine Program.asks_bind_iff.mpr (.inl ?_)
  rw [convergeTopology, if_pos hflag]
  exact Component.asks_settle_create htopology

/-! ### Teardown -/

/-- The exchanges of a teardown that has found every component gone: all deletions accepted, and
then all look-ups answered with nothing. -/
def TornDown (s : Spec) (ns : String) : List Exchange :=
  (teardownComponents s).map (deleted ns) ++ (teardownComponents s).map (found ns · none)

/-- The calls of a teardown come from its four stages in order, each of which is only reached when
the ones before it have succeeded; the last is the release. -/
theorem asks_finalize {config : Config} {n : NodeFeatureDiscovery} {ns : String}
    {t : List Exchange} {call : Call} (h : (finalize config n ns).Asks t call) :
    n.hasFinalizer = true ∧
      ((deleteComponents n ns).Asks t call ∨
        (∃ rest, t = (teardownComponents n.spec).map (deleted ns) ++ rest ∧
          (remainingComponents n ns).Asks rest call) ∨
        (∃ rest, t = TornDown n.spec ns ++ rest ∧ (prune config.prunePoll n ns).Asks rest call) ∨
        (∃ rest, t = TornDown n.spec ns ++ rest ∧ PruneDone n.spec ns rest ∧
          call = .updateResource n.removeFinalizer)) := by
  rw [finalize] at h
  split at h
  next hfin =>
    refine ⟨hfin, ?_⟩
    obtain hasks | ⟨deletion, t₁, t₂, rfl, hdeletion, hthen⟩ := Program.asks_bind_iff.mp h
    · exact .inl hasks
    cases deletion with
    | error f => simp at hthen
    | ok u =>
        obtain rfl := ends_deleteComponents_iff.mp hdeletion
        obtain hasks | ⟨remaining, t₂, t₃, rfl, hremaining, hnext⟩ :=
          Program.asks_bind_iff.mp hthen
        · exact .inr (.inl ⟨t₂, rfl, hasks⟩)
        rcases remaining with f | (_ | ⟨c, cs⟩)
        · simp at hnext
        · obtain rfl := ends_remainingComponents_iff.mp hremaining
          obtain hasks | ⟨pruned, t₃, t₄, rfl, hpruned, hlast⟩ := Program.asks_bind_iff.mp hnext
          · exact .inr (.inr (.inl ⟨_, (List.append_assoc _ _ _).symm, hasks⟩))
          rcases pruned with f | (_ | _)
          · simp at hlast
          · simp at hlast
          · obtain ⟨hne, -⟩ | ⟨-, hdone⟩ := ends_prune hpruned
            · exact absurd rfl hne
            simp only [Program.bind_eq, Program.request, Program.bind,
              Program.asks_call_iff] at hlast
            obtain ⟨rfl, rfl⟩ | ⟨answer, rest, rfl, hend⟩ := hlast
            · exact .inr (.inr (.inr ⟨t₃, by simp [TornDown], hdone, rfl⟩))
            · cases answer <;> simp at hend
        · simp at hnext
  · simp at h

/-- A teardown that finds every component gone comes to the prune Job, and to the release once
pruning is done. -/
theorem asks_finalize_of_tornDown {config : Config} {n : NodeFeatureDiscovery} {ns : String}
    {rest : List Exchange} {call : Call} (hfin : n.hasFinalizer = true)
    (h : (prune config.prunePoll n ns).Asks rest call ∨
      ((prune config.prunePoll n ns).Ends rest (.ok true) ∧
        call = .updateResource n.removeFinalizer)) :
    (finalize config n ns).Asks (TornDown n.spec ns ++ rest) call := by
  rw [finalize, if_pos hfin, TornDown, List.append_assoc]
  refine Program.asks_bind_iff.mpr (.inr ?_)
  refine ⟨.ok (), _, _, rfl, ends_deleteComponents_iff.mpr rfl, Program.asks_bind_iff.mpr (.inr ?_)⟩
  refine ⟨.ok [], _, _, rfl, ends_remainingComponents_iff.mpr rfl, Program.asks_bind_iff.mpr ?_⟩
  obtain h | ⟨h, rfl⟩ := h
  · exact .inl h
  · exact .inr ⟨.ok true, rest, [], (List.append_nil _).symm, h, .here _ _⟩

/-- A pass that reads a resource on its way out, and finds every component gone, comes to the prune
Job, and to the release once pruning is done. -/
theorem asks_reconcile_of_tornDown (config : Config) (time : Time) (trigger : Metadata)
    {n : NodeFeatureDiscovery} {ns : String} {rest : List Exchange} {call : Call}
    (hns : trigger.ns = some ns) (hdel : n.isDeleting = true) (hfin : n.hasFinalizer = true)
    (h : (prune config.prunePoll n ns).Asks rest call ∨
      ((prune config.prunePoll n ns).Ends rest (.ok true) ∧
        call = .updateResource n.removeFinalizer)) :
    (reconcile config time trigger).Asks
      (⟨.getResource trigger.anyName ns, .ok (some n)⟩ :: (TornDown n.spec ns ++ rest)) call := by
  refine asks_reconcile_of_read hns ?_
  rw [passOver, if_pos hdel]
  exact asks_finalize_of_tornDown hfin h

/-- The calls of a teardown before its release: deletions, look-ups, and the creation of the prune
Job. -/
inductive TeardownCall (ns : String) : Call → Prop
  | delete (c : Component) : TeardownCall ns (.delete c.kind c.name ns)
  | get (c : Component) : TeardownCall ns (.get c.kind c.name ns)
  | create {o : ManagedObject} : o.key = Component.prune.place ns → TeardownCall ns (.create o)

/-- The deletion of the components makes calls of a teardown. -/
theorem only_deleteComponents (n : NodeFeatureDiscovery) (ns : String) :
    (deleteComponents n ns).Only (TeardownCall ns) := by
  refine Program.only_of_asks fun t call h => ?_
  obtain ⟨c, -, rfl⟩ := asks_deleteComponents h
  exact .delete c

/-- The search for what is left makes calls of a teardown. -/
theorem only_remainingComponents (n : NodeFeatureDiscovery) (ns : String) :
    (remainingComponents n ns).Only (TeardownCall ns) := by
  refine Program.only_of_asks fun t call h => ?_
  obtain ⟨c, -, rfl⟩ := asks_remainingComponents h
  exact .get c

/-- A step of pruning makes calls of a teardown. -/
theorem only_prune (poll : PollConfig) (n : NodeFeatureDiscovery) (ns : String) :
    (prune poll n ns).Only (TeardownCall ns) := by
  refine Program.only_of_asks fun t call h => ?_
  obtain ⟨-, rfl | ⟨rfl, -⟩ | ⟨job, hjob, rfl, -⟩⟩ := asks_prune h
  · exact .get .prune
  · exact .delete .prune
  · exact .create (Component.desired_key hjob)

/-- The exchanges that a teardown is built from are calls of a teardown. -/
theorem teardownCall_of_mem_tornDown {s : Spec} {ns : String} {e : Exchange}
    (h : e ∈ TornDown s ns) : TeardownCall ns e.call := by
  rw [TornDown, List.mem_append, List.mem_map, List.mem_map] at h
  obtain ⟨c, -, rfl⟩ | ⟨c, -, rfl⟩ := h
  · exact .delete c
  · exact .get c

/-- Pruning that is done consists of calls of a teardown. -/
theorem PruneDone.teardownCall {s : Spec} {ns : String} {t : List Exchange}
    (h : PruneDone s ns t) : ∀ e ∈ t, TeardownCall ns e.call := by
  cases h with
  | off => simp
  | ran _ _ _ _ hwaiting =>
      intro e he
      obtain rfl | rfl | he : e = found ns .prune _ ∨ e = deleted ns .prune ∨ e ∈ _ := by
        simpa using he
      · exact .get .prune
      · exact .delete .prune
      · rw [hwaiting e he]
        exact .get .prune

/-- Before any call of a teardown there are calls of a teardown only: nothing follows a release. -/
theorem teardownCall_before {config : Config} {n : NodeFeatureDiscovery} {ns : String}
    {t : List Exchange} {call : Call} (h : (finalize config n ns).Asks t call) :
    ∀ e ∈ t, TeardownCall ns e.call := by
  obtain ⟨-, hasks | ⟨rest, rfl, hasks⟩ | ⟨rest, rfl, hasks⟩ | ⟨rest, rfl, hdone, -⟩⟩ :=
    asks_finalize h
  · exact (only_deleteComponents n ns).of_asks_before hasks
  · intro e he
    obtain he | he := List.mem_append.mp he
    · exact teardownCall_of_mem_tornDown (List.mem_append_left _ he)
    · exact (only_remainingComponents n ns).of_asks_before hasks e he
  · intro e he
    obtain he | he := List.mem_append.mp he
    · exact teardownCall_of_mem_tornDown he
    · exact (only_prune config.prunePoll n ns).of_asks_before hasks e he
  · intro e he
    obtain he | he := List.mem_append.mp he
    · exact teardownCall_of_mem_tornDown he
    · exact hdone.teardownCall e he

/-- A call of a teardown is one of its own sort, or the release after a whole teardown. -/
theorem teardownCall_or_release {config : Config} {n : NodeFeatureDiscovery} {ns : String}
    {t : List Exchange} {call : Call} (h : (finalize config n ns).Asks t call) :
    TeardownCall ns call ∨
      ∃ rest, t = TornDown n.spec ns ++ rest ∧ PruneDone n.spec ns rest ∧
        call = .updateResource n.removeFinalizer := by
  obtain ⟨-, h | ⟨rest, -, h⟩ | ⟨rest, -, h⟩ | h⟩ := asks_finalize h
  · exact .inl ((only_deleteComponents n ns).of_asks h)
  · exact .inl ((only_remainingComponents n ns).of_asks h)
  · exact .inl ((only_prune config.prunePoll n ns).of_asks h)
  · exact .inr h

/-- Of the components that are torn down none has the place of the prune Job. -/
theorem delete_ne_delete_prune {s : Spec} {ns : String} {c : Component}
    (hc : c ∈ teardownComponents s) : Call.delete Component.prune.kind Component.prune.name ns ≠
      .delete c.kind c.name ns := by
  intro heq
  obtain ⟨hkind, hname, -⟩ := Call.delete.inj heq
  have hplace : Component.prune.place ns = c.place ns := by
    simp only [Component.place, hkind, hname]
  exact (mem_teardownComponents.mp hc).1 (Component.place_injective hplace).1.symm

/-- The prune Job is not deleted before the components are gone. -/
theorem deleted_prune_notMem_tornDown (s : Spec) (ns : String) :
    deleted ns .prune ∉ TornDown s ns := by
  intro h
  rw [TornDown, List.mem_append, List.mem_map, List.mem_map] at h
  obtain ⟨c, hc, heq⟩ | ⟨c, -, heq⟩ := h
  · exact delete_ne_delete_prune hc (congrArg Exchange.call heq).symm
  · cases congrArg Exchange.call heq

/-- Once the deletion of the prune Job is accepted, a teardown looks for the Job, and then gives the
resource up; it does nothing else. -/
theorem asks_finalize_of_deleted {config : Config} {n : NodeFeatureDiscovery} {ns : String}
    {t : List Exchange} {call : Call} (h : (finalize config n ns).Asks t call)
    (hdeleted : deleted ns .prune ∈ t) :
    call = .get Component.prune.kind Component.prune.name ns ∨
      call = .updateResource n.removeFinalizer := by
  obtain ⟨-, hasks | ⟨rest, rfl, hasks⟩ | ⟨rest, rfl, hasks⟩ | ⟨rest, -, -, rfl⟩⟩ :=
    asks_finalize h
  · have honly : (deleteComponents n ns).Only fun call =>
        ∃ c ∈ teardownComponents n.spec, call = .delete c.kind c.name ns :=
      Program.only_of_asks fun _ _ => asks_deleteComponents
    obtain ⟨c, hc, hcall⟩ := honly.of_asks_before hasks _ hdeleted
    exact absurd hcall (delete_ne_delete_prune hc)
  · have honly : (remainingComponents n ns).Only fun call =>
        ∃ c ∈ teardownComponents n.spec, call = .get c.kind c.name ns :=
      Program.only_of_asks fun _ _ => asks_remainingComponents
    obtain hmem | hmem := List.mem_append.mp hdeleted
    · exact absurd (List.mem_append_left _ hmem) (deleted_prune_notMem_tornDown n.spec ns)
    · obtain ⟨c, -, hcall⟩ := honly.of_asks_before hasks _ hmem
      cases hcall
  · obtain hmem | hmem := List.mem_append.mp hdeleted
    · exact absurd hmem (deleted_prune_notMem_tornDown n.spec ns)
    obtain ⟨-, rfl | ⟨-, object, -, rfl⟩ | ⟨job, -, -, rfl⟩⟩ := asks_prune hasks
    · exact .inl rfl
    · cases congrArg Exchange.call (List.mem_singleton.mp hmem)
    · cases congrArg Exchange.call (List.mem_singleton.mp hmem)
  · exact .inr rfl

/-! ### Creations, deletions, updates and releases -/

/-- A pass creates objects only for a resource that it has read with the finalizer, only at the
places of components, and not once it has written the resource. -/
theorem asks_create {config : Config} {time : Time} {trigger : Metadata} {t : List Exchange}
    {o : ManagedObject} (h : (reconcile config time trigger).Asks t (.create o)) :
    ∃ ns n rest, trigger.ns = some ns ∧
      t = ⟨.getResource trigger.anyName ns, .ok (some n)⟩ :: rest ∧ n.hasFinalizer = true ∧
      (∀ e ∈ rest, ∀ m, e.call ≠ .updateResource m) ∧ ∃ c : Component, o.key = c.place ns := by
  obtain ⟨ns, hns, ⟨-, hcall⟩ | ⟨n, rest, rfl, hpass⟩⟩ := asks_reconcile h
  · cases hcall
  refine ⟨ns, n, rest, hns, rfl, ?_⟩
  obtain ⟨-, hfinalize⟩ | ⟨-, hfin, hconverge⟩ | ⟨-, -, -, hcall⟩ := asks_passOver hpass
  · refine ⟨(asks_finalize hfinalize).1, fun e he m hm => ?_, ?_⟩
    · have hbefore : TeardownCall ns e.call := teardownCall_before hfinalize e he
      rw [hm] at hbefore
      cases hbefore
    · obtain hcall | ⟨-, -, -, hcall⟩ := teardownCall_or_release hfinalize
      · cases hcall with
        | create hkey => exact ⟨.prune, hkey⟩
      · cases hcall
  · have honly := only_convergePass config time n trigger.anyName ns
    refine ⟨hfin, fun e he m hm => ?_, ?_⟩
    · have hbefore : ConvergeCall ns e.call := honly.of_asks_before hconverge e he
      rw [hm] at hbefore
      cases hbefore
    · cases honly.of_asks hconverge with
      | create _ hkey => exact ⟨_, hkey⟩
  · cases hcall

/-- A pass deletes objects only for a resource that it has read being deleted and with the
finalizer: a component that is torn down, after deletions of such components alone, or the prune
Job, right after it was found completed. It has not looked at who controls them. -/
theorem asks_delete {config : Config} {time : Time} {trigger : Metadata} {t : List Exchange}
    {kind : ResourceKind} {name ns' : String}
    (h : (reconcile config time trigger).Asks t (.delete kind name ns')) :
    ∃ ns n rest c, trigger.ns = some ns ∧
      t = ⟨.getResource trigger.anyName ns, .ok (some n)⟩ :: rest ∧
      n.isDeleting = true ∧ n.hasFinalizer = true ∧
      (⟨kind, ns', name⟩ : ObjectKey) = Component.place c ns ∧
      ((c ∈ teardownComponents n.spec ∧
          ∀ e ∈ rest, ∃ d ∈ teardownComponents n.spec, e.call = .delete d.kind d.name ns) ∨
        (c = .prune ∧ n.spec.pruneOnDelete = true ∧ ∃ o : ManagedObject, o.Completed ∧
          rest = TornDown n.spec ns ++ [found ns .prune (some o)])) := by
  obtain ⟨ns, hns, ⟨-, hcall⟩ | ⟨n, rest, rfl, hpass⟩⟩ := asks_reconcile h
  · cases hcall
  obtain ⟨hdel, hfinalize⟩ | ⟨-, -, hconverge⟩ | ⟨-, -, -, hcall⟩ := asks_passOver hpass
  · obtain ⟨hfin, hasks | ⟨t, -, hasks⟩ | ⟨t, rfl, hasks⟩ | ⟨t, -, -, hcall⟩⟩ :=
      asks_finalize hfinalize
    · have honly : (deleteComponents n ns).Only fun call =>
          ∃ d ∈ teardownComponents n.spec, call = .delete d.kind d.name ns :=
        Program.only_of_asks fun _ _ => asks_deleteComponents
      obtain ⟨c, hc, hcall⟩ := asks_deleteComponents hasks
      obtain ⟨rfl, rfl, rfl⟩ := Call.delete.inj hcall
      exact ⟨ns', n, rest, c, hns, rfl, hdel, hfin, rfl, .inl ⟨hc, honly.of_asks_before hasks⟩⟩
    · obtain ⟨c, -, hcall⟩ := asks_remainingComponents hasks
      cases hcall
    · obtain ⟨hon, hcall | ⟨hcall, o, ho, rfl⟩ | ⟨job, -, hcall, -⟩⟩ := asks_prune hasks
      · cases hcall
      · obtain ⟨rfl, rfl, rfl⟩ := Call.delete.inj hcall
        exact ⟨ns', n, _, .prune, hns, rfl, hdel, hfin, rfl, .inr ⟨rfl, hon, o, ho, rfl⟩⟩
      · cases hcall
    · cases hcall
  · cases (only_convergePass config time n trigger.anyName ns).of_asks hconverge
  · cases hcall

/-- What an update rests on: it is the build of a component onto the object that was looked up right
before it, with a digest recorded. -/
def BuiltOnFound (n : NodeFeatureDiscovery) (ns : String) (t : List Exchange)
    (call : Call) : Prop :=
  ∀ o, call = .update o → ∃ c live built hash, t = [found ns c (some live)] ∧
    c.built n live = .ok built ∧ o = built.recordHash hash

/-- Convergence of a component updates by builds onto what it has just found. -/
theorem heeds_settle (c : Component) (n : NodeFeatureDiscovery) (ns : String) :
    (c.settle n ns).Heeds (BuiltOnFound n ns) := by
  refine Program.Heeds.bind (fun t call h => ?_) fun _ => Program.heeds_done _
  obtain ⟨desired, -, ⟨-, rfl⟩ | ⟨-, rfl⟩ | ⟨live, built, rfl, hbuilt, -, -, rfl⟩⟩ :=
    Component.asks_converge h
  · refine ⟨t, [], (List.append_nil t).symm, fun o ho => ?_⟩
    cases ho
  · refine ⟨t, [], (List.append_nil t).symm, fun o ho => ?_⟩
    cases ho
  · refine ⟨[], _, rfl, fun o ho => ?_⟩
    obtain rfl := Call.update.inj ho
    exact ⟨c, live, built, _, rfl, hbuilt, rfl⟩

/-- So does a pass that converges. -/
theorem heeds_convergePass (config : Config) (time : Time) (n : NodeFeatureDiscovery)
    (name ns : String) : (convergePass config time n name ns).Heeds (BuiltOnFound n ns) := by
  rw [convergePass_eq]
  refine (heeds_settle .master n ns).bind fun master => ?_
  refine Program.Heeds.bind ?_ fun worker => ?_
  · refine (heeds_settle .workerConfig n ns).bind fun config => ?_
    cases config with
    | error f => exact Program.heeds_done _
    | ok u => exact heeds_settle .worker n ns
  refine Program.Heeds.bind ?_ fun topology => ?_
  · rw [convergeTopology]
    split
    · exact heeds_settle .topologyUpdater n ns
    · exact Program.heeds_done _
  refine (heeds_settle .collector n ns).bind fun collector => ?_
  refine ((only_reportStatus time n name ns).heeds ?_).bind fun status => Program.heeds_done _
  rintro call (_ | _) o ho <;> cases ho

/-- A pass updates an object by a build onto that object, which it has looked up right before. -/
theorem asks_update {config : Config} {time : Time} {trigger : Metadata} {t : List Exchange}
    {o : ManagedObject} (h : (reconcile config time trigger).Asks t (.update o)) :
    ∃ ns n c live built hash t', trigger.ns = some ns ∧ t = t' ++ [found ns c (some live)] ∧
      c.built n live = .ok built ∧ o = built.recordHash hash := by
  obtain ⟨ns, hns, ⟨-, hcall⟩ | ⟨n, rest, rfl, hpass⟩⟩ := asks_reconcile h
  · cases hcall
  obtain ⟨-, hfinalize⟩ | ⟨-, -, hconverge⟩ | ⟨-, -, -, hcall⟩ := asks_passOver hpass
  · obtain hcall | ⟨-, -, -, hcall⟩ := teardownCall_or_release hfinalize <;> cases hcall
  · obtain ⟨t₁, t₂, rfl, hQ⟩ := heeds_convergePass config time n trigger.anyName ns _ _ hconverge
    obtain ⟨c, live, built, hash, rfl, hbuilt, rfl⟩ := hQ o rfl
    exact ⟨ns, n, c, live, built, hash, _ :: t₁, hns, rfl, hbuilt, rfl⟩
  · cases hcall

/-- A pass writes a resource as the one that it has read, with the finalizer added if it was not
there, or removed if the resource is being deleted and it was. -/
theorem asks_updateResource {config : Config} {time : Time} {trigger : Metadata}
    {t : List Exchange} {m : NodeFeatureDiscovery}
    (h : (reconcile config time trigger).Asks t (.updateResource m)) :
    ∃ ns n rest, trigger.ns = some ns ∧
      t = ⟨.getResource trigger.anyName ns, .ok (some n)⟩ :: rest ∧
      ((n.isDeleting = false ∧ n.hasFinalizer = false ∧ m = n.addFinalizer) ∨
        (n.isDeleting = true ∧ n.hasFinalizer = true ∧ m = n.removeFinalizer)) := by
  obtain ⟨ns, hns, ⟨-, hcall⟩ | ⟨n, rest, rfl, hpass⟩⟩ := asks_reconcile h
  · cases hcall
  refine ⟨ns, n, rest, hns, rfl, ?_⟩
  obtain ⟨hdel, hfinalize⟩ | ⟨-, -, hconverge⟩ | ⟨hdel, hfin, -, hcall⟩ := asks_passOver hpass
  · obtain hcall | ⟨-, -, -, hcall⟩ := teardownCall_or_release hfinalize
    · cases hcall
    · exact .inr ⟨hdel, (asks_finalize hfinalize).1, Call.updateResource.inj hcall⟩
  · cases (only_convergePass config time n trigger.anyName ns).of_asks hconverge
  · exact .inl ⟨hdel, hfin, Call.updateResource.inj hcall⟩

/-- A write of a resource without the finalizer is the release at the end of a teardown: the only
other write of a resource puts the finalizer there. -/
theorem asks_release {config : Config} {time : Time} {n m : NodeFeatureDiscovery}
    {name ns : String} {t : List Exchange}
    (h : (passOver config time n name ns).Asks t (.updateResource m))
    (hm : m.hasFinalizer = false) :
    n.isDeleting = true ∧ n.hasFinalizer = true ∧ m = n.removeFinalizer ∧
      ∃ pruning, t = TornDown n.spec ns ++ pruning ∧ PruneDone n.spec ns pruning := by
  obtain ⟨hdel, hfinalize⟩ | ⟨-, -, hconverge⟩ | ⟨-, -, -, hcall⟩ := asks_passOver h
  · obtain hother | ⟨pruning, ht, hdone, hcall⟩ := teardownCall_or_release hfinalize
    · cases hother
    · exact ⟨hdel, (asks_finalize hfinalize).1, Call.updateResource.inj hcall, pruning, ht, hdone⟩
  · cases (only_convergePass config time n name ns).of_asks hconverge
  · obtain rfl := Call.updateResource.inj hcall
    simp at hm

end NodeFeatureOperator
