import NodeFeatureOperator.Proofs.Amendment
import NodeFeatureOperator.Proofs.Pass
import NodeFeatureOperator.Proofs.SteadyState
import NodeFeatureOperator.Proofs.Verdict

/-!
# The parts of a pass that converges

A pass that converges attends to the components one after the other, and then reports. Whatever it
is answered, its trace falls into one part for each component and the report: the failure of one
component does not keep the pass from another one, except that the worker is only attended to once
its configuration is in place.

## Main definitions

* `Component.Converges`: the traces of the convergence of one component, and what each comes to.
* `Component.Attends`: the same traces, and how each ends, whatever the component comes to.
* `Component.passOrder`: the order in which the components are attended to.
* `Attendance`: the parts of a pass, and how each ended.
* `partFailures`: the failures of the parts.
* `StatusWrite`: the write of the conditions that a report may make.

## Main results

* `Component.converges_of_ends`: convergence of a component makes one of its traces.
* `ends_convergePass`: the parts of a pass that converges.
* `ends_reportStatus_iff`: a report looks up, and then writes the conditions or does not.
-/

namespace NodeFeatureOperator

open Component (found)

namespace Component

variable {c : Component} {n : NodeFeatureDiscovery} {ns : String} {t : List Exchange}

/-! ### One component -/

/-- The traces of the convergence of a component with any answers, and what each comes to. -/
inductive Converges (c : Component) (n : NodeFeatureDiscovery) (ns : String) :
    List Exchange → Except Failure Outcome → Prop
  /-- Nothing can be built. -/
  | unbuilt {f : Failure} : c.desired n ns = .error f →
      Converges c n ns [] (.error (c.failure ns f))
  /-- The object cannot be looked up. -/
  | unread {desired : ManagedObject} (f : Failure) : c.desired n ns = .ok desired →
      Converges c n ns [⟨.get c.kind c.name ns, .error f⟩] (.error (c.failure ns f))
  /-- It cannot be told what to do about the object that was found. -/
  | undecided {desired : ManagedObject} {live? : Option ManagedObject} {f : Failure} :
      c.desired n ns = .ok desired → c.amendment n ns live? = .error f →
      Converges c n ns [found ns c live?] (.error (c.failure ns f))
  /-- The object is left. -/
  | left {live? : Option ManagedObject} : c.amendment n ns live? = .ok .leave →
      Converges c n ns [found ns c live?] (.ok .unchanged)
  /-- An object that was not found is created. -/
  | created {o : ManagedObject} (answer : Except Failure Unit) :
      c.amendment n ns none = .ok (.create o) →
      Converges c n ns [found ns c none, ⟨.create o, answer⟩]
        ((answer.map fun _ => .created).mapError (c.failure ns))
  /-- The object that was found is replaced. -/
  | updated {live o : ManagedObject} (answer : Except Failure Unit) :
      c.amendment n ns (some live) = .ok (.update o) →
      Converges c n ns [found ns c (some live), ⟨.update o, answer⟩]
        ((answer.map fun _ => .updated).mapError (c.failure ns))

/-- What was decided on about the object that was found makes one call at most. -/
theorem converges_of_ends_carryOut {live? : Option ManagedObject} {a : Amendment}
    {r : Except Failure Outcome} (hdecided : c.amendment n ns live? = .ok a)
    (h : a.carryOut.Ends t r) :
    c.Converges n ns (found ns c live? :: t) (r.mapError (c.failure ns)) := by
  cases a with
  | leave =>
      obtain ⟨rfl, rfl⟩ := Program.ends_done_iff.mp h
      exact .left hdecided
  | create o =>
      obtain ⟨rfl, -⟩ := exists_of_amendment_create hdecided
      obtain ⟨answer, rest, rfl, hend⟩ := Program.ends_call_iff.mp h
      obtain ⟨rfl, rfl⟩ := Program.ends_done_iff.mp hend
      exact .created answer hdecided
  | update o =>
      obtain ⟨_, live, _, -, rfl, -, -⟩ := exists_of_amendment_update hdecided
      obtain ⟨answer, rest, rfl, hend⟩ := Program.ends_call_iff.mp h
      obtain ⟨rfl, rfl⟩ := Program.ends_done_iff.mp hend
      exact .updated answer hdecided

/-- Convergence of a component makes one of its traces, before its failures are attributed. -/
theorem converges_of_ends_core {r : Except Failure Outcome} (h : (c.convergeCore n ns).Ends t r) :
    c.Converges n ns t (r.mapError (c.failure ns)) := by
  cases hdesired : c.desired n ns with
  | error f =>
      rw [convergeCore, hdesired] at h
      obtain ⟨rfl, rfl⟩ := Program.ends_done_iff.mp h
      exact .unbuilt hdesired
  | ok desired =>
      rw [convergeCore_eq hdesired] at h
      obtain ⟨answer, rest, rfl, hrest⟩ := Program.ends_call_iff.mp h
      cases answer with
      | error f =>
          obtain ⟨rfl, rfl⟩ := Program.ends_done_iff.mp hrest
          exact .unread f hdesired
      | ok live? =>
          dsimp only [Except.bind] at hrest
          split at hrest
          next f hundecided =>
            obtain ⟨rfl, rfl⟩ := Program.ends_done_iff.mp hrest
            exact .undecided hdesired hundecided
          next a hdecided => exact converges_of_ends_carryOut hdecided hrest

/-- Convergence of a component makes one of its traces, and comes to the same. -/
theorem converges_of_ends {r : Except Failure Outcome} (h : (c.converge n ns).Ends t r) :
    c.Converges n ns t r := by
  obtain ⟨core, t₁, t₂, rfl, hcore, hend⟩ := Program.ends_bind_iff.mp h
  obtain ⟨rfl, rfl⟩ := Program.ends_done_iff.mp hend
  rw [List.append_nil]
  exact converges_of_ends_core hcore

/-- The traces of the convergence of a component with any answers, and how each ends. It is
attended to without a failure if its object was left as it was found, or if the one write that was
decided on was accepted. -/
def Attends (c : Component) (n : NodeFeatureDiscovery) (ns : String) (t : List Exchange)
    (r : Except Failure Unit) : Prop :=
  ∃ outcome, c.Converges n ns t outcome ∧ r = outcome.map fun _ => ()

/-- Convergence of a component, whatever that does to it, makes one of its traces. -/
theorem attends_of_ends {r : Except Failure Unit} (h : (c.settle n ns).Ends t r) :
    c.Attends n ns t r := by
  obtain ⟨outcome, t₁, t₂, rfl, hconverge, hend⟩ := Program.ends_bind_iff.mp h
  obtain ⟨rfl, rfl⟩ := Program.ends_done_iff.mp hend
  rw [List.append_nil]
  exact ⟨outcome, converges_of_ends hconverge, rfl⟩

/-- A component is looked up, and objects of its kind are written. -/
theorem Attends.own {r : Except Failure Unit} (h : c.Attends n ns t r) :
    ∀ e ∈ t, e.call = .get c.kind c.name ns ∨
      ∃ o : ManagedObject, o.kind = c.kind ∧ (e.call = .create o ∨ e.call = .update o) := by
  have hget : ∀ live?, (found ns c live?).call = .get c.kind c.name ns := fun _ => rfl
  obtain ⟨outcome, h, rfl⟩ := h
  cases h with
  | unbuilt => simp
  | unread => simp
  | undecided => simp [hget]
  | left => simp [hget]
  | created answer h =>
      obtain ⟨-, desired, hdesired, rfl⟩ := exists_of_amendment_create h
      have hkind : (desired.recordHash desired.contentHash).kind = c.kind :=
        (built_identity hdesired).1
      simp [hget, hkind]
  | updated answer h =>
      obtain ⟨desired, live, built, -, -, hbuilt, rfl⟩ := exists_of_amendment_update h
      have hkind : (built.recordHash desired.contentHash).kind = c.kind := (built_identity hbuilt).1
      simp [hget, hkind]

/-- A component is written once at most. -/
theorem Attends.countP_le {r : Except Failure Unit} (h : c.Attends n ns t r) :
    t.countP (·.call.target?.isSome) ≤ 1 := by
  obtain ⟨outcome, h, rfl⟩ := h
  cases h <;> simp [found, Call.target?]

/-- What is written is written at the component's place, if what was found there has its names. -/
theorem Attends.target {r : Except Failure Unit} (h : c.Attends n ns t r)
    (hfound : ∀ o, found ns c (some o) ∈ t → (c.place ns).Names o) :
    ∀ e ∈ t, e.call.target? = none ∨ e.call.target? = some (c.place ns) := by
  obtain ⟨outcome, h, rfl⟩ := h
  cases h with
  | unbuilt => simp
  | unread => simp [Call.target?]
  | undecided => simp [found, Call.target?]
  | left => simp [found, Call.target?]
  | created answer h => simp [found, Call.target?, key_of_amendment_create h]
  | updated answer h =>
      have hkey := (key_of_amendment_update (hfound _ List.mem_cons_self) h).1
      simp [found, Call.target?, hkey]

/-- What a pass does about a component that may or may not be due: it attends to one that is, and
makes no calls for one that is not. -/
inductive Visited (c : Component) (n : NodeFeatureDiscovery) (ns : String) (due : Prop) :
    List Exchange → Option (Except Failure Unit) → Prop
  | attended {t : List Exchange} {r : Except Failure Unit} :
      due → c.Attends n ns t r → Visited c n ns due t (some r)
  | skipped : ¬ due → Visited c n ns due [] none

/-- A component is skipped unless it is due, and attended to if it is. -/
theorem Visited.skipped_or_attended {due : Prop} {ended : Option (Except Failure Unit)}
    (h : c.Visited n ns due t ended) :
    (t = [] ∧ ended = none ∧ ¬ due) ∨ ∃ r, due ∧ ended = some r ∧ c.Attends n ns t r := by
  cases h with
  | attended hdue hattends => exact .inr ⟨_, hdue, rfl, hattends⟩
  | skipped hdue => exact .inl ⟨rfl, rfl, hdue⟩

/-- It only counts whether the component is due. -/
theorem Visited.congr {due due' : Prop} {ended : Option (Except Failure Unit)}
    (h : c.Visited n ns due t ended) (hdue : due' ↔ due) : c.Visited n ns due' t ended := by
  cases h with
  | attended hd hattends => exact .attended (hdue.mpr hd) hattends
  | skipped hd => exact .skipped (mt hdue.mp hd)

/-- The components in the order in which a pass attends to them. -/
def passOrder : List Component := [.master, .workerConfig, .worker, .topologyUpdater, .collector]

/-- A pass can attend to every component but the prune Job. -/
theorem mem_passOrder : c ∈ passOrder ↔ c ≠ .prune := by
  cases c <;> decide

/-- It attends to none of them twice. -/
theorem nodup_passOrder : passOrder.Nodup := by decide

/-- A value for each component, in the order of a pass, and one for the prune Job. -/
def tabulate {α : Type} (master workerConfig worker topologyUpdater collector prune : α) :
    Component → α
  | .master => master
  | .workerConfig => workerConfig
  | .worker => worker
  | .topologyUpdater => topologyUpdater
  | .collector => collector
  | .prune => prune

end Component

/-! ### All components -/

/-- The parts of a pass that converges, and how each ended: it attends to the components that are
asked for, to the worker only once its configuration is in place. -/
def Attendance (n : NodeFeatureDiscovery) (ns : String) (parts : Component → List Exchange)
    (ended : Component → Option (Except Failure Unit)) : Prop :=
  ∀ c : Component, c.Visited n ns (c ∈ teardownComponents n.spec ∧
    (c = .worker → ended .workerConfig = some (.ok ()))) (parts c) (ended c)

/-- The failure of a part, as a list. A component that was skipped has none. -/
def failureIn (ended : Option (Except Failure Unit)) : List Failure := ended.elim [] failureOf

/-- The failures of the parts, in the order of a pass. -/
def partFailures (ended : Component → Option (Except Failure Unit)) : List Failure :=
  Component.passOrder.flatMap fun c => failureIn (ended c)

/-- The parts of components that write at other places do not count at the place of one. -/
theorem writesAt_flatMap {key : ObjectKey} {parts : Component → List Exchange} {c : Component}
    {cs : List Component} (hcs : cs.Nodup) (h : ∀ d ∈ cs, d ≠ c → writesAt key (parts d) = []) :
    writesAt key (cs.flatMap parts) = if c ∈ cs then writesAt key (parts c) else [] := by
  induction cs with
  | nil => rfl
  | cons d cs ih =>
      obtain ⟨hd, hcs⟩ := List.nodup_cons.mp hcs
      have hrest := ih hcs fun d' hd' => h d' (List.mem_cons_of_mem d hd')
      rw [List.flatMap_cons, writesAt_append, hrest]
      by_cases hc : d = c
      · subst hc
        simp [hd]
      · have hdc : writesAt key (parts d) = [] := h d List.mem_cons_self hc
        have hmem : c ∈ d :: cs ↔ c ∈ cs := by simp [Ne.symm hc]
        simp only [hdc, List.nil_append, hmem]

namespace Attendance

variable {n : NodeFeatureDiscovery} {ns : String} {parts : Component → List Exchange}
  {ended : Component → Option (Except Failure Unit)}

/-- In its part a component is looked up, and objects of its kind are written. -/
theorem own (h : Attendance n ns parts ended) (c : Component) :
    ∀ e ∈ parts c, e.call = .get c.kind c.name ns ∨
      ∃ o : ManagedObject, o.kind = c.kind ∧ (e.call = .create o ∨ e.call = .update o) := by
  intro e he
  obtain ⟨hnil, -⟩ | ⟨r, -, -, hattends⟩ := (h c).skipped_or_attended
  · rw [hnil] at he
    cases he
  · exact hattends.own e he

/-- In its part a component is written once at most. -/
theorem countP_le (h : Attendance n ns parts ended) (c : Component) :
    (parts c).countP (·.call.target?.isSome) ≤ 1 := by
  obtain ⟨hnil, -⟩ | ⟨r, -, -, hattends⟩ := (h c).skipped_or_attended
  · simp [hnil]
  · exact hattends.countP_le

/-- The worker has a part only if its configuration was attended to without a failure. -/
theorem gated (h : Attendance n ns parts ended) (hne : parts .worker ≠ []) :
    Component.workerConfig.Attends n ns (parts .workerConfig) (.ok ()) := by
  obtain ⟨hnil, -⟩ | ⟨-, hdue, -, -⟩ := (h .worker).skipped_or_attended
  · exact absurd hnil hne
  have hconfig : ended .workerConfig = some (.ok ()) := hdue.2 rfl
  obtain ⟨-, hskipped, -⟩ | ⟨r, -, hended, hattends⟩ := (h .workerConfig).skipped_or_attended
  · rw [hconfig] at hskipped
    cases hskipped
  · obtain rfl := Option.some.inj (hconfig.symm.trans hended)
    exact hattends

/-- If none of the parts ended with a failure, then every component that is asked for was attended
to, and its part ended without one. -/
theorem ended_ok (h : Attendance n ns parts ended) (hok : partFailures ended = [])
    {c : Component} (hc : c ∈ teardownComponents n.spec) : ended c = some (.ok ()) := by
  have hended : ∀ d ∈ teardownComponents n.spec,
      (d = .worker → ended .workerConfig = some (.ok ())) → ended d = some (.ok ()) := by
    intro d hd hdue
    obtain ⟨-, -, hskip⟩ | ⟨r, -, hr, -⟩ := (h d).skipped_or_attended
    · exact absurd ⟨hd, hdue⟩ hskip
    · have hnone : failureIn (ended d) = [] := List.flatMap_eq_nil_iff.mp hok d
        (Component.mem_passOrder.mpr (mem_teardownComponents.mp hd).1)
      rw [hr] at hnone
      obtain ⟨_, rfl⟩ := failureOf_eq_nil_iff.mp hnone
      exact hr
  -- the worker is attended to because its configuration is
  refine hended c hc fun _ => hended .workerConfig ?_ (by simp)
  exact mem_teardownComponents.mpr ⟨by decide, by simp⟩

/-- Look-ups that are answered with objects of the names that were looked up let no component be
written in the part of another one. -/
theorem target_ne (h : Attendance n ns parts ended) {c d : Component} (hne : d ≠ c)
    (hfound : ∀ o, found ns d (some o) ∈ parts d → (d.place ns).Names o) :
    ∀ e ∈ parts d, e.call.target? ≠ some (c.place ns) := by
  intro e he
  obtain ⟨hnil, -⟩ | ⟨r, -, -, hattends⟩ := (h d).skipped_or_attended
  · rw [hnil] at he
    cases he
  have hplace : d.place ns ≠ c.place ns := fun heq => hne (Component.place_injective heq).1
  obtain htarget | htarget := hattends.target hfound e he <;> simp [htarget, hplace]

/-- Then what is written at the place of a component is written in its part. -/
theorem writesAt_eq (h : Attendance n ns parts ended)
    (hfound : ∀ c o, found ns c (some o) ∈ Component.passOrder.flatMap parts →
      (c.place ns).Names o)
    (c : Component) :
    writesAt (c.place ns) (Component.passOrder.flatMap parts) =
      writesAt (c.place ns) (parts c) := by
  have hother : ∀ d ∈ Component.passOrder, d ≠ c → writesAt (c.place ns) (parts d) = [] := by
    intro d hd hne
    have htarget := h.target_ne hne fun o ho => hfound d o (List.mem_flatMap.mpr ⟨d, hd, ho⟩)
    exact List.filter_eq_nil_iff.mpr fun e he => by simpa using htarget e he
  rw [writesAt_flatMap Component.nodup_passOrder hother]
  split
  · rfl
  next hc =>
    -- the prune Job has no part
    obtain ⟨hnil, -⟩ | ⟨-, hdue, -, -⟩ := (h c).skipped_or_attended
    · rw [hnil]
      rfl
    · exact absurd (Component.mem_passOrder.mpr (mem_teardownComponents.mp hdue.1).1) hc

/-- Parts that are given one by one. The topology updater is due where it is asked for, the worker
once its configuration is in place, and the others are always due. -/
theorem of_tabulate {master config worker topology collector : List Exchange}
    {masterEnd configEnd collectorEnd : Except Failure Unit}
    {workerEnd topologyEnd : Option (Except Failure Unit)}
    (hmaster : Component.master.Attends n ns master masterEnd)
    (hconfig : Component.workerConfig.Attends n ns config configEnd)
    (hworker : Component.worker.Visited n ns (configEnd = .ok ()) worker workerEnd)
    (htopology : Component.topologyUpdater.Visited n ns (n.spec.topologyUpdater = true)
      topology topologyEnd)
    (hcollector : Component.collector.Attends n ns collector collectorEnd) :
    Attendance n ns (Component.tabulate master config worker topology collector [])
      (Component.tabulate (some masterEnd) (some configEnd) workerEnd topologyEnd
        (some collectorEnd) none) := by
  intro c
  cases c with
  | master => exact .attended ⟨mem_teardownComponents.mpr ⟨nofun, nofun⟩, nofun⟩ hmaster
  | workerConfig => exact .attended ⟨mem_teardownComponents.mpr ⟨nofun, nofun⟩, nofun⟩ hconfig
  | worker => exact hworker.congr (by simp [mem_teardownComponents, Component.tabulate])
  | topologyUpdater => exact htopology.congr (by simp [mem_teardownComponents])
  | collector => exact .attended ⟨mem_teardownComponents.mpr ⟨nofun, nofun⟩, nofun⟩ hcollector
  | prune => exact .skipped fun h => absurd rfl (mem_teardownComponents.mp h.1).1

end Attendance

section Passes

variable {config : Config} {time : Time} {n : NodeFeatureDiscovery} {name ns : String}
  {t : List Exchange}

/-- The prune Job is not among the workloads that are looked at. -/
theorem component_ne_prune {check : HealthCheck} {flag : Bool} (h : check ∈ HealthCheck.all flag) :
    check.component ≠ .prune := by
  revert check
  cases flag <;> decide

/-- The write of conditions to the status of a resource, and how it ended. It is due if the
conditions of the resource do not say the same, whatever the times of their transitions. -/
inductive StatusWrite (n : NodeFeatureDiscovery) (name ns : String) (conditions : List Condition) :
    List Exchange → Option (Except Failure Unit) → Prop
  | skipped : n.conditions.map Condition.state = conditions.map Condition.state →
      StatusWrite n name ns conditions [] none
  | written (answer : Except Failure Unit) :
      n.conditions.map Condition.state ≠ conditions.map Condition.state →
      StatusWrite n name ns conditions [⟨.patchStatus name ns conditions, answer⟩] (some answer)

/-- A report is a survey of the workloads, and a write of the conditions where that is due. It comes
to a failure only if the write does, and tells otherwise whether the deployment is available. -/
theorem ends_reportStatus_iff {r : Except Failure Bool} :
    (reportStatus time n name ns).Ends t r ↔
      ∃ verdict reads write written, t = reads ++ write ∧
        Surveyed n.ns (HealthCheck.all n.spec.topologyUpdater) reads verdict ∧
        StatusWrite n name ns (verdict.conditions time) write written ∧
        r = (written.getD (.ok ())).map fun _ => decide (verdict = .healthy) := by
  have havailable : ∀ v : Health,
      Condition.isAvailable (v.conditions time) = decide (v = .healthy) := fun v =>
    Bool.eq_iff_iff.mpr (Health.isAvailable_conditions_iff.trans decide_eq_true_iff.symm)
  rw [reportStatus, Program.bind_eq, Program.ends_bind_iff]
  constructor
  · rintro ⟨conditions, reads, write, rfl, hobserve, hwrite⟩
    obtain ⟨v, hsurvey, rfl⟩ := ends_observeConditions_iff.mp hobserve
    split at hwrite
    next hsame =>
      obtain ⟨rfl, rfl⟩ := Program.ends_done_iff.mp hwrite
      exact ⟨v, reads, [], none, rfl, hsurvey, .skipped (Condition.sameStates_iff.mp hsame),
        congrArg Except.ok (havailable v)⟩
    next hchanged =>
      obtain ⟨answer, rest, rfl, hend⟩ := Program.ends_call_iff.mp hwrite
      refine ⟨v, reads, _, some answer, rfl, hsurvey, ?_, ?_⟩
      · cases answer <;> obtain ⟨rfl, -⟩ := Program.ends_done_iff.mp hend <;>
          exact .written _ (mt Condition.sameStates_iff.mpr hchanged)
      · cases answer with
        | error f => exact (Program.ends_done_iff.mp hend).2
        | ok u => exact (Program.ends_done_iff.mp hend).2.trans (congrArg _ (havailable v))
  · rintro ⟨v, reads, write, written, rfl, hsurvey, hwrite, rfl⟩
    refine ⟨_, reads, write, rfl, ends_observeConditions_iff.mpr ⟨v, hsurvey, rfl⟩, ?_⟩
    cases hwrite with
    | skipped hsame =>
        rw [if_pos (Condition.sameStates_iff.mpr hsame), havailable]
        exact .done _
    | written answer hchanged =>
        rw [if_neg (mt Condition.sameStates_iff.mp hchanged), havailable]
        cases answer <;> exact .call (.done _)

/-- A report looks up, and then it writes the conditions once, or it does not. -/
theorem ends_reportStatus {r : Except Failure Bool}
    (h : (reportStatus time n name ns).Ends t r) :
    ∃ reads patch, t = reads ++ patch ∧
      (∀ e ∈ reads, ∃ c : Component, c ≠ .prune ∧ e.call = .get c.kind c.name n.ns) ∧
      (patch = [] ∨ ∃ conditions answer, patch = [⟨.patchStatus name ns conditions, answer⟩]) := by
  obtain ⟨v, reads, write, written, rfl, hsurvey, hwrite, -⟩ := ends_reportStatus_iff.mp h
  refine ⟨reads, write, rfl, fun e he => ?_, ?_⟩
  · obtain ⟨check, hcheck, answer, rfl⟩ := hsurvey.exists_lookUp e he
    exact ⟨check.component, component_ne_prune hcheck, rfl⟩
  · cases hwrite with
    | skipped => exact .inl rfl
    | written answer => exact .inr ⟨_, answer, rfl⟩

/-- The worker is attended to after its configuration, if that ended without a failure. -/
theorem ends_convergeWorker {r : Except Failure Unit} (h : (convergeWorker n ns).Ends t r) :
    ∃ configPart configEnd workerPart workerEnd, t = configPart ++ workerPart ∧
      Component.workerConfig.Attends n ns configPart configEnd ∧
      Component.worker.Visited n ns (configEnd = .ok ()) workerPart workerEnd ∧
      failureOf r = failureOf configEnd ++ failureIn workerEnd := by
  obtain ⟨configEnd, t₁, t₂, rfl, hconfig, hworker⟩ := Program.ends_bind_iff.mp h
  have hconfig := Component.attends_of_ends hconfig
  cases configEnd with
  | error f =>
      obtain ⟨rfl, rfl⟩ := Program.ends_done_iff.mp hworker
      exact ⟨t₁, _, [], none, rfl, hconfig, .skipped nofun, rfl⟩
  | ok u =>
      have hworker := Component.attends_of_ends hworker
      exact ⟨t₁, _, t₂, some r, rfl, hconfig, .attended rfl hworker, rfl⟩

/-- The topology updater is attended to where it is asked for. -/
theorem ends_convergeTopology {r : Except Failure Unit} (h : (convergeTopology n ns).Ends t r) :
    ∃ ended, Component.topologyUpdater.Visited n ns (n.spec.topologyUpdater = true) t ended ∧
      failureOf r = failureIn ended := by
  rw [convergeTopology] at h
  split at h
  next hflag => exact ⟨some r, .attended hflag (Component.attends_of_ends h), rfl⟩
  next hflag =>
    obtain ⟨rfl, rfl⟩ := Program.ends_done_iff.mp h
    exact ⟨none, .skipped hflag, rfl⟩

/-- The trace of a pass that converges is made up of the parts of the components, in order, and of a
report; the pass concludes from the failures of all of them. -/
theorem ends_convergePass {r : Except Failure Action}
    (h : (convergePass config time n name ns).Ends t r) :
    ∃ parts ended report status, t = Component.passOrder.flatMap parts ++ report ∧
      Attendance n ns parts ended ∧ (reportStatus time n name ns).Ends report status ∧
      r = conclude config (partFailures ended ++ failureOf status)
        (status.toOption == some true) := by
  rw [convergePass_eq] at h
  obtain ⟨masterEnd, master, t₁, rfl, hmaster, h⟩ := Program.ends_bind_iff.mp h
  obtain ⟨workersEnd, workers, t₂, rfl, hworkers, h⟩ := Program.ends_bind_iff.mp h
  obtain ⟨updaterEnd, topology, t₃, rfl, htopology, h⟩ := Program.ends_bind_iff.mp h
  obtain ⟨collectorEnd, collector, t₄, rfl, hcollector, h⟩ := Program.ends_bind_iff.mp h
  obtain ⟨status, report, t₅, rfl, hreport, hend⟩ := Program.ends_bind_iff.mp h
  obtain ⟨rfl, rfl⟩ := Program.ends_done_iff.mp hend
  obtain ⟨configPart, configEnd, workerPart, workerEnd, rfl, hconfig, hworker, hworkersEnd⟩ :=
    ends_convergeWorker hworkers
  obtain ⟨topologyEnd, htopology, hupdaterEnd⟩ := ends_convergeTopology htopology
  refine ⟨_, _, report, status, ?_, .of_tabulate (Component.attends_of_ends hmaster) hconfig hworker
    htopology (Component.attends_of_ends hcollector), hreport, ?_⟩
  · simp [Component.passOrder, Component.tabulate]
  · rw [hworkersEnd, hupdaterEnd]
    simp [partFailures, Component.passOrder, Component.tabulate, failureIn]

/-- A pass reads the resource that its trigger names, and goes on only with a resource. -/
theorem ends_reconcile {trigger : Metadata} {r : Except Failure Action}
    (h : (reconcile config time trigger).Ends t r) :
    (trigger.ns = none ∧ t = []) ∨ ∃ ns answer rest, trigger.ns = some ns ∧
      t = ⟨.getResource trigger.anyName ns, answer⟩ :: rest ∧
      ((rest = [] ∧ ∀ n, answer ≠ .ok (some n)) ∨
        ∃ n, answer = .ok (some n) ∧ (passOver config time n trigger.anyName ns).Ends rest r) := by
  rw [reconcile] at h
  split at h
  next hns => exact .inl ⟨hns, (Program.ends_done_iff.mp h).1⟩
  next ns hns =>
    simp only [Program.bind_eq, Program.request, Program.bind, Program.ends_call_iff] at h
    obtain ⟨answer, rest, rfl, h⟩ := h
    refine .inr ⟨ns, answer, rest, hns, rfl, ?_⟩
    rcases answer with f | _ | n
    · exact .inl ⟨(Program.ends_done_iff.mp h).1, fun n heq => by cases heq⟩
    · exact .inl ⟨(Program.ends_done_iff.mp h).1, fun n heq => by cases heq⟩
    · exact .inr ⟨n, rfl, h⟩

/-- A pass that reads a resource which bears the finalizer and is not being deleted converges it. -/
theorem ends_convergePass_of_read {trigger : Metadata} {r : Except Failure Action}
    (h : (reconcile config time trigger).Ends (⟨.getResource name ns, .ok (some n)⟩ :: t) r)
    (hfin : n.hasFinalizer = true) (hdel : n.isDeleting = false) :
    (convergePass config time n name ns).Ends t r := by
  obtain ⟨-, hnil⟩ | ⟨ns', answer, rest, hns, heq, hrest⟩ := ends_reconcile h
  · cases hnil
  obtain ⟨he, rfl⟩ := List.cons.inj heq
  obtain ⟨hcall, hanswer⟩ := Exchange.mk.inj he
  obtain ⟨hname, rfl⟩ := Call.getResource.inj hcall
  obtain rfl := eq_of_heq hanswer
  obtain ⟨-, hnone⟩ | ⟨n', hn', hpass⟩ := hrest
  · exact absurd rfl (hnone n)
  · obtain rfl : n = n' := Option.some.inj (Except.ok.inj hn')
    rwa [passOver_eq_convergePass config time hdel hfin, ← hname] at hpass

end Passes

end NodeFeatureOperator
