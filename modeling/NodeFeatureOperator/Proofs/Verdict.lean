import NodeFeatureOperator.Client.Exchange
import NodeFeatureOperator.Proofs.Store
import NodeFeatureOperator.Proofs.Trace
import NodeFeatureOperator.Reconcile.Health

/-!
# The verdict on a deployment

The workloads of a deployment are looked up in a fixed order, and the first one that is not healthy
decides what is reported: no workload after it is looked up, and every condition carries its reason
and its message. Health is told from the numbers of the workload that was found: those of nodes and
pods for a DaemonSet, and that of available replicas for a Deployment. What could not be read is not
healthy.

## Main definitions

* `ManagedObject.IsHealthy`: what the numbers of a workload say.
* `Surveyed`: the traces of a look at workloads, and the verdict of each.
* `Health.ReportedBy`: the condition sets of a verdict.

## Main results

* `ends_firstUnhealthy_iff`: a look at workloads makes these traces and no others.
* `verdict_of_first_unhealthy`: what the conditions of a deployment say.
* `Call.keepsKind_interpret`: what a request reads is of the kind that was asked for.
-/

namespace NodeFeatureOperator

namespace Health

/-- The type of the condition that a verdict makes true. -/
def type : Health → ConditionType
  | .healthy => .available
  | .progressing _ _ => .progressing
  | .degraded _ _ => .degraded

/-- The reason that a verdict is reported with. -/
def reason : Health → String
  | .healthy => Condition.availableReason
  | .progressing reason _ => reason
  | .degraded reason _ => reason

/-- The message that a verdict is reported with. -/
def message : Health → String
  | .healthy => Condition.availableMessage
  | .progressing _ message => message
  | .degraded _ message => message

end Health

/-! ### What the numbers of a workload say -/

namespace Workload

/-- A DaemonSet has nodes to run on, some pod is scheduled, and as many are ready as there are
nodes. -/
def IsReady (w : Workload) : Prop :=
  statusCount "desiredNumberScheduled" w.status ≠ 0 ∧
    statusCount "currentNumberScheduled" w.status ≠ 0 ∧
    statusCount "numberReady" w.status = statusCount "desiredNumberScheduled" w.status

/-- A DaemonSet has nodes to run on, some pod is scheduled, but not as many are ready as there are
nodes. -/
def IsRollingOut (w : Workload) : Prop :=
  statusCount "desiredNumberScheduled" w.status ≠ 0 ∧
    statusCount "currentNumberScheduled" w.status ≠ 0 ∧
    statusCount "numberReady" w.status ≠ statusCount "desiredNumberScheduled" w.status

/-- A Deployment has a number of available replicas, and it is not zero. -/
def IsServing (w : Workload) : Prop :=
  ∃ replicas, w.status.bind (·.count? "availableReplicas") = some replicas ∧ replicas ≠ 0

end Workload

/-- A DaemonSet is healthy if it is ready, and a Deployment if it is serving. Objects of other kinds
are not. -/
def ManagedObject.IsHealthy (o : ManagedObject) : Prop :=
  match o.content with
  | .daemonSet w => w.IsReady
  | .deployment w => w.IsServing
  | _ => False

/-- The verdict on a DaemonSet is healthy if it is ready, and that it is on its way if it is rolling
out. -/
theorem daemonSetHealth_iff (subject : String) (w : Workload) :
    (daemonSetHealth subject w.status = .healthy ↔ w.IsReady) ∧
      ((daemonSetHealth subject w.status).type = .progressing ↔ w.IsRollingOut) := by
  rw [daemonSetHealth, Workload.IsReady, Workload.IsRollingOut]
  by_cases hdesired : statusCount "desiredNumberScheduled" w.status = 0
  · simp [hdesired, Health.type]
  by_cases hcurrent : statusCount "currentNumberScheduled" w.status = 0
  · simp [hdesired, hcurrent, Health.type]
  by_cases hready : statusCount "numberReady" w.status =
      statusCount "desiredNumberScheduled" w.status
  · simp [hdesired, hcurrent, hready, Health.type]
  · simp [hdesired, hcurrent, hready, Health.type]

/-- The verdict on a Deployment is healthy if it is serving, and never that it is on its way. -/
theorem deploymentHealth_iff (subject : String) (w : Workload) :
    (deploymentHealth subject w.status = .healthy ↔ w.IsServing) ∧
      (deploymentHealth subject w.status).type ≠ .progressing := by
  rw [deploymentHealth, statusCount, Workload.IsServing]
  rcases w.status.bind (·.count? "availableReplicas") with _ | replicas
  · simp [Health.type]
  · by_cases hzero : replicas = 0
    · simp [hzero, Health.type]
    · simp [hzero, Health.type]

namespace HealthCheck

/-- The look-up of the workload of a check, with its answer. -/
def lookUp (ns : String) (check : HealthCheck)
    (answer : Except Failure (Option ManagedObject)) : Exchange :=
  ⟨.get check.component.kind check.component.name ns, answer⟩

variable {check : HealthCheck} {ns : String} {answer : Except Failure (Option ManagedObject)}

/-- Only a healthy object that was found is judged healthy. -/
theorem judge_healthy_iff :
    check.judge ns answer = .healthy ↔ ∃ o, answer = .ok (some o) ∧ o.IsHealthy := by
  rcases answer with f | _ | o
  · simp [judge, unobserved]
  · simp [judge, unobserved]
  · have hkind : check.judge ns (.ok (some o)) = .healthy ↔ o.IsHealthy := by
      rw [judge, ManagedObject.IsHealthy]
      rcases o.content with _ | w | w | _
      · simp [unobserved]
      · exact (daemonSetHealth_iff check.subject w).1
      · exact (deploymentHealth_iff check.subject w).1
      · simp [unobserved]
    simp [hkind]

/-- Only a DaemonSet that is rolling out is judged to be on its way. -/
theorem type_judge_progressing_iff :
    (check.judge ns answer).type = .progressing ↔
      ∃ o w, answer = .ok (some o) ∧ o.content = .daemonSet w ∧ w.IsRollingOut := by
  rcases answer with f | _ | o
  · simp [judge, unobserved, Health.type]
  · simp [judge, unobserved, Health.type]
  · have hkind : (check.judge ns (.ok (some o))).type = .progressing ↔
        ∃ w, o.content = .daemonSet w ∧ w.IsRollingOut := by
      rw [judge]
      rcases o.content with _ | w | w | _
      · simp [unobserved, Health.type]
      · simp [(daemonSetHealth_iff check.subject w).2]
      · simp [(deploymentHealth_iff check.subject w).2]
      · simp [unobserved, Health.type]
    simp [hkind]

/-- The reason of a verdict that is not healthy names the subject of the check. -/
theorem reason_judge (h : check.judge ns answer ≠ .healthy) :
    (check.judge ns answer).reason ∈ [check.subject ++ "Degraded", check.subject ++ "Progressing",
      "FailedGetting" ++ check.subject] := by
  rcases answer with f | _ | o
  · simp [judge, unobserved, Health.reason]
  · simp [judge, unobserved, Health.reason]
  · revert h
    rw [judge]
    rcases o.content with _ | w | w | _
    · simp [unobserved, Health.reason]
    · simp only [daemonSetHealth]
      repeat' split
      all_goals simp [Health.reason]
    · simp only [deploymentHealth]
      split <;> simp [Health.reason]
    · simp [unobserved, Health.reason]

/-- Look-ups that are the same are of the same component, with the same answer. -/
theorem lookUp_inj {check' : HealthCheck} {answer' : Except Failure (Option ManagedObject)}
    (h : check.lookUp ns answer = check'.lookUp ns answer') :
    check.component = check'.component ∧ answer = answer' := by
  obtain ⟨hcall, hanswer⟩ := Exchange.mk.inj h
  obtain ⟨hkind, hname, -⟩ := Call.get.inj hcall
  have hplace : check.component.place ns = check'.component.place ns := by
    rw [Component.place, Component.place, hkind, hname]
  exact ⟨(Component.place_injective hplace).1, eq_of_heq hanswer⟩

end HealthCheck

/-! ### The look at the workloads -/

/-- The traces of a look at workloads with any answers, and the verdict of each. -/
inductive Surveyed (ns : String) (checks : List HealthCheck) : List Exchange → Health → Prop
  /-- All of them were found healthy. -/
  | healthy (found : List (HealthCheck × ManagedObject)) :
      checks = found.map Prod.fst → (∀ p ∈ found, p.2.IsHealthy) →
      Surveyed ns checks (found.map fun p => p.1.lookUp ns (.ok (some p.2))) .healthy
  /-- One was not, after others that were; those after it were not looked up. -/
  | unhealthy (found : List (HealthCheck × ManagedObject)) (check : HealthCheck)
      (later : List HealthCheck) (answer : Except Failure (Option ManagedObject)) :
      checks = found.map Prod.fst ++ check :: later → (∀ p ∈ found, p.2.IsHealthy) →
      (∀ o, answer = .ok (some o) → ¬ o.IsHealthy) →
      Surveyed ns checks
        ((found.map fun p => p.1.lookUp ns (.ok (some p.2))) ++ [check.lookUp ns answer])
        (check.judge ns answer)

section Survey

variable {ns : String} {check : HealthCheck} {checks rest : List HealthCheck} {t : List Exchange}
  {v : Health}

/-- A workload that is found healthy is passed over. -/
theorem Surveyed.cons {o : ManagedObject} (ho : o.IsHealthy) (h : Surveyed ns rest t v) :
    Surveyed ns (check :: rest) (check.lookUp ns (.ok (some o)) :: t) v := by
  cases h with
  | healthy found hchecks hfound =>
      refine .healthy ((check, o) :: found) ?_ (List.forall_mem_cons.mpr ⟨ho, hfound⟩)
      rw [hchecks, List.map_cons]
  | unhealthy found faulty later answer hchecks hfound hanswer =>
      refine .unhealthy ((check, o) :: found) faulty later answer ?_
        (List.forall_mem_cons.mpr ⟨ho, hfound⟩) hanswer
      rw [hchecks, List.map_cons, List.cons_append]

/-- A look at no workloads makes no calls, and finds nothing wrong. -/
theorem surveyed_nil_iff : Surveyed ns [] t v ↔ t = [] ∧ v = .healthy := by
  constructor
  · intro h
    cases h with
    | healthy found hchecks =>
        obtain rfl : found = [] := List.map_eq_nil_iff.mp hchecks.symm
        exact ⟨rfl, rfl⟩
    | unhealthy _ _ _ _ hchecks => simp at hchecks
  · rintro ⟨rfl, rfl⟩
    exact .healthy [] rfl (by simp)

/-- A look at workloads begins with the first, and goes on only if that is healthy. -/
theorem surveyed_cons_iff :
    Surveyed ns (check :: rest) t v ↔
      ∃ answer t', t = check.lookUp ns answer :: t' ∧
        ((check.judge ns answer = .healthy ∧ Surveyed ns rest t' v) ∨
          (check.judge ns answer ≠ .healthy ∧ t' = [] ∧ v = check.judge ns answer)) := by
  constructor
  · intro h
    cases h with
    | healthy found hchecks hfound =>
        rcases found with _ | ⟨⟨_, o⟩, found⟩
        · simp at hchecks
        obtain ⟨rfl, rfl⟩ := List.cons.inj hchecks
        obtain ⟨ho, hfound⟩ := List.forall_mem_cons.mp hfound
        refine ⟨_, _, rfl, .inl ⟨HealthCheck.judge_healthy_iff.mpr ⟨o, rfl, ho⟩, ?_⟩⟩
        exact .healthy found rfl hfound
    | unhealthy found faulty later answer hchecks hfound hanswer =>
        rcases found with _ | ⟨⟨_, o⟩, found⟩
        · obtain ⟨rfl, rfl⟩ := List.cons.inj hchecks
          refine ⟨answer, [], rfl, .inr ⟨fun hjudge => ?_, rfl, rfl⟩⟩
          obtain ⟨o, rfl, ho⟩ := HealthCheck.judge_healthy_iff.mp hjudge
          exact hanswer o rfl ho
        obtain ⟨rfl, rfl⟩ := List.cons.inj hchecks
        obtain ⟨ho, hfound⟩ := List.forall_mem_cons.mp hfound
        refine ⟨_, _, rfl, .inl ⟨HealthCheck.judge_healthy_iff.mpr ⟨o, rfl, ho⟩, ?_⟩⟩
        exact .unhealthy found faulty later answer rfl hfound hanswer
  · rintro ⟨answer, t', rfl, ⟨hjudge, hrest⟩ | ⟨hjudge, rfl, rfl⟩⟩
    · obtain ⟨o, rfl, ho⟩ := HealthCheck.judge_healthy_iff.mp hjudge
      exact hrest.cons ho
    · refine .unhealthy [] check rest answer rfl (by simp) fun o hanswer ho => ?_
      exact hjudge (HealthCheck.judge_healthy_iff.mpr ⟨o, hanswer, ho⟩)

/-- A look at workloads makes the traces of a survey and no others, and comes to its verdict. -/
theorem ends_firstUnhealthy_iff :
    (firstUnhealthy ns checks).Ends t v ↔ Surveyed ns checks t v := by
  induction checks generalizing t with
  | nil =>
      rw [surveyed_nil_iff, firstUnhealthy]
      exact Program.ends_done_iff
  | cons check rest ih =>
      rw [surveyed_cons_iff]
      simp only [firstUnhealthy, Program.bind_eq, Program.request, Program.bind,
        Program.ends_call_iff]
      refine exists_congr fun answer => exists_congr fun t' => and_congr Iff.rfl ?_
      rcases check.judge ns answer with _ | ⟨reason, message⟩ | ⟨reason, message⟩
      · simp [ih]
      · simp
      · simp

/-- Nothing but the workloads of the checks is looked up. -/
theorem Surveyed.exists_lookUp (h : Surveyed ns checks t v) :
    ∀ e ∈ t, ∃ check ∈ checks, ∃ answer, e = check.lookUp ns answer := by
  intro e he
  cases h with
  | healthy found hchecks =>
      obtain ⟨p, hp, rfl⟩ := List.mem_map.mp he
      exact ⟨p.1, hchecks ▸ List.mem_map_of_mem hp, _, rfl⟩
  | unhealthy found check later answer hchecks =>
      rw [hchecks]
      obtain he | he := List.mem_append.mp he
      · obtain ⟨p, hp, rfl⟩ := List.mem_map.mp he
        exact ⟨p.1, List.mem_append_left _ (List.mem_map_of_mem hp), _, rfl⟩
      · exact ⟨check, List.mem_append_right _ List.mem_cons_self, answer, List.mem_singleton.mp he⟩

/-- A survey that finds something wrong ends with the workload that its verdict is on. -/
theorem Surveyed.exists_unhealthy (h : Surveyed ns checks t v) (hv : v ≠ .healthy) :
    ∃ check ∈ checks, ∃ answer, t.getLast? = some (check.lookUp ns answer) ∧
      v = check.judge ns answer := by
  cases h with
  | healthy => exact absurd rfl hv
  | unhealthy found check later answer hchecks =>
      refine ⟨check, ?_, answer, ?_, rfl⟩
      · rw [hchecks]
        exact List.mem_append_right _ List.mem_cons_self
      · rw [List.getLast?_append, List.getLast?_singleton]
        rfl

/-- A survey whose last look-up found a DaemonSet that is rolling out has the verdict that it is on
its way. -/
theorem Surveyed.type_eq_progressing {o : ManagedObject} {w : Workload}
    (h : Surveyed ns checks t v)
    (hlast : t.getLast? = some (check.lookUp ns (.ok (some o))))
    (hcontent : o.content = .daemonSet w) (hw : w.IsRollingOut) : v.type = .progressing := by
  cases h with
  | healthy found hchecks hfound =>
      -- what was found healthy has all its pods ready
      obtain ⟨p, hp, hlook⟩ := List.mem_map.mp (List.mem_of_getLast? hlast)
      have hsame : (.ok (some p.2) : Except Failure (Option ManagedObject)) = .ok (some o) :=
        (HealthCheck.lookUp_inj hlook).2
      obtain rfl := Option.some.inj (Except.ok.inj hsame)
      have hready := hfound p hp
      rw [ManagedObject.IsHealthy, hcontent] at hready
      exact absurd hready.2.2 hw.2.2
  | unhealthy found faulty later answer =>
      rw [List.getLast?_append, List.getLast?_singleton, Option.some_or] at hlast
      obtain ⟨-, rfl⟩ := HealthCheck.lookUp_inj (Option.some.inj hlast)
      exact HealthCheck.type_judge_progressing_iff.mpr ⟨o, w, rfl, hcontent, hw⟩

/-- A survey of different workloads finds nothing wrong exactly if each was looked up and found
healthy. -/
theorem Surveyed.eq_healthy_iff (h : Surveyed ns checks t v)
    (hnodup : (checks.map (·.component)).Nodup) :
    v = .healthy ↔
      ∀ check ∈ checks, ∃ o, check.lookUp ns (.ok (some o)) ∈ t ∧ o.IsHealthy := by
  cases h with
  | healthy found hchecks hfound =>
      refine iff_of_true rfl fun check hcheck => ?_
      rw [hchecks] at hcheck
      obtain ⟨p, hp, rfl⟩ := List.mem_map.mp hcheck
      exact ⟨p.2, List.mem_map_of_mem hp, hfound p hp⟩
  | unhealthy found check later answer hchecks hfound hanswer =>
      refine iff_of_false (fun hjudge => ?_) fun hall => ?_
      · obtain ⟨o, rfl, ho⟩ := HealthCheck.judge_healthy_iff.mp hjudge
        exact hanswer o rfl ho
      -- the workload at fault is looked up only once, and was not healthy then
      obtain ⟨o, hmem, ho⟩ := hall check (by simp [hchecks])
      obtain hmem | hmem := List.mem_append.mp hmem
      · obtain ⟨p, hp, hlook⟩ := List.mem_map.mp hmem
        rw [hchecks, List.map_append, List.map_map, List.map_cons] at hnodup
        have hnew := (List.nodup_append.mp hnodup).2.2 p.1.component
          (List.mem_map_of_mem hp) check.component List.mem_cons_self
        exact hnew (HealthCheck.lookUp_inj hlook).1
      · have hlook := List.mem_singleton.mp hmem
        exact hanswer o (HealthCheck.lookUp_inj hlook).2.symm ho

end Survey

/-! ### The conditions of a verdict -/

/-- The conditions of a set agree on reason and message, and each of them holds or does not. -/
theorem Condition.of_mem_setOf {holding : List ConditionType} {reason message : String}
    {time : Time} {c : Condition} (h : c ∈ setOf holding reason message time) :
    c.status ≠ .unknown ∧ c.reason = reason ∧ c.message = message := by
  rw [setOf, List.mem_map] at h
  obtain ⟨type, -, rfl⟩ := h
  refine ⟨?_, rfl, rfl⟩
  cases holding.contains type <;> exact ConditionStatus.noConfusion

namespace Health

/-- A set of conditions reports a verdict: there are the four types in their order, of the first
three the one of the verdict holds and no other, it can be upgraded if it is available, and all of
them carry the reason and the message of the verdict. -/
structure ReportedBy (v : Health) (conditions : List Condition) : Prop where
  types : conditions.map (·.type) = ["Available", "Progressing", "Degraded", "Upgradeable"]
  holds : ((conditions.take 3).filter (·.status = .true)).map (·.type) = [v.type.text]
  decided : ∀ c ∈ conditions, c.status ≠ .unknown
  upgradeable : (conditions.map (·.status))[3]? = (conditions.map (·.status))[0]?
  reason : ∀ c ∈ conditions, c.reason = v.reason
  message : ∀ c ∈ conditions, c.message = v.message

/-- The conditions of a verdict report it. -/
theorem reportedBy_conditions (time : Time) (v : Health) : v.ReportedBy (v.conditions time) := by
  have hset : ∃ holding, v.conditions time = Condition.setOf holding v.reason v.message time := by
    cases v <;> exact ⟨_, rfl⟩
  obtain ⟨holding, hset⟩ := hset
  have hmem : ∀ c ∈ v.conditions time,
      c.status ≠ .unknown ∧ c.reason = v.reason ∧ c.message = v.message := by
    rw [hset]
    exact fun c hc => Condition.of_mem_setOf hc
  refine ⟨?_, ?_, fun c hc => (hmem c hc).1, ?_, fun c hc => (hmem c hc).2.1,
    fun c hc => (hmem c hc).2.2⟩
  · cases v <;> rfl
  · cases v <;> rfl
  · cases v <;> rfl

/-- Of the first three types that of the verdict is the one that holds. -/
theorem holds_conditions_iff {v : Health} (time : Time) (type : ConditionType)
    (htype : type ≠ .upgradeable) :
    (∃ c ∈ v.conditions time, c.type = type.text ∧ c.status = .true) ↔ v.type = type := by
  cases v <;> cases type <;>
    simp [conditions, Health.type, Condition.available, Condition.progressing, Condition.degraded,
      Condition.setOf, ConditionType.all, ConditionType.text, ConditionStatus.ofBool] at htype ⊢

/-- Of the condition sets only that of a healthy verdict reports the deployment as available. -/
theorem isAvailable_conditions_iff {v : Health} {time : Time} :
    Condition.isAvailable (v.conditions time) = true ↔ v = .healthy := by
  have htype : v.type = .available ↔ v = .healthy := by cases v <;> simp [Health.type]
  rw [← htype, ← holds_conditions_iff time .available ConditionType.noConfusion,
    Condition.isAvailable, List.any_eq_true]
  simp

end Health

/-! ### What a request reads -/

/-- The content that is read for a kind belongs to it. -/
theorem ManagedObject.kind_of_contentOfFields? {kind : ResourceKind} {fields : Fields}
    {content : Content} (h : contentOfFields? kind fields = some content) :
    content.kind = kind := by
  cases kind with
  | configMap =>
      simp only [contentOfFields?, bind, Option.bind_eq_some_iff] at h
      obtain ⟨data, -, binaryData, -, immutable, -, hcontent⟩ := h
      obtain rfl := Option.some.inj hcontent
      rfl
  | daemonSet | deployment | job =>
      obtain ⟨w, -, rfl⟩ := Option.map_eq_some_iff.mp h
      rfl

/-- What is read as an object of a kind is one. -/
theorem ManagedObject.kind_of_ofText? {kind : ResourceKind} {text : String} {o : ManagedObject}
    (h : ofText? kind text = some o) : o.kind = kind := by
  obtain ⟨w, -, h⟩ := Option.bind_eq_some_iff.mp h
  simp only [ofWritten?, bind, Option.bind_eq_some_iff] at h
  obtain ⟨fields, -, -, -, -, -, metadata, -, content, hcontent, ho⟩ := h
  obtain rfl := Option.some.inj ho
  exact kind_of_contentOfFields? hcontent

/-- A look-up that gives an object gives one of the kind that was asked for. -/
def Exchange.KeepsKind (e : Exchange) : Prop :=
  ∀ kind name ns o, e = ⟨.get kind name ns, .ok (some o)⟩ → o.kind = kind

/-- The look-up of a workload gives one of the kind that its check asks for. -/
theorem HealthCheck.keepsKind_lookUp_iff {check : HealthCheck} {ns : String}
    {answer : Except Failure (Option ManagedObject)} :
    (check.lookUp ns answer).KeepsKind ↔
      ∀ o, answer = .ok (some o) → o.kind = check.component.kind := by
  constructor
  · rintro h o rfl
    exact h _ _ _ o rfl
  · intro h kind name ns' o heq
    obtain ⟨hcall, hanswer⟩ := Exchange.mk.inj heq
    obtain ⟨rfl, -, -⟩ := Call.get.inj hcall
    exact h o (eq_of_heq hanswer)

/-- What a response says about a look-up is of the kind that was asked for. -/
theorem Call.keepsKind_interpret (call : Call) (r : Http.Response) :
    Exchange.KeepsKind ⟨call, call.interpret r⟩ := by
  intro kind name ns o heq
  obtain ⟨rfl, hanswer⟩ := Exchange.mk.inj heq
  have h : found (r.object kind) = .ok (some o) := eq_of_heq hanswer
  rw [Http.Response.object, Http.Response.decoded] at h
  split at h
  · rw [found] at h
    split at h
    · cases h
    · cases h
  · split at h
    next object hread =>
      obtain rfl := Option.some.inj (Except.ok.inj h)
      exact ManagedObject.kind_of_ofText? hread
    · cases h

/-! ### The conditions of a deployment -/

section Deployment

variable {time : Time} {n : NodeFeatureDiscovery} {t : List Exchange} {conditions : List Condition}

/-- The conditions that are found for a deployment are those of a verdict on its workloads. -/
theorem ends_observeConditions_iff :
    (observeConditions time n).Ends t conditions ↔
      ∃ v, Surveyed n.ns (HealthCheck.all n.spec.topologyUpdater) t v ∧
        conditions = v.conditions time := by
  rw [observeConditions, Program.bind_eq, Program.ends_bind_iff]
  constructor
  · rintro ⟨v, t₁, t₂, rfl, hlook, hend⟩
    obtain ⟨rfl, rfl⟩ := Program.ends_done_iff.mp hend
    rw [List.append_nil]
    exact ⟨v, ends_firstUnhealthy_iff.mp hlook, rfl⟩
  · rintro ⟨v, hsurvey, rfl⟩
    exact ⟨v, t, [], (List.append_nil t).symm, ends_firstUnhealthy_iff.mpr hsurvey, .done _⟩

/-- No workload is looked at twice. -/
theorem HealthCheck.nodup_all (flag : Bool) : ((all flag).map (·.component)).Nodup := by
  cases flag <;> decide

/-- **The first workload that is not healthy decides.** Whatever the look-ups are answered, as long
as each of them gives objects of the kind that it asks for, as requests do: the worker, the master,
the collector and, where it is asked for, the topology updater are looked up in this order, and none
after the first that is not healthy. The conditions report the verdict on that one, whose subject is
in their reason, or else that everything is available. They report the deployment as available
exactly if every workload was found healthy, and as progressing exactly if the workload that was
looked up last is a DaemonSet that is rolling out. -/
theorem verdict_of_first_unhealthy (h : (observeConditions time n).Ends t conditions)
    (hkinds : ∀ e ∈ t, e.KeepsKind) :
    (∀ (call : Call) (r : Http.Response), Exchange.KeepsKind ⟨call, call.interpret r⟩) ∧
    (HealthCheck.all n.spec.topologyUpdater).map (fun check =>
        (check.component.kind, check.component.name)) =
      [(.daemonSet, "nfd-worker"), (.deployment, "nfd-master"), (.deployment, "nfd-gc")] ++
        (if n.spec.topologyUpdater then [(.daemonSet, "nfd-topology-updater")] else []) ∧
    ∃ verdict, Surveyed n.ns (HealthCheck.all n.spec.topologyUpdater) t verdict ∧
      verdict.ReportedBy conditions ∧
      (verdict ≠ .healthy → ∃ check ∈ HealthCheck.all n.spec.topologyUpdater,
        (∃ answer, t.getLast? = some (check.lookUp n.ns answer) ∧
          verdict = check.judge n.ns answer) ∧
        verdict.reason ∈ [check.subject ++ "Degraded", check.subject ++ "Progressing",
          "FailedGetting" ++ check.subject]) ∧
      (Condition.isAvailable conditions = true ↔
        ∀ check ∈ HealthCheck.all n.spec.topologyUpdater,
          ∃ o, check.lookUp n.ns (.ok (some o)) ∈ t ∧ o.IsHealthy) ∧
      ((∃ c ∈ conditions, c.type = "Progressing" ∧ c.status = .true) ↔
        ∃ check ∈ HealthCheck.all n.spec.topologyUpdater, check.component.kind = .daemonSet ∧
          ∃ o w, t.getLast? = some (check.lookUp n.ns (.ok (some o))) ∧
            o.content = .daemonSet w ∧ w.IsRollingOut) := by
  obtain ⟨v, hsurvey, rfl⟩ := ends_observeConditions_iff.mp h
  have hprogressing : (∃ c ∈ v.conditions time, c.type = "Progressing" ∧ c.status = .true) ↔
      v.type = .progressing :=
    Health.holds_conditions_iff time .progressing ConditionType.noConfusion
  refine ⟨Call.keepsKind_interpret, ?_, v, hsurvey, Health.reportedBy_conditions time v,
    fun hv => ?_, ?_, ?_⟩
  · cases n.spec.topologyUpdater <;> rfl
  · obtain ⟨check, hcheck, answer, hlast, rfl⟩ := hsurvey.exists_unhealthy hv
    exact ⟨check, hcheck, ⟨answer, hlast, rfl⟩, HealthCheck.reason_judge hv⟩
  · rw [Health.isAvailable_conditions_iff]
    exact hsurvey.eq_healthy_iff (HealthCheck.nodup_all _)
  · rw [hprogressing]
    constructor
    · intro hv
      obtain ⟨check, hcheck, answer, hlast, rfl⟩ :=
        hsurvey.exists_unhealthy (by rintro rfl; cases hv)
      obtain ⟨o, w, rfl, hcontent, hw⟩ := HealthCheck.type_judge_progressing_iff.mp hv
      have hkind : o.kind = check.component.kind :=
        HealthCheck.keepsKind_lookUp_iff.mp (hkinds _ (List.mem_of_getLast? hlast)) o rfl
      rw [ManagedObject.kind, hcontent] at hkind
      exact ⟨check, hcheck, hkind.symm, o, w, hlast, hcontent, hw⟩
    · rintro ⟨check, -, -, o, w, hlast, hcontent, hw⟩
      exact hsurvey.type_eq_progressing hlast hcontent hw

end Deployment

/-! ### A topology updater on its way -/

/-- A deployment with every optional component. -/
def watched : NodeFeatureDiscovery where
  metadata := { name := some "nfd", ns := some "gpu", uid := some "7",
                finalizers := some [NodeFeatureDiscovery.finalizer] }
  spec := { topologyUpdater := true }

/-- A workload of two nodes or replicas, of which so many are ready. -/
def Component.workload (c : Component) (ready : Int) : ManagedObject :=
  let status : Json := .obj [("availableReplicas", .int ready), ("currentNumberScheduled", .int 2),
    ("desiredNumberScheduled", .int 2), ("numberReady", .int ready)]
  { metadata := { name := some c.name, ns := some "gpu" },
    content := if c.kind = .daemonSet then .daemonSet { status := some status }
      else .deployment { status := some status } }

/-- The workloads of the deployment are found healthy, but for the topology updater, which has one
of its two pods ready. -/
def watching : List Exchange :=
  (HealthCheck.all true).map fun check =>
    check.lookUp "gpu" (.ok (some (check.component.workload
      (if check.component = .topologyUpdater then 1 else 2))))

/-- The conditions that report this. -/
def watchedConditions : List Condition :=
  Condition.progressing "NFDTopologyUpdaterDaemonSetProgressing"
    "NFDTopologyUpdaterDaemonSet: 1 of 2 pods ready" ⟨0, 0⟩

/-- All four workloads are looked up, and the deployment is reported as progressing, since the
topology updater is rolling out. -/
theorem verdict_of_first_unhealthy_watched :
    (observeConditions ⟨0, 0⟩ watched).Ends watching watchedConditions ∧
      (∀ e ∈ watching, e.KeepsKind) ∧
      (∃ verdict, Surveyed "gpu" (HealthCheck.all true) watching verdict ∧
        verdict.ReportedBy watchedConditions) ∧
      Condition.isAvailable watchedConditions = false ∧
      ∃ check ∈ HealthCheck.all true, check.component.kind = .daemonSet ∧
        ∃ o w, watching.getLast? = some (check.lookUp "gpu" (.ok (some o))) ∧
          o.content = .daemonSet w ∧ w.IsRollingOut := by
  have hends : (observeConditions ⟨0, 0⟩ watched).Ends watching watchedConditions :=
    .call (.call (.call (.call (.done _))))
  have hkinds : ∀ e ∈ watching, e.KeepsKind := by
    intro e he
    obtain ⟨check, hcheck, rfl⟩ := List.mem_map.mp he
    refine HealthCheck.keepsKind_lookUp_iff.mpr ?_
    rintro o ⟨⟩
    clear he
    revert check
    decide
  obtain ⟨-, -, verdict, hsurvey, hreported, -, -, hprogressing⟩ :=
    verdict_of_first_unhealthy hends hkinds
  have hholds : ∃ c ∈ watchedConditions, c.type = "Progressing" ∧ c.status = .true :=
    ⟨_, List.mem_cons_of_mem _ List.mem_cons_self, rfl, rfl⟩
  exact ⟨hends, hkinds, ⟨verdict, hsurvey, hreported⟩, by decide, hprogressing.mp hholds⟩

end NodeFeatureOperator
