import NodeFeatureOperator.Proofs.Trace
import NodeFeatureOperator.Reconcile.Teardown

/-!
# Traces of the teardown

What the two loops over the components and one step of the prune Job can ask for, and which traces
let the teardown go on: every deletion accepted, every look-up answered with nothing, and the prune
Job, where there is to be one, seen complete and deleted.

## Main definitions

* `PruneDone`: the traces after which pruning counts as done.
* `Prunes`: the traces of a step of pruning, and what each comes to.

## Main results

* `ends_deleteComponents_iff`, `ends_remainingComponents_iff`, `ends_prune`: the traces that let the
  teardown go on.
* `prunes_of_ends`: a step of pruning makes one of its traces.
* `asks_deleteComponents`, `asks_remainingComponents`, `asks_prune`: the calls.
-/

namespace NodeFeatureOperator

open Component (deleted found)

/-- The teardown is about every component but the prune Job, and about the topology updater only
where it is asked for. -/
theorem mem_teardownComponents {s : Spec} {c : Component} :
    c ∈ teardownComponents s ↔
      c ≠ .prune ∧ (c = .topologyUpdater → s.topologyUpdater = true) := by
  cases c <;> simp [teardownComponents, Component.teardownOrder]

/-! ### Deletions -/

/-- No failures are joined to none. -/
theorem join_eq_none_iff {fs : List Failure} : Failure.join fs = none ↔ fs = [] := by
  rcases fs with _ | ⟨f, _ | ⟨g, rest⟩⟩ <;> simp [Failure.join]

/-- Joined failures are none only if there are none. -/
theorem joined_eq_ok_iff {fs : List Failure} : Failure.joined fs = .ok () ↔ fs = [] := by
  rw [← join_eq_none_iff, Failure.joined]
  cases Failure.join fs <;> simp

/-- A loop of deletions reports no failure exactly if every deletion was accepted. -/
theorem ends_deleteEach_iff {ns : String} {cs : List Component} {t : List Exchange} :
    (deleteEach ns cs).Ends t [] ↔ t = cs.map (deleted ns) := by
  induction cs generalizing t with
  | nil => simp [deleteEach]
  | cons c cs ih =>
      simp only [deleteEach, Program.bind_eq, Program.request, Program.bind, Program.ends_call_iff,
        List.map_cons]
      constructor
      · rintro ⟨answer, rest, rfl, h⟩
        cases answer with
        | error f =>
            obtain ⟨others, t₁, t₂, rfl, -, h⟩ := Program.ends_bind_iff.mp h
            simp at h
        | ok u =>
            rw [ih.mp h]
            rfl
      · rintro rfl
        exact ⟨.ok (), cs.map (deleted ns), rfl, ih.mpr rfl⟩

/-- A loop of deletions asks for nothing but deletions of its components. -/
theorem asks_deleteEach {ns : String} {cs : List Component} {t : List Exchange} {call : Call}
    (h : (deleteEach ns cs).Asks t call) : ∃ c ∈ cs, call = .delete c.kind c.name ns := by
  induction cs generalizing t with
  | nil => simp [deleteEach] at h
  | cons c cs ih =>
      simp only [deleteEach, Program.bind_eq, Program.request, Program.bind,
        Program.asks_call_iff] at h
      obtain ⟨-, rfl⟩ | ⟨answer, rest, rfl, h⟩ := h
      · exact ⟨c, List.mem_cons_self, rfl⟩
      · -- a failed deletion does not keep the loop from the others
        have hrest : (deleteEach ns cs).Asks rest call := by
          cases answer with
          | error f => simpa [Program.asks_bind_iff] using h
          | ok u => exact h
        obtain ⟨d, hd, rfl⟩ := ih hrest
        exact ⟨d, List.mem_cons_of_mem c hd, rfl⟩

/-- The deletion of the components succeeds exactly if every single deletion was accepted. -/
theorem ends_deleteComponents_iff {n : NodeFeatureDiscovery} {ns : String} {t : List Exchange} :
    (deleteComponents n ns).Ends t (.ok ()) ↔ t = (teardownComponents n.spec).map (deleted ns) := by
  simp only [deleteComponents, Program.bind_eq, Program.ends_bind_iff]
  constructor
  · rintro ⟨failures, t₁, t₂, rfl, h₁, h₂⟩
    obtain ⟨rfl, hj⟩ := Program.ends_done_iff.mp h₂
    obtain rfl := joined_eq_ok_iff.mp hj.symm
    rw [List.append_nil, ends_deleteEach_iff.mp h₁]
  · intro h
    exact ⟨[], t, [], (List.append_nil t).symm, ends_deleteEach_iff.mpr h, .done _⟩

/-- The deletion of the components asks for nothing but that. -/
theorem asks_deleteComponents {n : NodeFeatureDiscovery} {ns : String} {t : List Exchange}
    {call : Call} (h : (deleteComponents n ns).Asks t call) :
    ∃ c ∈ teardownComponents n.spec, call = .delete c.kind c.name ns := by
  simp only [deleteComponents, Program.bind_eq, Program.asks_bind_iff, Program.pure_eq,
    Program.not_asks_done, and_false, exists_false, or_false] at h
  exact asks_deleteEach h

/-! ### Look-ups -/

/-- A search finds nothing exactly if every look-up was answered with nothing. -/
theorem ends_existing_iff {ns : String} {cs : List Component} {t : List Exchange} :
    (existing ns cs).Ends t (.ok []) ↔ t = cs.map (found ns · none) := by
  induction cs generalizing t with
  | nil => simp [existing]
  | cons c cs ih =>
      simp only [existing, Program.bind_eq, Program.request, Program.bind, Program.ends_call_iff,
        List.map_cons]
      constructor
      · rintro ⟨answer, rest, rfl, h⟩
        cases answer with
        | error f => simp at h
        | ok o =>
            obtain ⟨others, t₁, t₂, rfl, h₁, h₂⟩ := Program.ends_bind_iff.mp h
            cases others with
            | error f => simp at h₂
            | ok others =>
                simp only [Program.pure_eq, Program.ends_done_iff, Except.ok.injEq] at h₂
                obtain ⟨rfl, hnil⟩ := h₂
                cases o with
                | some object => simp at hnil
                | none =>
                    obtain rfl : others = [] := by simpa using hnil.symm
                    rw [List.append_nil, ih.mp h₁]
                    rfl
      · rintro rfl
        refine ⟨.ok none, cs.map (found ns · none), rfl, Program.ends_bind_iff.mpr ?_⟩
        exact ⟨.ok [], _, [], (List.append_nil _).symm, ih.mpr rfl, .done _⟩

/-- A search asks for nothing but look-ups of its components. -/
theorem asks_existing {ns : String} {cs : List Component} {t : List Exchange} {call : Call}
    (h : (existing ns cs).Asks t call) : ∃ c ∈ cs, call = .get c.kind c.name ns := by
  induction cs generalizing t with
  | nil => simp [existing] at h
  | cons c cs ih =>
      simp only [existing, Program.bind_eq, Program.request, Program.bind,
        Program.asks_call_iff] at h
      obtain ⟨-, rfl⟩ | ⟨answer, rest, rfl, h⟩ := h
      · exact ⟨c, List.mem_cons_self, rfl⟩
      · cases answer with
        | error f => simp at h
        | ok o =>
            obtain h | ⟨others, t₁, t₂, rfl, -, h⟩ := Program.asks_bind_iff.mp h
            · obtain ⟨d, hd, rfl⟩ := ih h
              exact ⟨d, List.mem_cons_of_mem c hd, rfl⟩
            · cases others <;> simp at h

/-- Nothing is left of the components exactly if every look-up was answered with nothing. -/
theorem ends_remainingComponents_iff {n : NodeFeatureDiscovery} {ns : String}
    {t : List Exchange} :
    (remainingComponents n ns).Ends t (.ok []) ↔
      t = (teardownComponents n.spec).map (found ns · none) := ends_existing_iff

/-- The search for what is left of the components asks for nothing but look-ups of them. -/
theorem asks_remainingComponents {n : NodeFeatureDiscovery} {ns : String} {t : List Exchange}
    {call : Call} (h : (remainingComponents n ns).Asks t call) :
    ∃ c ∈ teardownComponents n.spec, call = .get c.kind c.name ns := asks_existing h

/-! ### The prune Job -/

/-- A wait makes no calls but those of its check. -/
theorem only_waitUntil {P : Call → Prop} {config : PollConfig} {operation : String}
    {check : Nat → Program (Except Failure Bool)} (hc : ∀ i, (check i).Only P) :
    (waitUntil config operation check).Only P := by
  have hfrom : ∀ start budget index,
      (checksFrom config operation check start budget index).Only P := by
    intro start budget
    induction budget with
    | zero => exact fun _ => trivial
    | succ budget ih =>
        intro index
        refine (hc index).bind fun r => ?_
        rcases r with f | (_ | _)
        · exact trivial
        · intro now
          change Program.Only P (if start + config.timeout ≤ now then _ else _)
          split
          · exact trivial
          · exact ih (index + 1)
        · exact trivial
  exact fun start => hfrom start maxChecks 0

/-- The wait for the prune Job to disappear makes no calls but look-ups of it. -/
theorem only_waitForPrune (poll : PollConfig) (ns : String) :
    (waitUntil poll "prune job deletion" fun _ => pruneGone ns).Only
      (· = .get Component.prune.kind Component.prune.name ns) :=
  only_waitUntil fun _ => ⟨rfl, fun _ => trivial⟩

/-- An object that shows pruning to be done: a Job that has completed and has not failed. Whose Job
it is plays no part. -/
def ManagedObject.Completed (o : ManagedObject) : Prop :=
  ∃ job, o.content = .job job ∧ JobState.isComplete job.status = true ∧
    JobState.isFailed job.status = false

/-- The traces after which pruning counts as done: none where it is not asked for, and else those
that saw the prune Job complete and had its deletion accepted. What the wait after that sees does
not matter. -/
inductive PruneDone (s : Spec) (ns : String) : List Exchange → Prop
  | off : s.pruneOnDelete = false → PruneDone s ns []
  | ran {object : ManagedObject} {job : Workload} {waiting : List Exchange} :
      s.pruneOnDelete = true → object.content = .job job →
      JobState.isComplete job.status = true → JobState.isFailed job.status = false →
      (∀ e ∈ waiting, e.call = .get Component.prune.kind Component.prune.name ns) →
      PruneDone s ns (found ns .prune (some object) :: deleted ns .prune :: waiting)

/-- The traces of a step of pruning with any answers, and what each comes to. -/
inductive Prunes (n : NodeFeatureDiscovery) (ns : String) :
    List Exchange → Except Failure Bool → Prop
  /-- Pruning is not asked for. -/
  | off : n.spec.pruneOnDelete = false → Prunes n ns [] (.ok true)
  /-- The Job cannot be looked up. -/
  | unread (f : Failure) : n.spec.pruneOnDelete = true →
      Prunes n ns [⟨.get Component.prune.kind Component.prune.name ns, .error f⟩]
        (.error (Component.prune.failure ns f))
  /-- There is no Job, and none can be built. -/
  | unbuilt {f : Failure} : n.spec.pruneOnDelete = true → Component.prune.desired n ns = .error f →
      Prunes n ns [found ns .prune none] (.error (Component.prune.failure ns f))
  /-- There is no Job, and one is created. -/
  | started {job : ManagedObject} (answer : Except Failure Unit) : n.spec.pruneOnDelete = true →
      Component.prune.desired n ns = .ok job →
      Prunes n ns [found ns .prune none, ⟨.create job, answer⟩]
        ((answer.map fun _ => false).mapError (Component.prune.failure ns))
  /-- What is found is no Job. -/
  | misplaced {o : ManagedObject} : n.spec.pruneOnDelete = true →
      (∀ job, o.content ≠ .job job) →
      Prunes n ns [found ns .prune (some o)] (.error (Component.prune.failure ns
        (.internal ("expected a Job, got a " ++ o.content.kind.text) Failure.unknownContext)))
  /-- The Job has failed. -/
  | failed {o : ManagedObject} {job : Workload} : n.spec.pruneOnDelete = true →
      o.content = .job job → JobState.isFailed job.status = true →
      Prunes n ns [found ns .prune (some o)]
        (.error (.pruneJobFailed ns Component.prune.name
          ((JobState.failureMessage? job.status).getD "job failed")))
  /-- The Job is still running. -/
  | running {o : ManagedObject} {job : Workload} : n.spec.pruneOnDelete = true →
      o.content = .job job → JobState.isFailed job.status = false →
      JobState.isComplete job.status = false →
      Prunes n ns [found ns .prune (some o)] (.ok false)
  /-- The Job has completed, and is not deleted. -/
  | kept {o : ManagedObject} (f : Failure) : n.spec.pruneOnDelete = true → o.Completed →
      Prunes n ns [found ns .prune (some o),
        ⟨.delete Component.prune.kind Component.prune.name ns, .error f⟩]
        (.error (Component.prune.failure ns f))
  /-- The Job has completed and is deleted, and is looked up as long as that is waited for. -/
  | finished {o : ManagedObject} {waiting : List Exchange} : n.spec.pruneOnDelete = true →
      o.Completed →
      (∀ e ∈ waiting, e.call = .get Component.prune.kind Component.prune.name ns) →
      Prunes n ns (found ns .prune (some o) :: deleted ns .prune :: waiting) (.ok true)

/-- A step of pruning that finds no Job makes one of its traces. -/
theorem prunes_of_ends_startPrune {n : NodeFeatureDiscovery} {ns : String} {t : List Exchange}
    {r : Except Failure Bool} (hon : n.spec.pruneOnDelete = true)
    (h : (startPrune n ns).Ends t r) : Prunes n ns (found ns .prune none :: t) r := by
  rw [startPrune] at h
  split at h
  next f hunbuilt =>
    obtain ⟨rfl, rfl⟩ := Program.ends_done_iff.mp h
    exact .unbuilt hon hunbuilt
  next job hjob =>
    obtain ⟨answer, rest, rfl, hend⟩ := Program.ends_call_iff.mp h
    cases answer <;> obtain ⟨rfl, rfl⟩ := Program.ends_done_iff.mp hend <;>
      exact .started _ hon hjob

/-- A step of pruning that finds the Job makes one of its traces. -/
theorem prunes_of_ends_followPrune {poll : PollConfig} {n : NodeFeatureDiscovery} {ns : String}
    {o : ManagedObject} {job : Workload} {t : List Exchange} {r : Except Failure Bool}
    (hon : n.spec.pruneOnDelete = true) (hjob : o.content = .job job)
    (h : (followPrune poll ns job.status).Ends t r) :
    Prunes n ns (found ns .prune (some o) :: t) r := by
  rw [followPrune] at h
  split at h
  next hfailed =>
    obtain ⟨rfl, rfl⟩ := Program.ends_done_iff.mp h
    exact .failed hon hjob hfailed
  next hfailed =>
    rw [Bool.not_eq_true] at hfailed
    split at h
    next hcomplete =>
      have hcompleted : o.Completed := ⟨job, hjob, hcomplete, hfailed⟩
      obtain ⟨answer, rest, rfl, hthen⟩ := Program.ends_call_iff.mp h
      cases answer with
      | error f =>
          obtain ⟨rfl, rfl⟩ := Program.ends_done_iff.mp hthen
          exact .kept f hon hcompleted
      | ok u =>
          simp only [Program.bind_eq, Program.bind] at hthen
          obtain ⟨gone, waiting, t₂, rfl, hwait, hend⟩ := Program.ends_bind_iff.mp hthen
          obtain ⟨rfl, rfl⟩ := Program.ends_done_iff.mp hend
          rw [List.append_nil]
          exact .finished hon hcompleted ((only_waitForPrune poll ns).of_ends hwait)
    next hrunning =>
      obtain ⟨rfl, rfl⟩ := Program.ends_done_iff.mp h
      exact .running hon hjob hfailed (by simpa using hrunning)

/-- A step of pruning makes one of its traces, and comes to the same. -/
theorem prunes_of_ends {poll : PollConfig} {n : NodeFeatureDiscovery} {ns : String}
    {t : List Exchange} {r : Except Failure Bool} (h : (prune poll n ns).Ends t r) :
    Prunes n ns t r := by
  rw [prune] at h
  split at h
  next hon =>
    obtain ⟨answer, rest, rfl, hthen⟩ := Program.ends_call_iff.mp h
    rcases answer with f | _ | o
    · obtain ⟨rfl, rfl⟩ := Program.ends_done_iff.mp hthen
      exact .unread f hon
    · exact prunes_of_ends_startPrune hon hthen
    · dsimp only [Program.bind] at hthen
      split at hthen
      next job hjob => exact prunes_of_ends_followPrune hon hjob hthen
      next hother =>
        obtain ⟨rfl, rfl⟩ := Program.ends_done_iff.mp hthen
        exact .misplaced hon hother
  next hoff =>
    obtain ⟨rfl, rfl⟩ := Program.ends_done_iff.mp h
    exact .off (by simpa using hoff)

/-- A step of pruning is done after the traces of `PruneDone` and no others, and the Job's deletion
was accepted in no others. -/
theorem ends_prune {poll : PollConfig} {n : NodeFeatureDiscovery} {ns : String}
    {t : List Exchange} {r : Except Failure Bool} (h : (prune poll n ns).Ends t r) :
    (r ≠ .ok true ∧ deleted ns .prune ∉ t) ∨ (r = .ok true ∧ PruneDone n.spec ns t) := by
  cases prunes_of_ends h with
  | off hoff => exact .inr ⟨rfl, .off hoff⟩
  | finished hon hcompleted hwaiting =>
      obtain ⟨job, hjob, hcomplete, hfailed⟩ := hcompleted
      exact .inr ⟨rfl, .ran hon hjob hcomplete hfailed hwaiting⟩
  | started answer => cases answer <;> exact .inl ⟨nofun, by simp [deleted, found]⟩
  | unread => exact .inl ⟨nofun, by simp [deleted]⟩
  | kept | unbuilt | misplaced | failed | running =>
      exact .inl ⟨nofun, by simp [deleted, found]⟩

/-- The calls of a step of pruning, by those before them: the Job is looked up, and then created
where there is none, or deleted if it was found completed, and waited for. -/
theorem Prunes.call {n : NodeFeatureDiscovery} {ns : String} {before later : List Exchange}
    {e : Exchange} {r : Except Failure Bool} (h : Prunes n ns (before ++ e :: later) r) :
    n.spec.pruneOnDelete = true ∧
      (e.call = .get Component.prune.kind Component.prune.name ns ∨
        (e.call = .delete Component.prune.kind Component.prune.name ns ∧
          ∃ object : ManagedObject, object.Completed ∧ before = [found ns .prune (some object)]) ∨
        ∃ job, Component.prune.desired n ns = .ok job ∧ e.call = .create job ∧
          before = [found ns .prune none]) := by
  rcases before with _ | ⟨e₁, _ | ⟨e₂, before⟩⟩
  · cases h <;> exact ⟨‹_›, .inl rfl⟩
  · cases h with
    | started answer hon hjob => exact ⟨hon, .inr (.inr ⟨_, hjob, rfl, rfl⟩)⟩
    | kept f hon ho => exact ⟨hon, .inr (.inl ⟨rfl, _, ho, rfl⟩)⟩
    | finished hon ho hwaiting => exact ⟨hon, .inr (.inl ⟨rfl, _, ho, rfl⟩)⟩
  · have hlate : e ∈ before ++ e :: later := by simp
    rw [List.cons_append, List.cons_append] at h
    generalize before ++ e :: later = late at h hlate
    cases h with
    | started | kept => cases hlate
    | finished hon ho hwaiting => exact ⟨hon, .inl (hwaiting e hlate)⟩

/-- A step of pruning looks the Job up, and then creates it where there is none, or deletes one that
it found completed, and waits. -/
theorem asks_prune {poll : PollConfig} {n : NodeFeatureDiscovery} {ns : String}
    {t : List Exchange} {call : Call} (h : (prune poll n ns).Asks t call) :
    n.spec.pruneOnDelete = true ∧
      (call = .get Component.prune.kind Component.prune.name ns ∨
        (call = .delete Component.prune.kind Component.prune.name ns ∧
          ∃ object : ManagedObject, object.Completed ∧ t = [found ns .prune (some object)]) ∨
        ∃ job, Component.prune.desired n ns = .ok job ∧ call = .create job ∧
          t = [found ns .prune none]) := by
  obtain ⟨later, r, hends⟩ := h.exists_ends (.error default)
  exact (prunes_of_ends hends).call

/-- A step of pruning that finds no Job creates the Job built from scratch. -/
theorem asks_prune_create {n : NodeFeatureDiscovery} {ns : String} {job : ManagedObject}
    (poll : PollConfig) (hon : n.spec.pruneOnDelete = true)
    (hjob : Component.prune.desired n ns = .ok job) :
    (prune poll n ns).Asks [found ns .prune none] (.create job) := by
  rw [prune, if_pos hon]
  refine .call ?_
  dsimp only [startPrune]
  rw [hjob]
  exact .here _ _

/-- A step of pruning that finds the completed Job deletes it. -/
theorem asks_prune_delete {n : NodeFeatureDiscovery} {o : ManagedObject} (poll : PollConfig)
    (ns : String) (hon : n.spec.pruneOnDelete = true) (ho : o.Completed) :
    (prune poll n ns).Asks [found ns .prune (some o)]
      (.delete Component.prune.kind Component.prune.name ns) := by
  obtain ⟨job, hcontent, hcomplete, hfailed⟩ := ho
  rw [prune, if_pos hon]
  refine .call ?_
  simp only [Program.bind, hcontent]
  rw [followPrune, hfailed, if_neg Bool.false_ne_true, if_pos hcomplete]
  exact .here _ _

/-- A step of pruning that finds the completed Job deletes it, and is done once it sees it gone. -/
theorem ends_prune_of_complete {n : NodeFeatureDiscovery} {o : ManagedObject} {job : Workload}
    (poll : PollConfig) (ns : String) (hon : n.spec.pruneOnDelete = true)
    (hcontent : o.content = .job job) (hcomplete : JobState.isComplete job.status = true)
    (hfailed : JobState.isFailed job.status = false) :
    (prune poll n ns).Ends
      [found ns .prune (some o), deleted ns .prune, found ns .prune none] (.ok true) := by
  have hfollow : (followPrune poll ns job.status).Ends
      [deleted ns .prune, found ns .prune none] (.ok true) := by
    rw [followPrune, hfailed, if_neg Bool.false_ne_true, if_pos hcomplete]
    exact .call (Program.ends_clock_iff.mpr ⟨Duration.ofSeconds 0, .call (.done _)⟩)
  rw [prune, if_pos hon]
  refine .call ?_
  simp only [Program.bind, hcontent]
  exact hfollow

end NodeFeatureOperator
