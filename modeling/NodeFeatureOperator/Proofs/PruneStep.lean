import NodeFeatureOperator.Proofs.Quiet
import NodeFeatureOperator.Proofs.Release

/-!
# One step of pruning

A step of pruning looks the prune Job up, and what it does then rests on that one answer: it creates
the Job if there is none, and deletes it if it has completed and no condition of it says that it
failed. A Job may say both, in conditions in any order or by the number of its pods that succeeded;
then it counts as failed, is left where it is, and the first condition that says so is what is told.
Pruning is done once the deletion is accepted. The wait after that asks for nothing but the Job, and
the answers do not matter.

## Main definitions

* `PruneStep`: what a step does on the answer to its look-up.

## Main results

* `ManagedObject.completed_iff`: the Jobs that are deleted.
* `JobState.failureMessage?_of_first`: what is told of a Job that failed.
* `prune_conduct`: what a step does on any cluster.
-/

namespace NodeFeatureOperator

open Component (deleted found)

namespace JobState

variable {status : Option Json}

/-- A Job has failed if one of its conditions says so. -/
theorem isFailed_eq_false_iff :
    isFailed status = false ↔ ∀ c ∈ conditions status, holds "Failed" c = false := by
  simp [isFailed]

/-- A Job has completed if a pod has succeeded, or one of its conditions says so. -/
theorem isComplete_iff : isComplete status = true ↔
    1 ≤ succeeded status ∨ ∃ c ∈ conditions status, holds "Complete" c = true := by
  simp [isComplete]

/-- What is told of a Job that failed is the message of the first condition that says so, or else
its reason. -/
theorem failureMessage?_of_first {before after : List Json} {c : Json}
    (hsplit : conditions status = before ++ c :: after)
    (hbefore : ∀ d ∈ before, holds "Failed" d = false) (hc : holds "Failed" c = true) :
    failureMessage? status = (c.textAt? "message").or (c.textAt? "reason") := by
  have hfirst : (conditions status).find? (holds "Failed") = some c := by
    rw [hsplit, List.find?_append, List.find?_eq_none.mpr (by simpa using hbefore)]
    exact List.find?_cons_of_pos hc
  rw [failureMessage?, hfirst, Option.bind_some]
  cases c.textAt? "message" <;> rfl

end JobState

/-- The Jobs that are deleted: a pod of theirs has succeeded or a condition says that they
completed, and no condition says that they failed. -/
theorem ManagedObject.completed_iff {o : ManagedObject} : o.Completed ↔
    ∃ job, o.content = .job job ∧
      (1 ≤ JobState.succeeded job.status ∨
        ∃ c ∈ JobState.conditions job.status, JobState.holds "Complete" c = true) ∧
      ∀ c ∈ JobState.conditions job.status, JobState.holds "Failed" c = false := by
  simp only [Completed, JobState.isComplete_iff, JobState.isFailed_eq_false_iff]

/-- What a step of pruning does on the answer to its look-up of the Job: the calls that follow, and
the result. -/
structure PruneStep (n : NodeFeatureDiscovery) (ns : String)
    (answer : Except Failure (Option ManagedObject)) (rest : List Exchange)
    (r : Except Failure Bool) : Prop where
  /-- The calls that follow are about the Job, and what is created is the Job built from scratch. -/
  calls : ∀ e ∈ rest, e.call = .get Component.prune.kind Component.prune.name ns ∨
    e.call = .delete Component.prune.kind Component.prune.name ns ∨
    ∃ job, Component.prune.desired n ns = .ok job ∧ e.call = .create job
  /-- The Job is created if there is none. -/
  creates : (∃ e ∈ rest, e.call.verb = .create) ↔ answer = .ok none
  /-- Where there was none, pruning is not done. -/
  unfinished : answer = .ok none → r ≠ .ok true
  /-- The Job is deleted if it has completed and no condition says that it failed. -/
  deletes : (∃ e ∈ rest, e.call.verb = .delete) ↔
    ∃ o job, answer = .ok (some o) ∧ o.content = .job job ∧
      (1 ≤ JobState.succeeded job.status ∨
        ∃ c ∈ JobState.conditions job.status, JobState.holds "Complete" c = true) ∧
      ∀ c ∈ JobState.conditions job.status, JobState.holds "Failed" c = false
  /-- Pruning is done if the deletion was accepted, whatever was answered after it. -/
  done : r = .ok true ↔ deleted ns .prune ∈ rest
  /-- A Job with a condition that says that it failed is left, and the first one is told of. -/
  failed : ∀ o job before c after, answer = .ok (some o) → o.content = .job job →
    JobState.conditions job.status = before ++ c :: after →
    (∀ d ∈ before, JobState.holds "Failed" d = false) → JobState.holds "Failed" c = true →
    rest = [] ∧ r = .error (.pruneJobFailed ns Component.prune.name
      (((c.textAt? "message").or (c.textAt? "reason")).getD "job failed"))

namespace PruneStep

variable {n : NodeFeatureDiscovery} {ns : String} {r : Except Failure Bool} {o job : ManagedObject}

/-- A step that cannot look the Job up. -/
theorem of_unread (f : Failure) (hr : r ≠ .ok true) : PruneStep n ns (.error f) [] r where
  calls := by simp
  creates := by simp
  unfinished := by simp
  deletes := by simp
  done := by simp [hr]
  failed := by simp

/-- A step that leaves what it found: no Job, or one that has not completed or has failed. -/
theorem of_left (hr : r ≠ .ok true) (ho : ¬ o.Completed)
    (hfailed : ∀ job, o.content = .job job → JobState.isFailed job.status = true →
      r = .error (.pruneJobFailed ns Component.prune.name
        ((JobState.failureMessage? job.status).getD "job failed"))) :
    PruneStep n ns (.ok (some o)) [] r where
  calls := by simp
  creates := by simp
  unfinished := by simp
  deletes := by
    refine ⟨by simp, ?_⟩
    rintro ⟨_, job, ⟨⟩, hcompleted⟩
    exact absurd (ManagedObject.completed_iff.mpr ⟨job, hcompleted⟩) ho
  done := by simp [hr]
  failed := by
    rintro _ job before c after ⟨⟩ hjob hsplit hbefore hc
    have hfail : JobState.isFailed job.status = true :=
      List.any_eq_true.mpr ⟨c, by simp [hsplit], hc⟩
    refine ⟨rfl, ?_⟩
    rw [hfailed job hjob hfail, JobState.failureMessage?_of_first hsplit hbefore hc]

/-- A step that finds no Job, and asks for one. -/
theorem of_started {a : Except Failure Unit} (hjob : Component.prune.desired n ns = .ok job)
    (hr : r ≠ .ok true) : PruneStep n ns (.ok none) [⟨.create job, a⟩] r where
  calls := by simp [hjob]
  creates := by simp [Call.verb]
  unfinished := fun _ => hr
  deletes := by simp [Call.verb]
  done := by simp [hr, deleted]
  failed := by simp

/-- A step that finds a Job that has completed, and asks for its deletion. -/
theorem of_completed {a : Except Failure Unit} {waiting : List Exchange} (ho : o.Completed)
    (hwaiting : ∀ e ∈ waiting, e.call = .get Component.prune.kind Component.prune.name ns)
    (hr : r = .ok true ↔ a = .ok ()) :
    PruneStep n ns (.ok (some o))
      (⟨.delete Component.prune.kind Component.prune.name ns, a⟩ :: waiting) r := by
  obtain ⟨job, hjob, hcomplete, hunfailed⟩ := ManagedObject.completed_iff.mp ho
  have hcreate : ∀ e ∈ waiting, e.call.verb ≠ .create := by
    intro e he
    rw [hwaiting e he]
    exact nofun
  have hdelete : deleted ns .prune ∉ waiting := fun hmem => nomatch hwaiting _ hmem
  exact {
    calls := by simpa using fun e he => .inl (hwaiting e he)
    creates := by simpa [Call.verb] using hcreate
    unfinished := by simp
    deletes := ⟨fun _ => ⟨o, job, rfl, hjob, hcomplete, hunfailed⟩,
      fun _ => ⟨_, List.mem_cons_self, rfl⟩⟩
    done := by
      rw [hr, List.mem_cons, or_iff_left hdelete]
      simp [deleted, eq_comm]
    failed := by
      intro o' job' before c after ho' hjob' hsplit _ hc
      obtain rfl := Option.some.inj (Except.ok.inj ho')
      obtain rfl := Content.job.inj (hjob.symm.trans hjob')
      exact absurd (hunfailed c (by simp [hsplit])) (by simp [hc]) }

end PruneStep

/-- Where pruning is asked for and the Job can be built, every trace of a step is a look-up and what
is done on its answer. -/
theorem pruneStep_of_prunes {n : NodeFeatureDiscovery} {ns : String} {t : List Exchange}
    {r : Except Failure Bool} {built : ManagedObject} (hon : n.spec.pruneOnDelete = true)
    (hbuilt : Component.prune.desired n ns = .ok built) (h : Prunes n ns t r) :
    ∃ answer rest, t = ⟨.get Component.prune.kind Component.prune.name ns, answer⟩ :: rest ∧
      PruneStep n ns answer rest r := by
  cases h with
  | off hoff => simp [hon] at hoff
  | unread f => exact ⟨_, _, rfl, .of_unread f (by simp)⟩
  | unbuilt _ hunbuilt => simp [hbuilt] at hunbuilt
  | started a _ hjob =>
      refine ⟨_, _, rfl, .of_started hjob ?_⟩
      cases a <;> exact nofun
  | @misplaced o _ hother =>
      have hkept : ¬ o.Completed := by
        rintro ⟨job, hjob, -⟩
        exact hother job hjob
      exact ⟨_, _, rfl, .of_left (by simp) hkept fun job hjob => absurd hjob (hother job)⟩
  | @failed o job _ hjob hfailed =>
      have hkept : ¬ o.Completed := by simp [ManagedObject.Completed, hjob, hfailed]
      refine ⟨_, _, rfl, .of_left (by simp) hkept fun job' hjob' _ => ?_⟩
      rw [Content.job.inj (hjob.symm.trans hjob')]
  | @running o job _ hjob hunfailed hrunning =>
      have hkept : ¬ o.Completed := by simp [ManagedObject.Completed, hjob, hrunning]
      refine ⟨_, _, rfl, .of_left (by simp) hkept fun job' hjob' hfailed => ?_⟩
      rw [← Content.job.inj (hjob.symm.trans hjob'), hunfailed] at hfailed
      cases hfailed
  | kept f _ hcompleted => exact ⟨_, _, rfl, .of_completed hcompleted (by simp) (by simp)⟩
  | finished _ hcompleted hwaiting =>
      exact ⟨_, _, rfl, .of_completed hcompleted hwaiting (by simp)⟩

/-- **One step of pruning.** On any cluster, however it answers, a step of pruning for a resource
with a name and a uid makes no call and is done where pruning is not asked for; otherwise it looks
the Job up, and creates, deletes or leaves the Job on that answer. -/
theorem prune_conduct {σ : Type} {n : NodeFeatureDiscovery} {name uid : String}
    (hname : n.metadata.name = some name) (huid : n.metadata.uid = some uid) (poll : PollConfig)
    (ns : String) (respond : Program.Responder σ) (st : σ) (time : Duration) :
    (n.spec.pruneOnDelete = false →
      (prune poll n ns).exchanges respond st time = [] ∧
        ((prune poll n ns).run respond st time).1 = .ok true) ∧
    (n.spec.pruneOnDelete = true → ∃ answer rest,
      (prune poll n ns).exchanges respond st time =
        ⟨.get Component.prune.kind Component.prune.name ns, answer⟩ :: rest ∧
      PruneStep n ns answer rest ((prune poll n ns).run respond st time).1) := by
  have hprunes := prunes_of_ends (Program.ends_exchanges respond (prune poll n ns) st time)
  refine ⟨fun hoff => ?_, fun hon => ?_⟩
  · rw [prune, if_neg (by simp [hoff])]
    exact ⟨rfl, rfl⟩
  · obtain ⟨ref, href⟩ : ∃ ref, n.ownerReference? = some ref := by
      simp [NodeFeatureDiscovery.ownerReference?, hname, huid]
    obtain ⟨job, hjob⟩ := Component.exists_desired href .prune ns
    exact pruneStep_of_prunes hon hjob hprunes

/-- A prune Job one pod of which succeeded, and which says both that it completed and, for a
reason, that it failed. -/
def contradictoryPrune : ManagedObject where
  metadata := { name := some Component.prune.name, ns := some "gpu" }
  content := .job { status := some (.obj [
    ("conditions", .arr [
      .obj [("status", .str "True"), ("type", .str "Complete")],
      .obj [("reason", .str "DeadlineExceeded"), ("status", .str "True"), ("type", .str "Failed")]]),
    ("succeeded", .num (.int 1))]) }

/-- That Job is left, and its reason is told. -/
theorem prune_conduct_contradictory :
    (prune {} departing "gpu").exchanges Store.respond
        (({} : Store).putObject contradictoryPrune.key contradictoryPrune) (Duration.ofSeconds 0) =
      [found "gpu" .prune (some (contradictoryPrune.withVersion "1"))] ∧
    ((prune {} departing "gpu").run Store.respond
        (({} : Store).putObject contradictoryPrune.key contradictoryPrune)
        (Duration.ofSeconds 0)).1 =
      .error (.pruneJobFailed "gpu" "nfd-prune" "DeadlineExceeded") := by
  obtain ⟨answer, rest, htrace, hstep⟩ := (prune_conduct (n := departing) rfl rfl {} "gpu"
    Store.respond (({} : Store).putObject contradictoryPrune.key contradictoryPrune)
    (Duration.ofSeconds 0)).2 rfl
  have hanswer : answer = .ok (some (contradictoryPrune.withVersion "1")) := by
    have hfound : ∃ later, (prune {} departing "gpu").exchanges Store.respond
        (({} : Store).putObject contradictoryPrune.key contradictoryPrune)
        (Duration.ofSeconds 0) =
      found "gpu" .prune (some (contradictoryPrune.withVersion "1")) :: later := ⟨_, rfl⟩
    obtain ⟨later, hlater⟩ := hfound
    have hhead := (List.cons.inj (htrace.symm.trans hlater)).1
    simpa [found] using hhead
  subst hanswer
  obtain ⟨rfl, hr⟩ := hstep.failed _ _ [_] _ [] rfl rfl rfl (by decide) (by decide)
  exact ⟨htrace, hr⟩

end NodeFeatureOperator
