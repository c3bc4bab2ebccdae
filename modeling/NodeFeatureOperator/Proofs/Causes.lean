import NodeFeatureOperator.Proofs.Pass
import NodeFeatureOperator.Proofs.Quiet

/-!
# What comes of a call that fails

The causes of a failure are what it comes down to once the names of components and the joins are
taken away. They alone decide whether the failure is worth a retry. Whatever else happens in a pass,
a call that fails and is not a look-up makes the pass fail, and the causes of the call's failure are
among those of the pass's.

## Main definitions

* `Failure.causes`: what a failure comes down to.
* `Program.Accounts`: a program ends with a failure that takes in those of its calls other than
  look-ups.

## Main results

* `Failure.isRetryable_iff_exists_cause`: a failure is worth a retry if one of its causes is.
* `accounts_reconcile`: a pass accounts for its calls other than look-ups.
-/

namespace NodeFeatureOperator

/-! ### Causes -/

namespace Failure

mutual
/-- What a failure comes down to: itself, unless it is one on a component or several joined. -/
def causes : Failure → List Failure
  | .component _ _ _ source => causes source
  | .multiple parts => causesOfAll parts
  | f => [f]
termination_by structural f => f
/-- What several failures come down to. -/
def causesOfAll : List Failure → List Failure
  | [] => []
  | f :: rest => causes f ++ causesOfAll rest
termination_by structural l => l
end

mutual
/-- Only the causes of a failure decide whether it is worth a retry. -/
theorem isRetryable_eq_any_causes : (f : Failure) → f.isRetryable = f.causes.any isRetryable
  | .component _ _ _ source => isRetryable_eq_any_causes source
  | .multiple parts => anyRetryable_eq_any_causes parts
  | .refused _ | .broken _ | .ownerReference _ _ _ | .pruneJobFailed _ _ _ | .timeout _ _
  | .serialization _ | .internal _ _ => by simp [causes]
/-- Only the causes of several failures decide whether one of them is worth a retry. -/
theorem anyRetryable_eq_any_causes :
    (fs : List Failure) → anyRetryable fs = (causesOfAll fs).any isRetryable
  | [] => rfl
  | f :: rest => by
      rw [anyRetryable, causesOfAll, List.any_append, isRetryable_eq_any_causes f,
        anyRetryable_eq_any_causes rest]
end

/-- A failure is worth a retry exactly if one of its causes is. -/
theorem isRetryable_iff_exists_cause {f : Failure} :
    f.isRetryable = true ↔ ∃ g ∈ f.causes, g.isRetryable = true := by
  rw [isRetryable_eq_any_causes, List.any_eq_true]

/-- A failure that takes in the causes of one that is worth a retry is worth a retry. -/
theorem isRetryable_of_causes_subset {f g : Failure} (h : g.causes ⊆ f.causes)
    (hg : g.isRetryable = true) : f.isRetryable = true := by
  obtain ⟨cause, hcause, hretry⟩ := isRetryable_iff_exists_cause.mp hg
  exact isRetryable_iff_exists_cause.mpr ⟨cause, h hcause, hretry⟩

/-- Several failures have the causes of each of them, and no others. -/
theorem mem_causesOfAll {g : Failure} {fs : List Failure} :
    g ∈ causesOfAll fs ↔ ∃ f ∈ fs, g ∈ f.causes := by
  induction fs with
  | nil => simp [causesOfAll]
  | cons f rest ih => simp [causesOfAll, ih]

/-- So has what they are joined to. -/
theorem causes_of_join {f : Failure} {fs : List Failure} (h : join fs = some f) :
    f.causes = causesOfAll fs := by
  rcases fs with _ | ⟨g, _ | ⟨g', rest⟩⟩
  · cases h
  · obtain rfl := Option.some.inj h
    exact (List.append_nil _).symm
  · obtain rfl := Option.some.inj h
    rfl

/-- A failure among several is taken in by what they are joined to. -/
theorem exists_join {f : Failure} {fs : List Failure} (h : f ∈ fs) :
    ∃ joined, join fs = some joined ∧ f.causes ⊆ joined.causes := by
  obtain ⟨joined, hjoin⟩ := Option.ne_none_iff_exists'.mp
    fun hnone => List.ne_nil_of_mem h (join_eq_none_iff.mp hnone)
  refine ⟨joined, hjoin, fun g hg => ?_⟩
  rw [causes_of_join hjoin]
  exact mem_causesOfAll.mpr ⟨f, h, hg⟩

end Failure

/-! ### Programs that account for their calls -/

/-- A result that takes in a failure: it is a failure with the causes of that one. -/
def TakesIn {α : Type} (r : Except Failure α) (g : Failure) : Prop :=
  ∃ f, r = .error f ∧ g.causes ⊆ f.causes

/-- A failure takes itself in. -/
theorem takesIn_error {α : Type} (g : Failure) : TakesIn (.error g : Except Failure α) g :=
  ⟨g, rfl, List.Subset.refl _⟩

/-- A call that is not a look-up has failed with a failure. -/
def Exchange.Failed (e : Exchange) (g : Failure) : Prop :=
  e.call.isRead = false ∧ e.answer = .error g

namespace Program

variable {α β : Type}

/-- The program ends with a result that takes in every failure of a call other than a look-up. -/
def Accounts (p : Program (Except Failure α)) : Prop :=
  ∀ t r, p.Ends t r → ∀ e ∈ t, ∀ g, e.Failed g → TakesIn r g

variable {q : Program (Except Failure α)}

/-- A program without calls has nothing to account for. -/
theorem accounts_done (r : Except Failure α) : (Program.done r).Accounts := by
  intro t r' h e he
  obtain ⟨rfl, -⟩ := ends_done_iff.mp h
  cases he

/-- A look-up is not accounted for. -/
theorem accounts_read {c : Call} {next : Except Failure c.Answer → Program (Except Failure α)}
    (hc : c.isRead = true) (hnext : ∀ answer, (next answer).Accounts) :
    (Program.call c next).Accounts := by
  intro t r h e he g hg
  obtain ⟨answer, rest, rfl, hrest⟩ := ends_call_iff.mp h
  obtain rfl | he := List.mem_cons.mp he
  · cases hc.symm.trans hg.1
  · exact hnext answer rest r hrest e he g hg

/-- A call whose failure ends the program is accounted for by what the program ends with. -/
theorem accounts_call {c : Call} {next : Except Failure c.Answer → Program (Except Failure α)}
    (hok : ∀ a, (next (.ok a)).Accounts)
    (herror : ∀ g, ∃ r, next (.error g) = .done r ∧ TakesIn r g) :
    (Program.call c next).Accounts := by
  intro t r h e he g hg
  obtain ⟨answer, rest, rfl, hrest⟩ := ends_call_iff.mp h
  cases answer with
  | error g' =>
      obtain ⟨r', hr', htakes⟩ := herror g'
      rw [hr'] at hrest
      obtain ⟨rfl, rfl⟩ := ends_done_iff.mp hrest
      obtain rfl := List.mem_singleton.mp he
      obtain rfl := Except.error.inj hg.2
      exact htakes
  | ok a =>
      obtain rfl | he := List.mem_cons.mp he
      · cases hg.2
      · exact hok a rest r hrest e he g hg

/-- After a program that only looks up, what follows accounts for its own calls. -/
theorem accounts_bind_of_reads {p : Program α} {f : α → Program (Except Failure β)}
    (hp : p.Only (Call.isRead · = true)) (hf : ∀ a, (f a).Accounts) : (p.bind f).Accounts := by
  intro t r h e he g hg
  obtain ⟨a, t₁, t₂, rfl, h₁, h₂⟩ := ends_bind_iff.mp h
  obtain he | he := List.mem_append.mp he
  · cases (hp.of_ends h₁ e he).symm.trans hg.1
  · exact hf a t₂ r h₂ e he g hg

/-- Programs in sequence account for their calls if the second passes on the failure of the
first. -/
theorem Accounts.bind {f : Except Failure α → Program (Except Failure β)} (hq : q.Accounts)
    (hf : ∀ r, (f r).Accounts)
    (herror : ∀ g t r, (f (.error g)).Ends t r → TakesIn r g) : (q.bind f).Accounts := by
  intro t r h e he g hg
  obtain ⟨r', t₁, t₂, rfl, h₁, h₂⟩ := ends_bind_iff.mp h
  obtain he | he := List.mem_append.mp he
  · obtain ⟨g', rfl, hcauses⟩ := hq t₁ r' h₁ e he g hg
    obtain ⟨f', rfl, hcauses'⟩ := herror g' t₂ r h₂
    exact ⟨f', rfl, List.Subset.trans hcauses hcauses'⟩
  · exact hf r' t₂ r h₂ e he g hg

end Program

/-- A program that goes on only without a failure passes on a failure. -/
theorem takesIn_of_ends_done {α : Type} {g : Failure} {t : List Exchange}
    {r r' : Except Failure α} (hr : TakesIn r g) (h : (Program.done r).Ends t r') :
    TakesIn r' g := by
  obtain ⟨-, rfl⟩ := Program.ends_done_iff.mp h
  exact hr

/-! ### Convergence -/

namespace Component

variable (c : Component) (n : NodeFeatureDiscovery) (ns : String)

/-- A failure on a component takes in the failure. -/
theorem takesIn_failure {α : Type} (g : Failure) :
    TakesIn (.error (c.failure ns g) : Except Failure α) g :=
  ⟨c.failure ns g, rfl, List.Subset.refl _⟩

/-- A rebuild accounts for its write. -/
theorem accounts_rebuild (hash : String) (live : ManagedObject) :
    (c.rebuild n hash live).Accounts := by
  rw [rebuild]
  split
  · exact Program.accounts_done _
  · dsimp only
    split
    · exact Program.accounts_done _
    · exact Program.accounts_call (fun _ => Program.accounts_done _)
        fun g => ⟨_, rfl, takesIn_error g⟩

/-- Convergence of a component accounts for its write. -/
theorem accounts_settle : (c.settle n ns).Accounts := by
  have hcore : (c.convergeCore n ns).Accounts := by
    rw [convergeCore]
    split
    · exact Program.accounts_done _
    · refine Program.accounts_read rfl fun answer => ?_
      rcases answer with g | _ | live
      · exact Program.accounts_done _
      · exact Program.accounts_call (fun _ => Program.accounts_done _)
          fun g => ⟨_, rfl, takesIn_error g⟩
      · dsimp only [Program.bind]
        split
        · exact Program.accounts_done _
        · exact c.accounts_rebuild n _ live
  have hconverge : (c.converge n ns).Accounts :=
    hcore.bind (fun r => Program.accounts_done _)
      fun g t r h => takesIn_of_ends_done (c.takesIn_failure ns g) h
  exact hconverge.bind (fun r => Program.accounts_done _)
    fun g t r h => takesIn_of_ends_done (takesIn_error g) h

end Component

section Pass

variable (config : Config) (time : Time) (n : NodeFeatureDiscovery) (name ns : String)

/-- Convergence of the worker accounts for its writes, also that of the configuration. -/
theorem accounts_convergeWorker : (convergeWorker n ns).Accounts := by
  refine (Component.workerConfig.accounts_settle n ns).bind ?_ ?_
  · rintro (g | u)
    · exact Program.accounts_done _
    · exact Component.worker.accounts_settle n ns
  · exact fun g t r h => takesIn_of_ends_done (takesIn_error g) h

/-- Convergence of the topology updater accounts for its write. -/
theorem accounts_convergeTopology : (convergeTopology n ns).Accounts := by
  rw [convergeTopology]
  split
  · exact Component.topologyUpdater.accounts_settle n ns
  · exact Program.accounts_done _

/-- The look at the workloads only looks up. -/
theorem reads_firstUnhealthy (checks : List HealthCheck) :
    (firstUnhealthy ns checks).Only (Call.isRead · = true) := by
  induction checks with
  | nil => exact trivial
  | cons check rest ih =>
      refine ⟨rfl, fun found => ?_⟩
      dsimp only [Program.bind]
      split
      · exact ih
      · exact trivial

/-- A report accounts for the write of the conditions. -/
theorem accounts_reportStatus : (reportStatus time n name ns).Accounts := by
  have hreads : (observeConditions time n).Only (Call.isRead · = true) :=
    (reads_firstUnhealthy n.ns _).bind fun _ => trivial
  refine Program.accounts_bind_of_reads hreads fun conditions => ?_
  split
  · exact Program.accounts_done _
  · exact Program.accounts_call (fun _ => Program.accounts_done _)
      fun g => ⟨_, rfl, takesIn_error g⟩

/-- A pass that converges accounts for its writes, whichever components they were of and whatever
else went wrong. -/
theorem accounts_convergePass : (convergePass config time n name ns).Accounts := by
  intro t r h e he g hg
  rw [convergePass_eq] at h
  obtain ⟨master, t₁, t, rfl, hmaster, h⟩ := Program.ends_bind_iff.mp h
  obtain ⟨worker, t₂, t, rfl, hworker, h⟩ := Program.ends_bind_iff.mp h
  obtain ⟨topology, t₃, t, rfl, htopology, h⟩ := Program.ends_bind_iff.mp h
  obtain ⟨collector, t₄, t, rfl, hcollector, h⟩ := Program.ends_bind_iff.mp h
  obtain ⟨status, t₅, t, rfl, hstatus, h⟩ := Program.ends_bind_iff.mp h
  obtain ⟨rfl, rfl⟩ := Program.ends_done_iff.mp h
  -- whichever part made the call, its failure is among those that are joined
  have hfailure : ∃ f ∈ failureOf master ++ failureOf worker ++ failureOf topology ++
      failureOf collector ++ failureOf status, g.causes ⊆ f.causes := by
    simp only [List.append_nil, List.mem_append] at he
    obtain he | he | he | he | he := he
    · obtain ⟨f, rfl, hf⟩ := Component.master.accounts_settle n ns t₁ _ hmaster e he g hg
      exact ⟨f, by simp [failureOf], hf⟩
    · obtain ⟨f, rfl, hf⟩ := accounts_convergeWorker n ns t₂ _ hworker e he g hg
      exact ⟨f, by simp [failureOf], hf⟩
    · obtain ⟨f, rfl, hf⟩ := accounts_convergeTopology n ns t₃ _ htopology e he g hg
      exact ⟨f, by simp [failureOf], hf⟩
    · obtain ⟨f, rfl, hf⟩ := Component.collector.accounts_settle n ns t₄ _ hcollector e he g hg
      exact ⟨f, by simp [failureOf], hf⟩
    · obtain ⟨f, rfl, hf⟩ := accounts_reportStatus time n name ns t₅ _ hstatus e he g hg
      exact ⟨f, by simp [failureOf], hf⟩
  obtain ⟨f, hmem, hf⟩ := hfailure
  obtain ⟨joined, hjoin, hjoined⟩ := Failure.exists_join hmem
  refine ⟨joined, ?_, List.Subset.trans hf hjoined⟩
  rw [conclude, hjoin]

/-! ### Teardown -/

/-- A loop of deletions gives the failure of every deletion, on its component. -/
theorem exists_of_ends_deleteEach {cs : List Component} {t : List Exchange} {fs : List Failure}
    (h : (deleteEach ns cs).Ends t fs) {e : Exchange} (he : e ∈ t) {g : Failure}
    (hg : e.Failed g) : ∃ f ∈ fs, g.causes ⊆ f.causes := by
  induction cs generalizing t fs with
  | nil =>
      obtain ⟨rfl, -⟩ := Program.ends_done_iff.mp h
      cases he
  | cons c cs ih =>
      simp only [deleteEach, Program.bind_eq, Program.request, Program.bind,
        Program.ends_call_iff] at h
      obtain ⟨answer, rest, rfl, h⟩ := h
      cases answer with
      | ok u =>
          obtain rfl | he := List.mem_cons.mp he
          · cases hg.2
          · exact ih h he
      | error g' =>
          obtain ⟨others, t₁, t₂, rfl, h₁, h₂⟩ := Program.ends_bind_iff.mp h
          obtain ⟨rfl, rfl⟩ := Program.ends_done_iff.mp h₂
          obtain rfl | he := List.mem_cons.mp he
          · obtain rfl := Except.error.inj hg.2
            exact ⟨c.failure ns g', List.mem_cons_self, List.Subset.refl _⟩
          · obtain ⟨f, hf, hcauses⟩ := ih h₁ (by simpa using he)
            exact ⟨f, List.mem_cons_of_mem _ hf, hcauses⟩

/-- The deletion of the components accounts for every single deletion. -/
theorem accounts_deleteComponents : (deleteComponents n ns).Accounts := by
  intro t r h e he g hg
  obtain ⟨fs, t₁, t₂, rfl, h₁, h₂⟩ := Program.ends_bind_iff.mp h
  obtain ⟨rfl, rfl⟩ := Program.ends_done_iff.mp h₂
  obtain ⟨f, hf, hcauses⟩ := exists_of_ends_deleteEach ns h₁ (by simpa using he) hg
  obtain ⟨joined, hjoin, hjoined⟩ := Failure.exists_join hf
  exact ⟨joined, by rw [Failure.joined, hjoin], List.Subset.trans hcauses hjoined⟩

/-- A step of pruning accounts for the creation and the deletion of the Job. -/
theorem accounts_prune (poll : PollConfig) : (prune poll n ns).Accounts := by
  have hstart : (startPrune n ns).Accounts := by
    rw [startPrune]
    split
    · exact Program.accounts_done _
    · exact Program.accounts_call (fun _ => Program.accounts_done _)
        fun g => ⟨_, rfl, Component.takesIn_failure .prune ns g⟩
  have hfinish : (finishPrune poll ns).Accounts := by
    have hwait := (only_waitForPrune poll ns).mono (Q := (Call.isRead · = true)) fun _ h => h ▸ rfl
    refine Program.accounts_call (fun u => ?_)
      fun g => ⟨_, rfl, Component.takesIn_failure .prune ns g⟩
    change (Program.bind (waitUntil poll _ _) _).Accounts
    exact Program.accounts_bind_of_reads hwait fun _ => Program.accounts_done _
  rw [prune]
  split
  · refine Program.accounts_read rfl fun answer => ?_
    rcases answer with g | _ | object
    · exact Program.accounts_done _
    · exact hstart
    · dsimp only [Program.bind]
      split
      · rw [followPrune]
        split
        · exact Program.accounts_done _
        · split
          · exact hfinish
          · exact Program.accounts_done _
      · exact Program.accounts_done _
  · exact Program.accounts_done _

/-- A teardown accounts for its deletions, for the creation of the Job and for the release. -/
theorem accounts_finalize : (finalize config n ns).Accounts := by
  have hremaining : (remainingComponents n ns).Only (Call.isRead · = true) := by
    refine Program.only_of_asks fun t call h => ?_
    obtain ⟨c, -, rfl⟩ := asks_remainingComponents h
    rfl
  rw [finalize]
  split
  · refine (accounts_deleteComponents n ns).bind ?_
      fun g t r h => takesIn_of_ends_done (takesIn_error g) h
    rintro (g | u)
    · exact Program.accounts_done _
    refine Program.accounts_bind_of_reads hremaining ?_
    rintro (g | (_ | ⟨c, cs⟩))
    · exact Program.accounts_done _
    · refine (accounts_prune n ns config.prunePoll).bind ?_
        fun g t r h => takesIn_of_ends_done (takesIn_error g) h
      rintro (g | (_ | _))
      · exact Program.accounts_done _
      · exact Program.accounts_done _
      · exact Program.accounts_call (fun _ => Program.accounts_done _)
          fun g => ⟨_, rfl, takesIn_error g⟩
    · exact Program.accounts_done _
  · exact Program.accounts_done _

/-- **A pass accounts for its calls.** Whatever else happens in it, a pass in which a call other
than a look-up failed ends with a failure, and that has the causes of the call's failure. -/
theorem accounts_reconcile (trigger : Metadata) : (reconcile config time trigger).Accounts := by
  rw [reconcile]
  split
  · exact Program.accounts_done _
  next ns _ =>
    refine Program.accounts_read rfl fun answer => ?_
    rcases answer with g | _ | n
    · exact Program.accounts_done _
    · exact Program.accounts_done _
    · change (passOver config time n trigger.anyName ns).Accounts
      rw [passOver]
      split
      · exact accounts_finalize config n ns
      · split
        · exact accounts_convergePass config time n trigger.anyName ns
        · exact Program.accounts_call (fun _ => Program.accounts_done _)
            fun g => ⟨_, rfl, takesIn_error g⟩

end Pass

end NodeFeatureOperator
