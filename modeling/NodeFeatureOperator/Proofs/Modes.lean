import NodeFeatureOperator.Proofs.Attendance
import NodeFeatureOperator.Proofs.Rollout

/-!
# The modes of a pass

What a pass has read decides what it may do at all. It adds the finalizer, or tears down, or
converges, and the calls of one mode are never made in another: nothing is created before the
finalizer is stored, nothing is created or replaced while the labels are being taken off the nodes,
and nothing is deleted while the deployment is wanted. This holds whatever the calls are answered.

## Main definitions

* `TeardownMode`, `ConvergenceMode`: what a pass does once it has read the resource.

## Main results

* `teardownMode_of_ends`, `convergenceMode_of_ends`: the two modes.
* `modes_never_mix`: every pass is in one mode.
-/

namespace NodeFeatureOperator

open Component (found)

section Passes

variable {config : Config} {time : Time} {n : NodeFeatureDiscovery} {name ns : String}
  {t : List Exchange}

/-! ### Teardown -/

/-- What is done about a resource that is being deleted: nothing is replaced and nothing reported,
and the only creation, if there is one, is that of the prune Job, after every component was looked
up and not found. -/
structure TeardownMode (n : NodeFeatureDiscovery) (ns : String) (t : List Exchange) : Prop where
  replaces : ∀ e ∈ t, e.call.verb ≠ .update
  reports : ∀ e ∈ t, e.call.verb ≠ .patchStatus
  creates : ∀ t₁ e t₂, t = t₁ ++ e :: t₂ → e.call.verb = .create →
    (∃ job, Component.prune.desired n ns = .ok job ∧ e.call = .create job) ∧
      (∀ c ∈ teardownComponents n.spec, found ns c none ∈ t₁) ∧
      ∀ e' ∈ t₁ ++ t₂, e'.call.verb ≠ .create

/-- A teardown creates the prune Job right after it has found the components gone and has not found
the Job. -/
theorem asks_finalize_create {o : ManagedObject} (h : (finalize config n ns).Asks t (.create o)) :
    Component.prune.desired n ns = .ok o ∧ t = TornDown n.spec ns ++ [found ns .prune none] := by
  obtain ⟨-, hasks | ⟨rest, -, hasks⟩ | ⟨rest, rfl, hasks⟩ | ⟨rest, -, -, hcall⟩⟩ :=
    asks_finalize h
  · obtain ⟨c, -, hcall⟩ := asks_deleteComponents hasks
    cases hcall
  · obtain ⟨c, -, hcall⟩ := asks_remainingComponents hasks
    cases hcall
  · obtain ⟨-, hcall | ⟨hcall, -⟩ | ⟨job, hjob, hcall, rfl⟩⟩ := asks_prune hasks
    · cases hcall
    · cases hcall
    · obtain rfl := Call.create.inj hcall
      exact ⟨hjob, rfl⟩
  · cases hcall

/-- Every creation of a teardown comes after as many calls as every other one. -/
theorem length_of_create {r : Except Failure Action} {t₁ t₂ : List Exchange} {e : Exchange}
    (h : (finalize config n ns).Ends (t₁ ++ e :: t₂) r) (he : e.call.verb = .create) :
    t₁.length = (TornDown n.spec ns).length + 1 := by
  obtain ⟨call, answer⟩ := e
  cases call with
  | create o =>
      obtain ⟨-, rfl⟩ := asks_finalize_create h.asks_of_split
      simp
  | _ => cases he

/-- The calls of a teardown before its release are deletions, look-ups and creations. -/
theorem TeardownCall.verb_eq {call : Call} (h : TeardownCall ns call) :
    call.verb = .delete ∨ call.verb = .get ∨ call.verb = .create := by
  cases h with
  | delete c => exact .inl rfl
  | get c => exact .inr (.inl rfl)
  | create _ => exact .inr (.inr rfl)

/-- A pass over a resource that is being deleted is in the mode of a teardown. -/
theorem teardownMode_of_ends {r : Except Failure Action} (h : (finalize config n ns).Ends t r) :
    TeardownMode n ns t := by
  have hverb : ∀ e ∈ t, e.call.verb ≠ .update ∧ e.call.verb ≠ .patchStatus := by
    intro e he
    obtain ⟨t₁, t₂, rfl⟩ := List.append_of_mem he
    obtain hcall | ⟨-, -, -, hcall⟩ := teardownCall_or_release h.asks_of_split
    · obtain hverb | hverb | hverb := hcall.verb_eq <;> simp [hverb]
    · simp [hcall, Call.verb]
  refine ⟨fun e he => (hverb e he).1, fun e he => (hverb e he).2, ?_⟩
  rintro t₁ ⟨call, answer⟩ t₂ rfl he
  have hlength := length_of_create h he
  refine ⟨?_, ?_, fun e' he' hverb' => ?_⟩
  · cases call with
    | create o => exact ⟨o, (asks_finalize_create h.asks_of_split).1, rfl⟩
    | _ => cases he
  · cases call with
    | create o =>
        intro c hc
        rw [(asks_finalize_create h.asks_of_split).2, TornDown]
        exact List.mem_append_left _ (List.mem_append_right _ (List.mem_map_of_mem hc))
    | _ => cases he
  · -- a second creation would come after as many calls as the first
    obtain he' | he' := List.mem_append.mp he'
    · obtain ⟨a, b, rfl⟩ := List.append_of_mem he'
      rw [List.append_assoc, List.cons_append] at h
      have hlength' := length_of_create h hverb'
      rw [List.length_append, List.length_cons] at hlength
      omega
    · obtain ⟨a, b, rfl⟩ := List.append_of_mem he'
      rw [← List.cons_append, ← List.append_assoc] at h
      have hlength' := length_of_create h hverb'
      rw [List.length_append, List.length_cons] at hlength'
      omega

/-! ### Convergence -/

/-- What is done about a resource that bears the finalizer and is not being deleted: one part for
each component that is asked for, with one write at most, and then the report, which ends with one
write of the conditions at most. The worker has a part only if its configuration was attended to
without a failure. What is written at the place of a component is written in its part, provided that
look-ups are answered with objects of the names that were looked up. -/
structure ConvergenceMode (n : NodeFeatureDiscovery) (name ns : String)
    (parts : Component → List Exchange) (report t : List Exchange) : Prop where
  split : t = Component.passOrder.flatMap parts ++ report
  foreign : ∀ e ∈ t, e.call.verb ≠ .delete ∧ e.call.verb ≠ .updateResource ∧
    e.call.kind? ≠ some .job
  asked : ∀ c, parts c ≠ [] → c ∈ teardownComponents n.spec
  own : ∀ c, ∀ e ∈ parts c, e.call = .get c.kind c.name ns ∨
    ∃ o : ManagedObject, o.kind = c.kind ∧ (e.call = .create o ∨ e.call = .update o)
  once : ∀ c, (parts c).countP (·.call.target?.isSome) ≤ 1
  gated : parts .worker ≠ [] →
    Component.workerConfig.Attends n ns (parts .workerConfig) (.ok ())
  reported : ∃ reads patch, report = reads ++ patch ∧
    (∀ e ∈ reads, ∃ c : Component, c ≠ .prune ∧ e.call = .get c.kind c.name n.ns) ∧
    (patch = [] ∨ ∃ conditions answer, patch = [⟨.patchStatus name ns conditions, answer⟩])
  placed : (∀ c o, found ns c (some o) ∈ t → (c.place ns).Names o) →
    ∀ c : Component, writesAt (c.place ns) t = writesAt (c.place ns) (parts c)

/-- No component but the prune Job is a Job. -/
theorem Component.kind_ne_job {c : Component} (h : c ≠ .prune) : c.kind ≠ .job := by
  cases c <;> first | decide | exact absurd rfl h

/-- A pass over a resource that bears the finalizer and is not being deleted is in the mode of
convergence. -/
theorem convergenceMode_of_ends {r : Except Failure Action}
    (h : (convergePass config time n name ns).Ends t r) :
    ∃ parts report, ConvergenceMode n name ns parts report t := by
  obtain ⟨parts, ended, report, status, rfl, hparts, hreport, -⟩ := ends_convergePass h
  obtain ⟨reads, patch, rfl, hreads, hpatch⟩ := ends_reportStatus hreport
  have honly : ∀ e ∈ reads ++ patch, ReportCall e.call :=
    (only_reportStatus time n name ns).of_ends hreport
  refine ⟨parts, reads ++ patch, rfl, ?_, ?_, hparts.own, hparts.countP_le, hparts.gated,
    ⟨reads, patch, rfl, hreads, hpatch⟩, ?_⟩
  · intro e he
    obtain he | he := List.mem_append.mp he
    · obtain ⟨c, hc, he⟩ := List.mem_flatMap.mp he
      have hjob := Component.kind_ne_job (Component.mem_passOrder.mp hc)
      obtain hcall | ⟨o, hkind, hcall | hcall⟩ := hparts.own c e he
      · simp [hcall, Call.verb, Call.kind?, hjob]
      · simp [hcall, Call.verb, Call.kind?, hkind, hjob]
      · simp [hcall, Call.verb, Call.kind?, hkind, hjob]
    · obtain he | he := List.mem_append.mp he
      · obtain ⟨c, hprune, hcall⟩ := hreads e he
        simp [hcall, Call.verb, Call.kind?, Component.kind_ne_job hprune]
      · obtain rfl | ⟨conditions, answer, rfl⟩ := hpatch
        · cases he
        · obtain rfl := List.mem_singleton.mp he
          simp [Call.verb, Call.kind?]
  · intro c hne
    obtain ⟨hnil, -⟩ | ⟨-, hdue, -, -⟩ := (hparts c).skipped_or_attended
    · exact absurd hnil hne
    · exact hdue.1
  · intro hfound c
    have hreport : writesAt (c.place ns) (reads ++ patch) = [] :=
      writesAt_eq_nil (fun e he => (honly e he).target?_eq_none) _
    rw [writesAt_append, hreport, List.append_nil]
    exact hparts.writesAt_eq (fun d o ho => hfound d o (List.mem_append_left _ ho)) c

/-! ### Every pass -/

/-- **The modes never mix.** Whatever the calls of a pass are answered: it reads the resource, and
does nothing else unless it has read one. If that neither bears the finalizer nor is being deleted,
then all else is one write of the resource with the finalizer. If it is being deleted, the pass is
in the mode of a teardown. And if it bears the finalizer and is not being deleted, the pass is in
the mode of convergence. -/
theorem modes_never_mix {trigger : Metadata} {r : Except Failure Action}
    (h : (reconcile config time trigger).Ends t r) :
    (trigger.ns = none ∧ t = []) ∨ ∃ ns answer rest, trigger.ns = some ns ∧
      t = ⟨.getResource trigger.anyName ns, answer⟩ :: rest ∧
      (rest ≠ [] → ∃ n, answer = .ok (some n)) ∧
      ∀ n, answer = .ok (some n) →
        (n.isDeleting = false → n.hasFinalizer = false →
          ∃ a, rest = [⟨.updateResource n.addFinalizer, a⟩]) ∧
        (n.isDeleting = true → TeardownMode n ns rest) ∧
        (n.isDeleting = false → n.hasFinalizer = true →
          ∃ parts report, ConvergenceMode n trigger.anyName ns parts report rest) := by
  obtain hnone | ⟨ns, answer, rest, hns, rfl, hrest⟩ := ends_reconcile h
  · exact .inl hnone
  refine .inr ⟨ns, answer, rest, hns, rfl, ?_, ?_⟩
  · intro hne
    obtain ⟨rfl, -⟩ | ⟨n, hn, -⟩ := hrest
    · exact absurd rfl hne
    · exact ⟨n, hn⟩
  intro n hn
  obtain ⟨-, hnone⟩ | ⟨n', hn', hpass⟩ := hrest
  · exact absurd hn (hnone n)
  obtain rfl : n' = n := by simpa [hn] using hn'.symm
  refine ⟨fun hdel hfin => ?_, fun hdel => ?_, fun hdel hfin => ?_⟩
  · simp only [passOver, hdel, hfin, Bool.false_eq_true, if_false, Program.bind_eq,
      Program.request, Program.bind, Program.ends_call_iff] at hpass
    obtain ⟨a, t', rfl, hend⟩ := hpass
    cases a <;> obtain ⟨rfl, -⟩ := Program.ends_done_iff.mp hend <;> exact ⟨_, rfl⟩
  · rw [passOver, if_pos hdel] at hpass
    exact teardownMode_of_ends hpass
  · rw [passOver_eq_convergePass config time hdel hfin] at hpass
    exact convergenceMode_of_ends hpass

end Passes

/-- The first pass over a resource that asks for every component is in the mode of convergence, and
writes all five of them. -/
theorem modes_never_mix_occupied :
    ∃ rest parts report,
      (reconcile {} ⟨0, 0⟩ installed.metadata).exchanges Store.respond Store.occupied
          (Duration.ofSeconds 0) =
        ⟨.getResource "nfd" "gpu", .ok (some (installed.withVersion "1"))⟩ :: rest ∧
      ConvergenceMode (installed.withVersion "1") "nfd" "gpu" parts report rest ∧
      rest.countP (·.call.target?.isSome) = 5 := by
  have hends := Program.ends_exchanges Store.respond (reconcile {} ⟨0, 0⟩ installed.metadata)
    Store.occupied (Duration.ofSeconds 0)
  obtain ⟨hnone, -⟩ | ⟨ns, answer, rest, hns, ht, -, hmodes⟩ := modes_never_mix hends
  · cases hnone
  obtain rfl : "gpu" = ns := Option.some.inj hns
  obtain ⟨rest', hread, hcount⟩ : ∃ rest',
      (reconcile {} ⟨0, 0⟩ installed.metadata).exchanges Store.respond Store.occupied
          (Duration.ofSeconds 0) =
        ⟨.getResource "nfd" "gpu", .ok (some (installed.withVersion "1"))⟩ :: rest' ∧
      rest'.countP (·.call.target?.isSome) = 5 :=
    ⟨_, rfl, by decide +kernel⟩
  obtain ⟨hfirst, rfl⟩ := List.cons.inj (ht.symm.trans hread)
  obtain rfl := eq_of_heq (Exchange.mk.inj hfirst).2
  obtain ⟨parts, report, hmode⟩ := (hmodes (installed.withVersion "1") rfl).2.2 rfl (by decide)
  exact ⟨rest, parts, report, hread, hmode, hcount⟩

end NodeFeatureOperator
