import NodeFeatureOperator.Proofs.Causes
import NodeFeatureOperator.Proofs.Release

/-!
# Which passes are tried again

A call may be refused for reasons that pass by themselves: another client was faster, or the service
is throttling, timing out or failing. A pass that fails through nothing else is tried again only if
one of the refusals is a conflict or a failure of the service. The other codes of that sort (no
object at an update, a request that timed out, too many requests) are taken for good ones, so that a
pass refused with them alone waits for a change.

## Main definitions

* `Call.losesRace`: the codes by which a call is refused when another client was faster.
* `Exchange.Transient`: a call refused for a reason that passes by itself.

## Main results

* `transient_pass_requeued_iff`: which passes that failed through such refusals are tried again.
-/

namespace NodeFeatureOperator

/-! ### Refusals that pass -/

/-- Whether a call is refused with a code because another client modified, created or deleted the
object. -/
def Call.losesRace (call : Call) (code : Nat) : Bool :=
  match call.verb with
  | .create => code == 409
  | .update | .updateResource | .patchStatus => code == 409 || code == 404
  | .getResource | .get | .delete => false

/-- The service is throttling, timing out or failing. -/
def Refusal.isOverload (r : Refusal) : Bool :=
  r.code == 408 || r.code == 429 || (500 ≤ r.code && r.code < 600)

/-- A call was refused, and that is the given failure, because another client was faster or because
the service is throttling, timing out or failing. -/
def Exchange.Transient (e : Exchange) (g : Failure) : Prop :=
  ∃ r, g = .refused r ∧ e.answer = .error g ∧
    (e.call.losesRace r.code = true ∨ r.isOverload = true)

/-- The refusals of that sort that are worth a retry are the conflicts and the failures of the
service. -/
theorem Exchange.Transient.isRetryable_iff {e : Exchange} {r : Refusal}
    (h : e.Transient (.refused r)) :
    (Failure.refused r).isRetryable = true ↔ r.code = 409 ∨ 500 ≤ r.code := by
  have hcode : r.code = 409 ∨ r.code = 404 ∨ r.code = 408 ∨ r.code = 429 ∨ 500 ≤ r.code := by
    obtain ⟨_, ⟨⟩, -, hrace | hload⟩ := h
    · unfold Call.losesRace at hrace
      split at hrace <;> simp at hrace <;> omega
    · simp [Refusal.isOverload] at hload
      omega
  simp only [Failure.isRetryable, Failure.Refusal.isRetryable, Bool.not_eq_true',
    decide_eq_false_iff_not]
  omega

/-- A failure is followed by a retry exactly if it is worth one. -/
theorem errorPolicy_eq_requeue_iff {config : Config} {f : Failure} :
    errorPolicy config f = .requeue config.error ↔ f.isRetryable = true := by
  rw [errorPolicy]
  split <;> simp_all

/-! ### Passes -/

/-- **Which transient failures are tried again.** A pass whose failure comes, however it is nested,
from calls that were refused because another client was faster or because the service is throttling,
timing out or failing, is tried again exactly if one of these refusals is a conflict or a failure of
the service. A refusal of any of its calls but the look-ups counts. -/
theorem transient_pass_requeued_iff {config : Config} {time : Time} {trigger : Metadata}
    {t : List Exchange} {f : Failure}
    (h : (reconcile config time trigger).Ends t (.error f))
    (hf : ∀ g ∈ f.causes, ∃ e ∈ t, e.Transient g) :
    (errorPolicy config f = .requeue config.error ↔
      ∃ r, Failure.refused r ∈ f.causes ∧ (r.code = 409 ∨ 500 ≤ r.code)) ∧
    ∀ e ∈ t, e.call.isRead = false → ∀ r, e.answer = .error (.refused r) →
      Failure.refused r ∈ f.causes := by
  constructor
  · rw [errorPolicy_eq_requeue_iff, Failure.isRetryable_iff_exists_cause]
    constructor
    · rintro ⟨g, hg, hretry⟩
      obtain ⟨e, -, htransient⟩ := hf g hg
      obtain ⟨r, rfl, -⟩ := id htransient
      exact ⟨r, hg, htransient.isRetryable_iff.mp hretry⟩
    · rintro ⟨r, hr, hcode⟩
      obtain ⟨e, -, htransient⟩ := hf _ hr
      exact ⟨_, hr, htransient.isRetryable_iff.mpr hcode⟩
  · intro e he hread r hr
    obtain ⟨f', hf', hcauses⟩ := accounts_reconcile config time trigger t _ h e he _ ⟨hread, hr⟩
    obtain rfl := Except.error.inj hf'
    exact hcauses (by simp [Failure.causes])

/-! ### Passes whose deletions are refused -/

/-- The deletion of a component, with its answer. -/
def Component.deletion (ns : String) (answer : Component → Except Failure Unit) (c : Component) :
    Exchange :=
  ⟨.delete c.kind c.name ns, answer c⟩

/-- A loop of deletions gives the failures of those that failed. -/
theorem ends_deleteEach (ns : String) (answer : Component → Except Failure Unit)
    (cs : List Component) :
    (deleteEach ns cs).Ends (cs.map (Component.deletion ns answer))
      (cs.flatMap fun c => (failureOf (answer c)).map (c.failure ns)) := by
  induction cs with
  | nil => exact .done _
  | cons c cs ih =>
      simp only [deleteEach, Program.bind_eq, Program.request, Program.bind, Program.ends_call_iff]
      refine ⟨answer c, cs.map (Component.deletion ns answer), rfl, ?_⟩
      rw [List.flatMap_cons]
      cases answer c with
      | ok u => exact ih
      | error g =>
          exact Program.ends_bind_iff.mpr ⟨_, _, [], (List.append_nil _).symm, ih, .done _⟩

/-- A pass over a resource on its way out ends with the failures of its deletions joined, if there
are some. -/
theorem ends_reconcile_of_failed_deletions (config : Config) (time : Time) (trigger : Metadata)
    {ns : String} {n : NodeFeatureDiscovery} (answer : Component → Except Failure Unit)
    {f : Failure} (hns : trigger.ns = some ns) (hdel : n.isDeleting = true)
    (hfin : n.hasFinalizer = true)
    (hf : Failure.join ((teardownComponents n.spec).flatMap
      fun c => (failureOf (answer c)).map (c.failure ns)) = some f) :
    (reconcile config time trigger).Ends
      (⟨.getResource trigger.anyName ns, .ok (some n)⟩ ::
        (teardownComponents n.spec).map (Component.deletion ns answer)) (.error f) := by
  have hdelete : (deleteComponents n ns).Ends
      ((teardownComponents n.spec).map (Component.deletion ns answer)) (.error f) := by
    refine Program.ends_bind_iff.mpr
      ⟨_, _, [], (List.append_nil _).symm, ends_deleteEach ns answer _, ?_⟩
    rw [Failure.joined, hf]
    exact .done _
  simp only [reconcile, hns, Program.bind_eq, Program.request, Program.bind]
  refine .call ?_
  simp only [passOver, hdel, if_true, finalize, hfin, Program.bind_eq]
  exact Program.ends_bind_iff.mpr ⟨_, _, [], (List.append_nil _).symm, hdelete, .done _⟩

/-- If they were refused by a service that is throttling, timing out or failing, all causes of that
are such refusals. -/
theorem transient_of_refused_deletions {ns : String} {cs : List Component}
    {answer : Component → Except Failure Unit} {f : Failure}
    (hf : Failure.join (cs.flatMap fun c => (failureOf (answer c)).map (c.failure ns)) = some f)
    (hanswer : ∀ c g, answer c = .error g → ∃ r, g = .refused r ∧ r.isOverload = true) :
    ∀ g ∈ f.causes, ∃ e ∈ cs.map (Component.deletion ns answer), e.Transient g := by
  intro g hg
  rw [Failure.causes_of_join hf, Failure.mem_causesOfAll] at hg
  obtain ⟨f', hmem, hg⟩ := hg
  obtain ⟨c, hc, hmem⟩ := List.mem_flatMap.mp hmem
  cases hc' : answer c with
  | ok u => simp [hc', failureOf] at hmem
  | error g' =>
      obtain ⟨r, rfl, hload⟩ := hanswer c g' hc'
      obtain rfl : f' = c.failure ns (.refused r) := by simpa [hc', failureOf] using hmem
      obtain rfl : g = .refused r := by simpa [Component.failure, Failure.causes] using hg
      exact ⟨_, List.mem_map_of_mem hc, r, rfl, hc', .inr hload⟩

/-- A refusal by a service that is asked too much. -/
def throttled : Refusal where
  status := "Failure"
  message := "too many requests"
  reason := "TooManyRequests"
  code := 429

/-- A refusal by a service that is down. -/
def unavailable : Refusal where
  status := "Failure"
  message := "the server is down"
  reason := "ServiceUnavailable"
  code := 503

/-- The refusals by a service that is down for the master, and throttles the rest. -/
def overload : Component → Refusal
  | .master => unavailable
  | _ => throttled

/-- A pass over the departing resource in which every deletion is refused. -/
def refusedTeardown (r : Component → Refusal) : List Exchange :=
  ⟨.getResource "nfd" "gpu", .ok (some departing)⟩ ::
    (teardownComponents departing.spec).map
      (Component.deletion "gpu" fun c => .error (.refused (r c)))

/-- What that pass fails with. -/
def refusals (r : Component → Refusal) : Failure :=
  .multiple ((teardownComponents departing.spec).map fun c => c.failure "gpu" (.refused (r c)))

/-- It does fail with that. -/
theorem ends_refusedTeardown (r : Component → Refusal) :
    (reconcile {} ⟨0, 0⟩ departing.metadata).Ends (refusedTeardown r) (.error (refusals r)) :=
  ends_reconcile_of_failed_deletions {} ⟨0, 0⟩ departing.metadata _ rfl rfl (by decide) rfl

/-- All causes are refusals that pass by themselves, if the service only throttles or is down. -/
theorem transient_refusals {r : Component → Refusal} (hr : ∀ c, (r c).isOverload = true) :
    ∀ g ∈ (refusals r).causes, ∃ e ∈ refusedTeardown r, e.Transient g := by
  intro g hg
  let answer (c : Component) : Except Failure Unit := .error (.refused (r c))
  have hjoin : Failure.join ((teardownComponents departing.spec).flatMap fun c =>
      (failureOf (answer c)).map (c.failure "gpu")) = some (refusals r) := rfl
  obtain ⟨e, he, htransient⟩ := transient_of_refused_deletions hjoin
    (fun c g hg => ⟨r c, (Except.error.inj hg).symm, hr c⟩) g hg
  exact ⟨e, List.mem_cons_of_mem _ he, htransient⟩

/-- A teardown that is throttled, but for the master, whose deletion finds the service down, is
tried again. -/
theorem transient_pass_requeued_iff_overload :
    (errorPolicy {} (refusals overload) = .requeue (Config.error {}) ↔
      ∃ r, Failure.refused r ∈ (refusals overload).causes ∧ (r.code = 409 ∨ 500 ≤ r.code)) ∧
    ∀ e ∈ refusedTeardown overload, e.call.isRead = false →
      ∀ r, e.answer = .error (.refused r) → Failure.refused r ∈ (refusals overload).causes :=
  transient_pass_requeued_iff (ends_refusedTeardown overload)
    (transient_refusals fun c => by cases c <;> decide)

/-- A teardown that is throttled throughout waits for a change, although it failed through nothing
but refusals that pass by themselves. -/
theorem throttled_pass_awaits :
    (reconcile {} ⟨0, 0⟩ departing.metadata).Ends (refusedTeardown fun _ => throttled)
      (.error (refusals fun _ => throttled)) ∧
    (∀ g ∈ (refusals fun _ => throttled).causes,
      ∃ e ∈ refusedTeardown fun _ => throttled, e.Transient g) ∧
    errorPolicy {} (refusals fun _ => throttled) = .awaitChange :=
  ⟨ends_refusedTeardown _, transient_refusals fun _ => by decide, by decide⟩

end NodeFeatureOperator
