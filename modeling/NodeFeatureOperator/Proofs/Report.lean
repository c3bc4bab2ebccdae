import NodeFeatureOperator.Proofs.Attendance

/-!
# What a pass that converges reports

The steps of a pass that converges are the master, the worker with its configuration, the topology
updater where it is asked for, the collector, and the write of the status. A pass takes all of them,
whichever fail, and reports each failure once, in this order. The write of the status is decided by
the survey of the workloads and by the conditions that were read with the resource, and by nothing
that happened in the steps before it.

## Main definitions

* `Concludes`: what a pass reports, by the failures of its steps.

## Main results

* `concludes_conclude`: this is what a pass concludes from its failures.
* `pass_reports_failures`: every pass that converges reports what failed in it, and nothing else.
-/

namespace NodeFeatureOperator

namespace Failure

/-- The texts of failures, one by one. -/
theorem messages_eq_map (fs : List Failure) : messages fs = fs.map message := by
  induction fs with
  | nil => rfl
  | cons f fs ih => rw [messages, ih, List.map_cons]

/-- The text of joined failures consists of the texts of all of them. -/
theorem message_of_join {fs : List Failure} {f : Failure} (h : join fs = some f) :
    f.message = "; ".intercalate (fs.map message) := by
  rcases fs with _ | ⟨g, _ | ⟨g', rest⟩⟩
  · cases h
  · obtain rfl := Option.some.inj h
    rfl
  · obtain rfl := Option.some.inj h
    exact congrArg _ (messages_eq_map _)

end Failure

/-! ### The conclusion -/

/-- What a pass reports, by the failures of its steps and by the action that is due without any. It
fails exactly if a step did: with the failure of that step if there is only one, and else with all
of them in their order. Its text is made up of theirs. -/
structure Concludes (r : Except Failure Action) (failures : List Failure) (action : Action) :
    Prop where
  fails_iff : (∃ f, r = .error f) ↔ failures ≠ []
  single : ∀ f, failures = [f] → r = .error f
  several : 2 ≤ failures.length → r = .error (.multiple failures)
  message : ∀ f, r = .error f → f.message = "; ".intercalate (failures.map Failure.message)
  succeeds : failures = [] → r = .ok action

/-- This is what a pass concludes from its failures. -/
theorem concludes_conclude {config : Config} {failures : List Failure} {available : Bool}
    {action : Action} (haction : failures = [] →
      action = .requeue (if available then config.resync else config.progress)) :
    Concludes (conclude config failures available) failures action where
  fails_iff := by
    rw [conclude, ne_eq, ← join_eq_none_iff]
    cases Failure.join failures <;> simp
  single := by
    rintro f rfl
    rfl
  several := by
    intro hlength
    rcases failures with _ | ⟨f, _ | ⟨g, rest⟩⟩
    · simp at hlength
    · simp at hlength
    · rfl
  message := by
    intro f hf
    rw [conclude] at hf
    cases hjoin : Failure.join failures with
    | none =>
        rw [hjoin] at hf
        cases hf
    | some joined =>
        rw [hjoin] at hf
        obtain rfl := Except.error.inj hf
        exact Failure.message_of_join hjoin
  succeeds hnone := conclude_eq_ok_iff.mpr ⟨hnone, haction hnone⟩

/-! ### The steps -/

section Steps

variable {n : NodeFeatureDiscovery} {name ns : String} {parts : Component → List Exchange}
  {ended : Component → Option (Except Failure Unit)}

/-- A component that is not asked for has no failure in the pass, so there is none exactly if every
component that is asked for was attended to without one. -/
theorem Attendance.partFailures_eq_nil_iff (h : Attendance n ns parts ended) :
    partFailures ended = [] ↔ ∀ c ∈ teardownComponents n.spec, ended c = some (.ok ()) := by
  constructor
  · exact fun hok c hc => h.ended_ok hok hc
  · intro hall
    refine List.flatMap_eq_nil_iff.mpr fun c _ => ?_
    obtain ⟨-, hskipped, -⟩ | ⟨r, hdue, -, -⟩ := (h c).skipped_or_attended
    · rw [hskipped]
      rfl
    · rw [hall c hdue.1]
      rfl

/-- The worker and its configuration do not both fail, since the worker is skipped if its
configuration failed. -/
theorem Attendance.worker_skipped (h : Attendance n ns parts ended)
    (hconfig : failureIn (ended .workerConfig) ≠ []) : ended .worker = none := by
  obtain ⟨-, hskipped, -⟩ | ⟨r, hdue, -, -⟩ := (h .worker).skipped_or_attended
  · exact hskipped
  · rw [hdue.2 rfl] at hconfig
    exact absurd rfl hconfig

/-- The failure of a report is that of its write. -/
theorem failureOf_map_getD {α : Type} (written : Option (Except Failure Unit)) (a : α) :
    failureOf ((written.getD (.ok ())).map fun _ => a) = failureIn written := by
  rcases written with _ | _ | _ <;> rfl

/-- Without one it tells what was found. -/
theorem toOption_map_getD {α : Type} {written : Option (Except Failure Unit)}
    (h : failureIn written = []) (a : α) :
    ((written.getD (.ok ())).map fun _ => a).toOption = some a := by
  rcases written with _ | f | _
  · rfl
  · cases h
  · rfl

end Steps

/-! ### The pass -/

/-- **A pass reports what failed in it.** Whatever the calls of a pass are answered that reads a
resource which bears the finalizer and is not being deleted: it attends to the components in their
order, it surveys the workloads, and it writes the conditions of the verdict exactly if those that
it has read say something else, whichever components failed. It concludes from the failures of these
steps, one for each step that failed and in this order, where the worker is skipped if its
configuration failed. There are none exactly if every component that is asked for was attended to
without one and the write of the status, if there was one, was accepted; then the next pass is a
resync if every workload was found healthy, and is due after the time for progress otherwise. -/
theorem pass_reports_failures {config : Config} {time : Time} {trigger : Metadata}
    {n : NodeFeatureDiscovery} {name ns : String} {t : List Exchange} {r : Except Failure Action}
    (h : (reconcile config time trigger).Ends (⟨.getResource name ns, .ok (some n)⟩ :: t) r)
    (hfin : n.hasFinalizer = true) (hdel : n.isDeleting = false) :
    ∃ parts ended reads verdict write written,
      t = Component.passOrder.flatMap parts ++ (reads ++ write) ∧
      Attendance n ns parts ended ∧
      Surveyed n.ns (HealthCheck.all n.spec.topologyUpdater) reads verdict ∧
      StatusWrite n name ns (verdict.conditions time) write written ∧
      Concludes r (partFailures ended ++ failureIn written)
        (.requeue (if verdict = .healthy then config.resync else config.progress)) ∧
      (failureIn (ended .workerConfig) ≠ [] → ended .worker = none) ∧
      (partFailures ended = [] ↔ ∀ c ∈ teardownComponents n.spec, ended c = some (.ok ())) ∧
      (verdict = .healthy ↔ ∀ check ∈ HealthCheck.all n.spec.topologyUpdater,
        ∃ o, check.lookUp n.ns (.ok (some o)) ∈ reads ∧ o.IsHealthy) := by
  have hpass := ends_convergePass_of_read h hfin hdel
  obtain ⟨parts, ended, report, status, rfl, hparts, hreport, rfl⟩ := ends_convergePass hpass
  obtain ⟨v, reads, write, written, rfl, hsurvey, hwrite, rfl⟩ := ends_reportStatus_iff.mp hreport
  refine ⟨parts, ended, reads, v, write, written, rfl, hparts, hsurvey, hwrite, ?_,
    hparts.worker_skipped, hparts.partFailures_eq_nil_iff,
    hsurvey.eq_healthy_iff (HealthCheck.nodup_all _)⟩
  rw [failureOf_map_getD]
  refine concludes_conclude fun hnone => ?_
  rw [toOption_map_getD (List.append_eq_nil_iff.mp hnone).2]
  simp

/-! ### A pass whose every step fails -/

/-- A resource without a uid, so that it cannot own anything. -/
def unidentified : NodeFeatureDiscovery where
  metadata := { name := some "nfd", ns := some "gpu",
                finalizers := some [NodeFeatureDiscovery.finalizer] }
  spec := { topologyUpdater := true }

/-- The survey of its workloads finds none for the worker. -/
def missingWorker : Exchange :=
  HealthCheck.lookUp "gpu" ⟨"NFDWorkerDaemonSet", .worker⟩ (.ok none)

/-- The conditions that say so cannot be written. -/
def lostWrite : Exchange :=
  ⟨.patchStatus "nfd" "gpu" (Condition.degraded "FailedGettingNFDWorkerDaemonSet"
    "DaemonSet gpu/nfd-worker not found" ⟨0, 0⟩), .error (.broken .brokenStream)⟩

/-- The failures of the components in their order, but for the worker, and that of the write. -/
def everyFailure : List Failure :=
  [Component.master, .workerConfig, .topologyUpdater, .collector].map (fun c => c.failure "gpu"
    (.ownerReference c.kind.text c.name "owner has no name or uid yet")) ++ [.broken .brokenStream]

/-- No component can be built, and still the status is to be written; all of this is reported. -/
theorem pass_reports_failures_unidentified :
    (reconcile {} ⟨0, 0⟩ unidentified.metadata).Ends
        [⟨.getResource "nfd" "gpu", .ok (some unidentified)⟩, missingWorker, lostWrite]
        (.error (.multiple everyFailure)) ∧
      unidentified.hasFinalizer = true ∧ unidentified.isDeleting = false ∧
      ∃ parts ended reads verdict write written,
        [missingWorker, lostWrite] = Component.passOrder.flatMap parts ++ (reads ++ write) ∧
        Attendance unidentified "gpu" parts ended ∧
        Surveyed "gpu" (HealthCheck.all true) reads verdict ∧
        StatusWrite unidentified "nfd" "gpu" (verdict.conditions ⟨0, 0⟩) write written ∧
        ∃ action, Concludes (.error (.multiple everyFailure))
          (partFailures ended ++ failureIn written) action := by
  have hends : (reconcile {} ⟨0, 0⟩ unidentified.metadata).Ends
      [⟨.getResource "nfd" "gpu", .ok (some unidentified)⟩, missingWorker, lostWrite]
      (.error (.multiple everyFailure)) := .call (.call (.call (.done _)))
  obtain ⟨parts, ended, reads, verdict, write, written, hsplit, hparts, hsurvey, hwrite, hreport,
    -⟩ := pass_reports_failures hends (by decide) rfl
  exact ⟨hends, by decide, rfl, parts, ended, reads, verdict, write, written, hsplit, hparts,
    hsurvey, hwrite, _, hreport⟩

end NodeFeatureOperator
