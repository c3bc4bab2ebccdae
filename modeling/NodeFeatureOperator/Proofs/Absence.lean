import NodeFeatureOperator.Client.Exchange
import NodeFeatureOperator.Proofs.Pass

/-!
# What says that an object is not there

An error response says twice what it is about, by a reason and by a code. A look-up takes it for the
absence of the object by the reason, a deletion by the code, and so does the classification of
failures. They agree as long as reason and code do. They do not for a response whose document does
not read, as that of a proxy: it is given a reason of its own, but keeps the code, so that with the
code 404 a deletion succeeds of what a look-up cannot tell whether it is there.

For a teardown this matters, since it deletes every component and then looks for what is left. What
it can be told is looked at here for a service that gives the same answer throughout.

## Main definitions

* `Http.Response.Agreed`: look-up, deletion and classification agree on a response.
* `Exchange.AnsweredBy`: a call is answered by way of a response.

## Main results

* `Call.interpret_get_eq_none_iff`, `Call.interpret_delete_eq_ok_iff`: what each of them goes by.
* `absence_agreed_iff`: when they agree.
* `tornDown_answeredBy_iff`, `ends_finalize_of_code`: what becomes of a teardown.
-/

namespace NodeFeatureOperator

open Component (deleted found)

variable {r : Http.Response}

/-! ### Error responses -/

/-- An error response is decoded to its refusal, whatever is asked for. -/
theorem Http.Response.decoded_of_isError {α : Type} (h : r.isError = true)
    (read : String → Option α) (objection? : String → Option Json.Objection) :
    r.decoded read objection? = .error (.refused r.refusal) := if_pos h

/-- The failure that an error response gives to a call which does not put up with absence. -/
theorem Call.interpret_of_isError (h : r.isError = true) (call : Call)
    (hverb : call.verb = .create ∨ call.verb = .update ∨ call.verb = .updateResource ∨
      call.verb = .patchStatus) : call.interpret r = .error (.refused r.refusal) := by
  cases call with
  | updateResource m =>
      rw [interpret, Http.Response.resource]
      exact Http.Response.decoded_of_isError h _ _
  | patchStatus | create | update =>
      simp only [interpret, Http.Response.resource, Http.Response.object,
        Http.Response.decoded_of_isError h]
      rfl
  | getResource | get | delete => simp [verb] at hverb

/-- A look-up takes an error response for the absence of the object by its reason, and reports it
otherwise. -/
theorem Call.interpret_get (h : r.isError = true) (kind : ResourceKind) (name ns : String) :
    (Call.get kind name ns).interpret r =
      if r.refusal.reason = Refusal.notFoundReason then .ok none
      else .error (.refused r.refusal) := by
  rw [interpret, Http.Response.object, Http.Response.decoded_of_isError h, found]

/-- So does a read of the resource. -/
theorem Call.interpret_getResource (h : r.isError = true) (name ns : String) :
    (Call.getResource name ns).interpret r =
      if r.refusal.reason = Refusal.notFoundReason then .ok none
      else .error (.refused r.refusal) := by
  rw [interpret, Http.Response.resource, Http.Response.decoded_of_isError h, found]

/-- A deletion takes it for that by its code. -/
theorem Call.interpret_delete (h : r.isError = true) (kind : ResourceKind) (name ns : String) :
    (Call.delete kind name ns).interpret r =
      if r.refusal.code = 404 then .ok () else .error (.refused r.refusal) := by
  rw [interpret, Http.Response.deleted, Http.Response.decoded_of_isError h]

/-- Where the document of an error response does not read, the reason is not that of an absence, and
the code is that of the response. -/
theorem Http.Response.refusal_of_unread (hunread : Refusal.ofText? r.body = none) :
    r.refusal.reason ≠ Refusal.notFoundReason ∧ r.refusal.code = r.code := by
  have hother : "Failed to parse error data" ≠ Refusal.notFoundReason := by decide
  rw [refusal, hunread]
  exact ⟨hother, rfl⟩

/-! ### Agreement -/

/-- A look-up reports an object as absent on a response exactly if a deletion of it succeeds on the
same, and exactly if the failure that the response makes is classified so. -/
structure Http.Response.Agreed (kind : ResourceKind) (name ns : String) (r : Http.Response) :
    Prop where
  deletion : (Call.get kind name ns).interpret r = .ok none ↔
    (Call.delete kind name ns).interpret r = .ok ()
  failure : (Call.get kind name ns).interpret r = .ok none ↔
    (Failure.refused r.refusal).isNotFound = true

section Agreement

variable {kind : ResourceKind} {name ns : String}

/-- A look-up goes by the reason. -/
theorem Call.interpret_get_eq_none_iff (h : r.isError = true) :
    (Call.get kind name ns).interpret r = .ok none ↔
      r.refusal.reason = Refusal.notFoundReason := by
  rw [interpret_get h]
  split <;> simp [*]

/-- A deletion goes by the code. -/
theorem Call.interpret_delete_eq_ok_iff (h : r.isError = true) :
    (Call.delete kind name ns).interpret r = .ok () ↔ r.refusal.code = 404 := by
  rw [interpret_delete h]
  split <;> simp [*]

/-- The classification of failures goes by the code, too. -/
theorem Failure.isNotFound_refused_iff {refusal : Refusal} :
    (Failure.refused refusal).isNotFound = true ↔ refusal.code = 404 := beq_iff_eq

/-- **When all agree on what is not there.** For every error response, a deletion succeeds on it
exactly if the failure that it makes is classified as an absence, and that failure is what every
call reports that writes. A look-up, of an object or of a resource, agrees with them exactly if
reason and code do: both say that there is nothing, or neither. On a response whose document does
not read, it agrees exactly if the code is not 404. -/
theorem absence_agreed_iff (h : r.isError = true) (kind : ResourceKind) (name ns : String) :
    (∀ call : Call, call.verb = .create ∨ call.verb = .update ∨ call.verb = .updateResource ∨
      call.verb = .patchStatus → call.interpret r = .error (.refused r.refusal)) ∧
    ((Call.delete kind name ns).interpret r = .ok () ↔
      (Failure.refused r.refusal).isNotFound = true) ∧
    ((Call.getResource name ns).interpret r = .ok none ↔
      (Call.get kind name ns).interpret r = .ok none) ∧
    (r.Agreed kind name ns ↔
      (r.refusal.reason = Refusal.notFoundReason ↔ r.refusal.code = 404)) ∧
    (Refusal.ofText? r.body = none → (r.Agreed kind name ns ↔ r.code ≠ 404)) := by
  have hagreed : r.Agreed kind name ns ↔
      (r.refusal.reason = Refusal.notFoundReason ↔ r.refusal.code = 404) := by
    constructor
    · intro hagreed
      rw [← Call.interpret_get_eq_none_iff h, hagreed.deletion, Call.interpret_delete_eq_ok_iff h]
    · intro hsame
      refine ⟨?_, ?_⟩
      · rw [Call.interpret_get_eq_none_iff h, hsame, Call.interpret_delete_eq_ok_iff h]
      · rw [Call.interpret_get_eq_none_iff h, hsame, Failure.isNotFound_refused_iff]
  refine ⟨Call.interpret_of_isError h, ?_, ?_, hagreed, fun hunread => ?_⟩
  · rw [Call.interpret_delete_eq_ok_iff h, Failure.isNotFound_refused_iff]
  · rw [Call.interpret_get_eq_none_iff h, Call.interpret_getResource h]
    split <;> simp [*]
  · obtain ⟨hreason, hcode⟩ := Http.Response.refusal_of_unread hunread
    rw [hagreed, hcode]
    exact ⟨fun hsame hnotFound => hreason (hsame.mpr hnotFound),
      fun hcode => ⟨fun hnotFound => absurd hnotFound hreason, fun h404 => absurd h404 hcode⟩⟩

end Agreement

/-! ### A page that is not there -/

/-- The answer of a proxy that knows no such route. -/
def noRoute : Http.Response := ⟨404, "404 page not found"⟩

/-- It is an error, and no document. -/
theorem unread_noRoute : noRoute.isError = true ∧ Refusal.ofText? noRoute.body = none := by decide

/-- On this answer nothing is agreed. -/
theorem absence_agreed_iff_noRoute :
    noRoute.isError = true ∧ Refusal.ofText? noRoute.body = none ∧
      ((Call.delete .daemonSet "nfd-worker" "gpu").interpret noRoute = .ok () ↔
        (Failure.refused noRoute.refusal).isNotFound = true) ∧
      ¬ noRoute.Agreed .daemonSet "nfd-worker" "gpu" := by
  obtain ⟨-, hdelete, -, -, hunread⟩ :=
    absence_agreed_iff unread_noRoute.1 .daemonSet "nfd-worker" "gpu"
  exact ⟨unread_noRoute.1, unread_noRoute.2, hdelete,
    fun hagreed => (hunread unread_noRoute.2).mp hagreed rfl⟩

/-- The deletion of a DaemonSet succeeds on it, and its failure is classified as an absence, but the
look-up of the same DaemonSet fails. -/
theorem deleted_yet_not_absent :
    noRoute.isError = true ∧
      (Call.delete .daemonSet "nfd-worker" "gpu").interpret noRoute = .ok () ∧
      (Failure.refused noRoute.refusal).isNotFound = true ∧
      (Call.get .daemonSet "nfd-worker" "gpu").interpret noRoute =
        .error (.refused noRoute.refusal) := by
  obtain ⟨herror, hunread⟩ := unread_noRoute
  obtain ⟨hreason, hcode⟩ := Http.Response.refusal_of_unread hunread
  refine ⟨herror, (Call.interpret_delete_eq_ok_iff herror).mpr hcode,
    Failure.isNotFound_refused_iff.mpr hcode, ?_⟩
  rw [Call.interpret_get herror, if_neg hreason]

/-! ### Teardowns -/

/-- The call was answered by way of a response. -/
def Exchange.AnsweredBy (r : Http.Response) (e : Exchange) : Prop :=
  e.answer = e.call.interpret r

section Teardown

variable {spec : Spec} {n : NodeFeatureDiscovery} {ns : String}

/-- The worker is torn down first. -/
theorem exists_teardownComponents (spec : Spec) :
    ∃ rest, teardownComponents spec = .worker :: rest := ⟨_, rfl⟩

/-- A service that answers everything with the same error response lets a teardown get past its
components exactly if both the reason and the code are those of an absence. -/
theorem tornDown_answeredBy_iff (h : r.isError = true) :
    (∀ e ∈ TornDown spec ns, e.AnsweredBy r) ↔
      r.refusal.reason = Refusal.notFoundReason ∧ r.refusal.code = 404 := by
  have hdeleted : ∀ c : Component, (deleted ns c).AnsweredBy r ↔ r.refusal.code = 404 := fun c =>
    eq_comm.trans (Call.interpret_delete_eq_ok_iff h)
  have hfound : ∀ c : Component, (found ns c none).AnsweredBy r ↔
      r.refusal.reason = Refusal.notFoundReason := fun c =>
    eq_comm.trans (Call.interpret_get_eq_none_iff h)
  obtain ⟨rest, hrest⟩ := exists_teardownComponents spec
  constructor
  · intro hall
    have hworker : .worker ∈ teardownComponents spec := hrest ▸ List.mem_cons_self
    refine ⟨(hfound .worker).mp (hall _ ?_), (hdeleted .worker).mp (hall _ ?_)⟩
    · exact List.mem_append_right _ (List.mem_map_of_mem hworker)
    · exact List.mem_append_left _ (List.mem_map_of_mem hworker)
  · rintro ⟨hreason, hcode⟩ e he
    obtain he | he := List.mem_append.mp he
    · obtain ⟨c, -, rfl⟩ := List.mem_map.mp he
      exact (hdeleted c).mpr hcode
    · obtain ⟨c, -, rfl⟩ := List.mem_map.mp he
      exact (hfound c).mpr hreason

/-- If only the code is that of an absence, then a teardown is told that every component is deleted,
and fails at the first look-up. -/
theorem ends_finalize_of_code (config : Config) (h : r.isError = true)
    (hcode : r.refusal.code = 404) (hreason : r.refusal.reason ≠ Refusal.notFoundReason)
    (hfin : n.hasFinalizer = true) :
    ∃ t, (finalize config n ns).Ends t
        (.error (Component.worker.failure ns (.refused r.refusal))) ∧
      (∀ e ∈ t, e.AnsweredBy r) ∧ ∀ c ∈ teardownComponents n.spec, deleted ns c ∈ t := by
  obtain ⟨rest, hrest⟩ := exists_teardownComponents n.spec
  let lookUp : Exchange :=
    ⟨.get Component.worker.kind Component.worker.name ns, .error (.refused r.refusal)⟩
  refine ⟨(teardownComponents n.spec).map (deleted ns) ++ [lookUp], ?_, fun e he => ?_,
    fun c hc => List.mem_append_left _ (List.mem_map_of_mem hc)⟩
  · rw [finalize, if_pos hfin]
    refine Program.ends_bind_iff.mpr ⟨.ok (), _, [lookUp], rfl,
      ends_deleteComponents_iff.mpr rfl, ?_⟩
    have hremaining : (remainingComponents n ns).Ends [lookUp]
        (.error (Component.worker.failure ns (.refused r.refusal))) := by
      rw [remainingComponents, hrest]
      exact .call (.done _)
    exact Program.ends_bind_iff.mpr ⟨_, [lookUp], [], rfl, hremaining, .done _⟩
  · obtain he | he := List.mem_append.mp he
    · obtain ⟨c, -, rfl⟩ := List.mem_map.mp he
      exact ((Call.interpret_delete_eq_ok_iff h).mpr hcode).symm
    · obtain rfl := List.mem_singleton.mp he
      exact ((Call.interpret_get h _ _ _).trans (if_neg hreason)).symm

end Teardown

end NodeFeatureOperator
