import NodeFeatureOperator.Proofs.Attendance
import NodeFeatureOperator.Proofs.Rollout

/-!
# Faults at one object

A store answers the calls of a pass, but the calls about the object under one key may fail, any of
them and for any reason, and then have no effect. What the pass does about a component that the key
is not the place of can be told from the store in which the pass began, as if nothing had failed.

## Main definitions

* `Store.Answers`, `Store.AnswersAll`: how calls are answered if those about one object may fail.
* `ManagedObject.unversioned`: an object apart from its version.
* `Component.due`: what a pass does about a component.

## Main results

* `Component.Attends.of_answersAll`: convergence of a component that the faults are not about.
* `Attendance.around`: what the other parts of a pass leave of a component's object.
* `due_of_reconcile`: what a pass does about such a component.
-/

namespace NodeFeatureOperator

open Component (found)

/-- The key of the object that a call looks up, creates, replaces or deletes. -/
def Call.subject? : Call → Option ObjectKey
  | .get kind name ns => some ⟨kind, ns, name⟩
  | call => call.target?

namespace Store

variable {key key' : ObjectKey} {s s' s'' : Store} {t t' : List Exchange}

/-- A call leaves the objects that it does not write. -/
theorem object?_respond_of_ne {call : Call} (h : call.target? ≠ some key) :
    (s.respond call).2.object? key = s.object? key := by
  have hne : ∀ k, call.target? = some k → key ≠ k := by
    rintro _ htarget rfl
    exact h htarget
  cases call with
  | getResource name ns => rfl
  | updateResource n => exact object?_updateResource n s key
  | patchStatus name ns conditions => exact object?_patchStatus _ conditions s key
  | get kind name ns => rfl
  | create o =>
      simp only [respond, create]
      split
      · rfl
      · exact object?_putObject_of_ne o s (hne _ rfl)
  | update o =>
      simp only [respond, update]
      split
      · rfl
      · split
        · exact object?_putObject_of_ne o s (hne _ rfl)
        · rfl
  | delete kind name ns => exact object?_dropObject_of_ne s (hne _ rfl)

/-! ### Answers with faults -/

/-- How a call is answered, and what is stored afterwards, if calls about the object under a key may
fail without having taken effect. -/
inductive Answers (key : ObjectKey) (s : Store) :
    (call : Call) → Except Failure call.Answer → Store → Prop
  | served (call : Call) : Answers key s call (s.respond call).1 (s.respond call).2
  | failed (call : Call) (f : Failure) : call.subject? = some key → Answers key s call (.error f) s

/-- How the calls of a trace are answered one after the other. -/
inductive AnswersAll (key : ObjectKey) : Store → List Exchange → Store → Prop
  | nil (s : Store) : AnswersAll key s [] s
  | cons {s s' s'' : Store} {e : Exchange} {t : List Exchange} :
      s.Answers key e.call e.answer s' → AnswersAll key s' t s'' → AnswersAll key s (e :: t) s''

namespace Answers

variable {call : Call} {answer : Except Failure call.Answer}

/-- The call took effect, or it did not. -/
theorem after (h : s.Answers key call answer s') : s' = s ∨ s' = (s.respond call).2 := by
  cases h with
  | served => exact .inr rfl
  | failed => exact .inl rfl

/-- A call about another object is served. -/
theorem of_ne (h : s.Answers key call answer s') (hne : call.subject? ≠ some key) :
    answer = (s.respond call).1 ∧ s' = (s.respond call).2 := by
  cases h with
  | served => exact ⟨rfl, rfl⟩
  | failed f hkey => exact absurd hkey hne

/-- A look-up that is answered shows what is stored. -/
theorem object?_of_get {kind : ResourceKind} {name ns : String} {o : Option ManagedObject}
    (h : s.Answers key (.get kind name ns) (.ok o) s') : s.object? ⟨kind, ns, name⟩ = o := by
  cases h
  rfl

/-- Every call leaves objects under keys of their names. -/
theorem named (h : s.Answers key call answer s') (hs : s.Named) : s'.Named := by
  obtain rfl | rfl := h.after
  · exact hs
  · exact hs.respond call

/-- A call leaves the objects that it does not write. -/
theorem object?_eq (h : s.Answers key call answer s') (hne : call.target? ≠ some key') :
    s'.object? key' = s.object? key' := by
  obtain rfl | rfl := h.after
  · rfl
  · exact object?_respond_of_ne hne

end Answers

namespace AnswersAll

/-- Traces that are answered together are answered one after the other. -/
theorem split (h : s.AnswersAll key (t ++ t') s'') :
    ∃ s', s.AnswersAll key t s' ∧ s'.AnswersAll key t' s'' := by
  induction t generalizing s with
  | nil => exact ⟨s, .nil s, h⟩
  | cons e t ih =>
      cases h with
      | cons hanswers hrest =>
          obtain ⟨s', ht, ht'⟩ := ih hrest
          exact ⟨s', .cons hanswers ht, ht'⟩

/-- Calls leave objects under keys of their names. -/
theorem named (h : s.AnswersAll key t s') (hs : s.Named) : s'.Named := by
  induction h with
  | nil => exact hs
  | cons hanswers _ ih => exact ih (hanswers.named hs)

/-- Calls leave an object that none of them writes. -/
theorem object?_eq (h : s.AnswersAll key t s') (ht : ∀ e ∈ t, e.call.target? ≠ some key') :
    s'.object? key' = s.object? key' := by
  induction h with
  | nil => rfl
  | cons hanswers _ ih =>
      have hrest := ih fun e he => ht e (List.mem_cons_of_mem _ he)
      exact hrest.trans (hanswers.object?_eq (ht _ List.mem_cons_self))

/-- An object that is found at a component's place has the names of the place. -/
theorem names_of_found {c : Component} {ns : String} {o : ManagedObject}
    (h : s.AnswersAll key t s') (hs : s.Named) (hfound : found ns c (some o) ∈ t) :
    (c.place ns).Names o := by
  obtain ⟨t₁, t₂, rfl⟩ := List.append_of_mem hfound
  obtain ⟨s₁, h₁, h₂⟩ := h.split
  cases h₂ with
  | cons hanswers _ =>
      have hread : s₁.object? (c.place ns) = some o := hanswers.object?_of_get
      exact h₁.named hs _ _ hread

/-- A single call about another object is served. -/
theorem of_singleton {call : Call} {answer : Except Failure call.Answer}
    (h : s.AnswersAll key [⟨call, answer⟩] s') (hne : call.subject? ≠ some key) :
    s.respond call = (answer, s') := by
  cases h with
  | cons hanswers hrest =>
      cases hrest
      obtain ⟨hanswer, hstore⟩ := hanswers.of_ne hne
      exact (Prod.ext hanswer hstore).symm

/-- What is found at a place that the faults are not about is what lies there. -/
theorem of_found {c : Component} {ns : String} {live? : Option ManagedObject}
    (h : s.AnswersAll key (found ns c live? :: t) s') (hne : c.place ns ≠ key) :
    s.object? (c.place ns) = live? ∧ s.AnswersAll key t s' := by
  cases h with
  | cons hanswers hrest =>
      have hread : s.object? (c.place ns) = live? := hanswers.object?_of_get
      obtain ⟨-, rfl⟩ := hanswers.of_ne fun heq => hne (Option.some.inj heq)
      exact ⟨hread, hrest⟩

end AnswersAll

/-- What is answered call by call is answered in a run. -/
theorem answersAll_exchanges {α σ : Type} {respond : Program.Responder σ} {view : σ → Store}
    (h : ∀ call st, (view st).Answers key call (respond call st).1 (view (respond call st).2))
    (p : Program α) (st : σ) (time : Duration) :
    (view st).AnswersAll key (p.exchanges respond st time)
      (view (p.run respond st time).2.1) := by
  induction p generalizing st time with
  | done a => exact .nil _
  | call c next ih => exact .cons (h c st) (ih _ _ time)
  | sleep length next ih => exact ih st (time + length)
  | clock next ih => exact ih time st time

end Store

/-! ### Objects apart from their versions -/

/-- An object apart from its version. -/
def ManagedObject.unversioned (o : ManagedObject) : ManagedObject :=
  { o with metadata := { o.metadata with resourceVersion := none } }

/-- An object that was given a version is the same apart from that. -/
@[simp] theorem ManagedObject.unversioned_withVersion (version : String) (o : ManagedObject) :
    (o.withVersion version).unversioned = o.unversioned := rfl

/-- An object apart from its version has the content of the object. -/
@[simp] theorem ManagedObject.content_unversioned (o : ManagedObject) :
    o.unversioned.content = o.content := rfl

/-- The object that an amendment of what was found leaves. -/
def Amendment.result (a : Amendment) (live? : Option ManagedObject) : Option ManagedObject :=
  match a.written? with
  | none => live?
  | some o => some o

/-- The object that an amendment leaves in a store, apart from its version. -/
theorem Amendment.unversioned_apply (a : Amendment) (key : ObjectKey) (s : Store) :
    ((a.apply key s).object? key).map ManagedObject.unversioned =
      (a.result (s.object? key)).map ManagedObject.unversioned := by
  cases a with
  | leave => rfl
  | create o => simp [apply, result, written?]
  | update o => simp [apply, result, written?]

/-! ### One component -/

namespace Component

variable {c : Component} {n : NodeFeatureDiscovery} {ns : String} {key : ObjectKey}
  {s s' : Store} {t : List Exchange} {r : Except Failure Unit}

/-- Nothing is done where it cannot be told what to do. -/
theorem change_of_error {live? : Option ManagedObject} {f : Failure}
    (h : c.amendment n ns live? = .error f) : c.change n ns live? = .leave := by
  rw [change, h]

/-- Convergence of a component that the faults are not about does what is to be done about the
object that lies at its place, and ends well if that can be told. -/
theorem Attends.of_answersAll (h : c.Attends n ns t r) (hs : s.Named) (hne : c.place ns ≠ key)
    (ht : s.AnswersAll key t s') :
    writesAt (c.place ns) t = (c.change n ns (s.object? (c.place ns))).writes ∧
      s' = (c.change n ns (s.object? (c.place ns))).apply (c.place ns) s ∧
      (r = .ok () ↔ ∃ a, c.amendment n ns (s.object? (c.place ns)) = .ok a) := by
  obtain ⟨outcome, h, rfl⟩ := h
  cases h with
  | @unbuilt f hdesired =>
      have herror : c.amendment n ns (s.object? (c.place ns)) = .error f := by
        rw [amendment, hdesired]
      cases ht
      rw [change_of_error herror]
      exact ⟨rfl, rfl, by simp [herror, Except.map]⟩
  | unread f hdesired =>
      have hread := ht.of_singleton fun heq => hne (Option.some.inj heq)
      cases (Prod.mk.inj hread).1
  | undecided hdesired herror =>
      obtain ⟨rfl, hrest⟩ := ht.of_found hne
      cases hrest
      rw [change_of_error herror]
      exact ⟨rfl, rfl, by simp [herror, Except.map]⟩
  | left hleft =>
      obtain ⟨rfl, hrest⟩ := ht.of_found hne
      cases hrest
      rw [change_of_ok hleft]
      exact ⟨rfl, rfl, by simp [hleft, Except.map]⟩
  | @created o answer hcreate =>
      obtain ⟨hlive, hrest⟩ := ht.of_found hne
      have hplace := key_of_amendment_create hcreate
      have hserved := hrest.of_singleton fun heq => hne (hplace.symm.trans (Option.some.inj heq))
      have hcreated := Store.create_of_absent (hplace.symm ▸ hlive)
      obtain ⟨rfl, rfl⟩ := Prod.mk.inj (hserved.symm.trans hcreated)
      rw [hlive, change_of_ok hcreate, hplace]
      refine ⟨?_, rfl, by simp [hcreate, Except.map, Except.mapError]⟩
      simp [writesAt, Amendment.writes, found, Call.target?, hplace]
  | @updated live o answer hupdate =>
      obtain ⟨hlive, hrest⟩ := ht.of_found hne
      obtain ⟨hplace, hversion⟩ := key_of_amendment_update (hs _ _ hlive) hupdate
      have hserved := hrest.of_singleton fun heq => hne (hplace.symm.trans (Option.some.inj heq))
      have hupdated := Store.update_of_current (hplace.symm ▸ hlive) hversion.symm
      obtain ⟨rfl, rfl⟩ := Prod.mk.inj (hserved.symm.trans hupdated)
      rw [hlive, change_of_ok hupdate, hplace]
      refine ⟨?_, rfl, by simp [hupdate, Except.map, Except.mapError]⟩
      simp [writesAt, Amendment.writes, found, Call.target?, hplace]

/-- What a pass does about a component: what is to be done about the object that lies at its place,
if the component is asked for, and if, in the case of the worker, it can be told what to do about
its configuration. -/
def due (c : Component) (n : NodeFeatureDiscovery) (ns : String) (s : Store) : Amendment :=
  if c ∈ teardownComponents n.spec ∧ (c = .worker →
      (Component.workerConfig.amendment n ns
        (s.object? (Component.workerConfig.place ns))).isOk = true) then
    c.change n ns (s.object? (c.place ns))
  else .leave

end Component

/-! ### All components -/

namespace Attendance

variable {n : NodeFeatureDiscovery} {ns : String} {key : ObjectKey} {s s' : Store}
  {parts : Component → List Exchange} {ended : Component → Option (Except Failure Unit)}

/-- The part about a component begins with the object that lay at its place before all parts, and
what lies there after all parts is what it leaves. -/
theorem around (h : Attendance n ns parts ended) (hs : s.Named)
    (ht : s.AnswersAll key (Component.passOrder.flatMap parts) s') {c : Component}
    (hc : c ∈ Component.passOrder) :
    ∃ s₁ s₂ : Store, s₁.Named ∧ s₁.AnswersAll key (parts c) s₂ ∧
      s₁.object? (c.place ns) = s.object? (c.place ns) ∧
      s'.object? (c.place ns) = s₂.object? (c.place ns) := by
  have htarget : ∀ d ∈ Component.passOrder, d ≠ c → ∀ e ∈ parts d,
      e.call.target? ≠ some (c.place ns) := by
    intro d hd hne
    refine h.target_ne hne fun o ho => ht.names_of_found hs ?_
    exact List.mem_flatMap.mpr ⟨d, hd, ho⟩
  have hnodup := Component.nodup_passOrder
  generalize Component.passOrder = cs at ht hc htarget hnodup
  obtain ⟨before, after, rfl⟩ := List.append_of_mem hc
  rw [List.flatMap_append, List.flatMap_cons] at ht
  obtain ⟨s₁, hbefore, ht⟩ := ht.split
  obtain ⟨s₂, hpart, hafter⟩ := ht.split
  rw [List.nodup_append, List.nodup_cons] at hnodup
  obtain ⟨-, ⟨hafterc, -⟩, hdisjoint⟩ := hnodup
  refine ⟨s₁, s₂, hbefore.named hs, hpart, hbefore.object?_eq ?_, hafter.object?_eq ?_⟩
  · intro e he
    obtain ⟨d, hd, he⟩ := List.mem_flatMap.mp he
    exact htarget d (List.mem_append_left _ hd) (hdisjoint d hd c List.mem_cons_self) e he
  · intro e he
    obtain ⟨d, hd, he⟩ := List.mem_flatMap.mp he
    have hne : d ≠ c := by
      rintro rfl
      exact hafterc hd
    exact htarget d (List.mem_append_right _ (List.mem_cons_of_mem c hd)) hne e he

/-- A component that the faults are not about is attended to without a failure exactly if it can be
told what to do about the object that lay at its place. -/
theorem ended_ok_iff (h : Attendance n ns parts ended) (hs : s.Named)
    (ht : s.AnswersAll key (Component.passOrder.flatMap parts) s') {c : Component}
    (hne : c.place ns ≠ key) {r : Except Failure Unit} (hr : ended c = some r) :
    r = .ok () ↔ (c.amendment n ns (s.object? (c.place ns))).isOk = true := by
  obtain ⟨-, hskipped, -⟩ | ⟨r', hdue, hended, hattends⟩ := (h c).skipped_or_attended
  · rw [hr] at hskipped
    cases hskipped
  obtain rfl := Option.some.inj (hr.symm.trans hended)
  have hc := Component.mem_passOrder.mpr (mem_teardownComponents.mp hdue.1).1
  obtain ⟨s₁, s₂, hs₁, hpart, hsame, -⟩ := h.around hs ht hc
  obtain ⟨-, -, hok⟩ := hattends.of_answersAll hs₁ hne hpart
  rw [hok, hsame]
  cases c.amendment n ns (s.object? (c.place ns)) <;> simp [Except.isOk, Except.toBool]

/-- If none of the parts ended with a failure, then it could be told what to do about every
component that is asked for and that the faults are not about. -/
theorem isOk_amendment (h : Attendance n ns parts ended) (hs : s.Named)
    (ht : s.AnswersAll key (Component.passOrder.flatMap parts) s')
    (hok : partFailures ended = []) {c : Component}
    (hc : c ∈ teardownComponents n.spec) (hne : c.place ns ≠ key) :
    (c.amendment n ns (s.object? (c.place ns))).isOk = true :=
  (h.ended_ok_iff hs ht hne (h.ended_ok hok hc)).mp rfl

/-- The parts leave the object at the place of a component that has none. -/
theorem object?_eq (h : Attendance n ns parts ended) (hs : s.Named)
    (ht : s.AnswersAll key (Component.passOrder.flatMap parts) s') {c : Component}
    (hc : parts c = []) : s'.object? (c.place ns) = s.object? (c.place ns) := by
  refine ht.object?_eq fun e he => ?_
  obtain ⟨d, hd, he'⟩ := List.mem_flatMap.mp he
  by_cases hne : d = c
  · subst hne
    rw [hc] at he'
    cases he'
  · refine h.target_ne hne (fun o ho => ht.names_of_found hs ?_) e he'
    exact List.mem_flatMap.mpr ⟨d, hd, ho⟩

/-- What the parts do about a component that the faults are not about, nor about what it is due to,
can be told from the store before all parts. -/
theorem due (h : Attendance n ns parts ended) (hs : s.Named)
    (ht : s.AnswersAll key (Component.passOrder.flatMap parts) s') {c : Component}
    (hne : c.place ns ≠ key)
    (hworker : c = .worker → Component.workerConfig.place ns ≠ key) :
    writesAt (c.place ns) (Component.passOrder.flatMap parts) = (c.due n ns s).writes ∧
      (s'.object? (c.place ns)).map ManagedObject.unversioned =
        ((c.due n ns s).result (s.object? (c.place ns))).map ManagedObject.unversioned := by
  have hdue : (c ∈ teardownComponents n.spec ∧
        (c = .worker → ended .workerConfig = some (.ok ()))) ↔
      (c ∈ teardownComponents n.spec ∧ (c = .worker →
        (Component.workerConfig.amendment n ns
          (s.object? (Component.workerConfig.place ns))).isOk = true)) := by
    refine and_congr_right fun _ => forall_congr' fun hc => ?_
    obtain ⟨-, -, hskip⟩ | ⟨r, -, hended, -⟩ := (h .workerConfig).skipped_or_attended
    · exact absurd ⟨mem_teardownComponents.mpr ⟨by decide, by simp⟩, by simp⟩ hskip
    · rw [hended, Option.some.injEq, h.ended_ok_iff hs ht (hworker hc) hended]
  have hwrites := h.writesAt_eq (fun d o ho => ht.names_of_found hs ho) c
  obtain ⟨hnil, -, hskip⟩ | ⟨r, hreached, -, hattends⟩ := (h c).skipped_or_attended
  · rw [Component.due, if_neg fun hdue' => hskip (hdue.mpr hdue'), hwrites, hnil]
    exact ⟨rfl, congrArg _ (h.object?_eq hs ht hnil)⟩
  · have hc := Component.mem_passOrder.mpr (mem_teardownComponents.mp hreached.1).1
    obtain ⟨s₁, s₂, hs₁, hpart, hbefore, hafter⟩ := h.around hs ht hc
    obtain ⟨hpartWrites, rfl, -⟩ := hattends.of_answersAll hs₁ hne hpart
    rw [Component.due, if_pos (hdue.mp hreached), hwrites, hpartWrites, hbefore]
    refine ⟨rfl, ?_⟩
    rw [hafter, Amendment.unversioned_apply, hbefore]

end Attendance

section Passes

variable {config : Config} {time : Time} {trigger : Metadata} {n : NodeFeatureDiscovery}
  {ns : String} {key : ObjectKey} {s s' : Store} {t : List Exchange} {r : Except Failure Action}

/-- A pass reads the resource that is stored, and converges one that bears the finalizer and is not
being deleted. -/
theorem exists_convergePass_of_ends (h : (reconcile config time trigger).Ends t r)
    (ht : s.AnswersAll key t s') (hns : trigger.ns = some ns)
    (hn : s.resource? ⟨ns, trigger.anyName⟩ = some n) (hfin : n.hasFinalizer = true)
    (hdel : n.isDeleting = false) :
    ∃ rest, t = ⟨.getResource trigger.anyName ns, .ok (some n)⟩ :: rest ∧
      (convergePass config time n trigger.anyName ns).Ends rest r ∧ s.AnswersAll key rest s' := by
  obtain ⟨hnone, -⟩ | ⟨ns', answer, rest, hns', rfl, hrest⟩ := ends_reconcile h
  · rw [hns] at hnone
    cases hnone
  obtain rfl := Option.some.inj (hns.symm.trans hns')
  cases ht with
  | cons hanswers ht =>
      obtain ⟨hread, rfl⟩ := hanswers.of_ne fun heq => by cases heq
      have hread : answer = .ok (some n) := hread.trans (congrArg Except.ok hn)
      obtain ⟨-, hnone⟩ | ⟨n', hn', hpass⟩ := hrest
      · exact absurd hread (hnone n)
      obtain rfl : n = n' := by simpa [hread] using hn'
      rw [passOver_eq_convergePass config time hdel hfin] at hpass
      exact ⟨rest, by rw [hread], hpass, ht⟩

/-- A pass does about a component that the faults are not about, nor about the configuration in the
case of the worker, what is due in the store in which the pass begins. -/
theorem due_of_reconcile {c : Component} (h : (reconcile config time trigger).Ends t r)
    (hs : s.Named) (ht : s.AnswersAll key t s') (hns : trigger.ns = some ns)
    (hn : s.resource? ⟨ns, trigger.anyName⟩ = some n) (hfin : n.hasFinalizer = true)
    (hdel : n.isDeleting = false) (hne : c.place ns ≠ key)
    (hworker : c = .worker → Component.workerConfig.place ns ≠ key) :
    writesAt (c.place ns) t = (c.due n ns s).writes ∧
      (s'.object? (c.place ns)).map ManagedObject.unversioned =
        ((c.due n ns s).result (s.object? (c.place ns))).map ManagedObject.unversioned := by
  obtain ⟨rest, rfl, hpass, ht⟩ := exists_convergePass_of_ends h ht hns hn hfin hdel
  obtain ⟨parts, ended, report, status, rfl, hparts, hreport, -⟩ := ends_convergePass hpass
  obtain ⟨s₁, hanswered, hreported⟩ := ht.split
  have hcalls : ∀ e ∈ report, e.call.target? = none := fun e he =>
    ((only_reportStatus time n trigger.anyName ns).of_ends hreport e he).target?_eq_none
  obtain ⟨hwrites, hafter⟩ := hparts.due hs hanswered hne hworker
  have hquiet : s'.object? (c.place ns) = s₁.object? (c.place ns) :=
    hreported.object?_eq fun e he => by simp [hcalls e he]
  refine ⟨?_, (congrArg _ hquiet).trans hafter⟩
  change writesAt (c.place ns) ([_] ++ (Component.passOrder.flatMap parts ++ report)) = _
  rw [writesAt_append, writesAt_append, writesAt_eq_nil hcalls, hwrites, List.append_nil,
    writesAt_eq_nil (t := [_]) (by simp [Call.target?]), List.nil_append]

end Passes

end NodeFeatureOperator
