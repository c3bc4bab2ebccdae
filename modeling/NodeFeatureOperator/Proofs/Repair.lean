import NodeFeatureOperator.Proofs.Controller
import NodeFeatureOperator.Proofs.Faults

/-!
# What convergence repairs

A component is ensured on its own, or by a pass that converges, and either way the object that lies
at its place afterwards can be told from the one before. A live object that is recognised is left as
it is, so that an edit of it stays exactly if it does not keep the object from being recognised.
Every other object has the component's part of its content filled in anew.

That says when an edit is repaired, once it is known which edits are let pass.

## Main definitions

* `Component.Recognises`: a live object passes for the desired one.
* `Component.Claimable`: no other owner is in the way of a component.
* `Component.Ensured`: a component was ensured without a failure.

## Main results

* `Component.exists_ensured_iff`: when a component is ensured without a failure.
* `Component.Ensured.exists_object`: the object that is stored then.
-/

namespace NodeFeatureOperator

namespace Component

variable {c : Component} {n : NodeFeatureDiscovery} {ns : String} {s s' : Store}

/-- A live object passes for the desired one: it bears its digest, and it carries its content. -/
def Recognises (c : Component) (n : NodeFeatureDiscovery) (ns : String) (live : ManagedObject) :
    Prop :=
  ∃ desired, c.desired n ns = .ok desired ∧ live.recordedHash = some desired.contentHash ∧
    live.carries desired = true

/-- The resource is identified, and no other owner controls the component's object. -/
def Claimable (c : Component) (n : NodeFeatureDiscovery) (ns : String) (s : Store) : Prop :=
  ∃ ref, n.ownerReference? = some ref ∧ ∀ live, s.object? (c.place ns) = some live →
    live.metadata.foreignController? ref.uid = none

/-! ### Decisions about a live object -/

/-- An object that is recognised is left. -/
theorem amendment_of_recognises {live : ManagedObject} (h : c.Recognises n ns live) :
    c.amendment n ns (some live) = .ok .leave := by
  obtain ⟨desired, hdesired, hfresh⟩ := h
  rw [amendment, hdesired]
  exact if_pos hfresh

/-- It can be told what to do about a component exactly if no other owner is in the way. -/
theorem exists_amendment_iff (hs : s.Coherent) :
    (∃ a, c.amendment n ns (s.object? (c.place ns)) = .ok a) ↔ c.Claimable n ns s := by
  constructor
  · rintro ⟨a, ha⟩
    obtain ⟨desired, hdesired, hcases⟩ := amendment_cases ha
    obtain ⟨content, ref, -, href, -, rfl⟩ := built_eq_ok_iff.mp hdesired
    refine ⟨ref, href, fun live hlive => ?_⟩
    obtain ⟨hnone, -⟩ | ⟨live', hlive', hcases⟩ := hcases
    · rw [hlive] at hnone
      cases hnone
    obtain rfl := Option.some.inj (hlive.symm.trans hlive')
    obtain ⟨-, -, hcarries⟩ | ⟨built, hbuilt, -⟩ := hcases
    · exact ManagedObject.foreignController?_of_carries rfl hcarries
    · obtain ⟨_, ref', -, href', hfree, -⟩ := built_eq_ok_iff.mp hbuilt
      obtain rfl := Option.some.inj (href.symm.trans href')
      exact hfree
  · rintro ⟨ref, href, hfree⟩
    obtain ⟨desired, hdesired⟩ := exists_desired href c ns
    cases hlive : s.object? (c.place ns) with
    | none => exact ⟨_, amendment_none hdesired⟩
    | some live =>
        have hkind : live.content.kind = c.kind := (ObjectKey.mk.inj (hs _ _ hlive)).1
        obtain ⟨content, hfill⟩ := exists_fill hkind n.spec
        have hbuilt := built_eq_ok_iff.mpr ⟨content, ref, hfill, href, hfree live hlive, rfl⟩
        rw [amendment, hdesired]
        dsimp only
        rw [hbuilt]
        split
        · exact ⟨_, rfl⟩
        · dsimp only
          split <;> exact ⟨_, rfl⟩

/-! ### Components that were ensured -/

/-- A component was ensured without a failure between two stores, on its own, or in a pass over a
resource that asks for it, bears the finalizer and is not being deleted. -/
inductive Ensured (c : Component) (n : NodeFeatureDiscovery) (ns : String) (s s' : Store) : Prop
  | alone {outcome : Outcome} {t t' : Duration} :
      (c.converge n ns).run Store.respond s t = (.ok outcome, s', t') → Ensured c n ns s s'
  | inPass {config : Config} {time : Time} {trigger : Metadata} {action : Action}
      {t t' : Duration} :
      c ∈ teardownComponents n.spec → trigger.ns = some ns →
      s.resource? ⟨ns, trigger.anyName⟩ = some n → n.hasFinalizer = true → n.isDeleting = false →
      (reconcile config time trigger).run Store.respond s t = (.ok action, s', t') →
      Ensured c n ns s s'

/-- Convergence on a store does what was decided on, and fails only if nothing was. -/
theorem run_converge (hs : s.Coherent) (c : Component) (n : NodeFeatureDiscovery) (ns : String)
    (t : Duration) :
    (c.converge n ns).run Store.respond s t =
      (((c.amendment n ns (s.object? (c.place ns))).map Amendment.outcome).mapError (c.failure ns),
        (c.change n ns (s.object? (c.place ns))).apply (c.place ns) s, t) := by
  obtain ⟨_, -, hcore⟩ := performs_convergeCore c n ns hs
  have hconverge : (c.converge n ns).Performs s _ _ _ := hcore.bind (Program.performs_done _ _)
  exact (hconverge t).1

/-- A component is ensured on its own without a failure exactly if no other owner is in the way. -/
theorem exists_ensured_iff (hs : s.Coherent) (t : Duration) :
    (∃ outcome s', (c.converge n ns).run Store.respond s t = (.ok outcome, s', t)) ↔
      c.Claimable n ns s := by
  rw [← exists_amendment_iff hs, run_converge hs]
  cases c.amendment n ns (s.object? (c.place ns)) with
  | error f => simp [Except.map, Except.mapError]
  | ok a => simp [Except.map, Except.mapError]

/-- Convergence of a component that is recognised leaves the store. -/
theorem run_converge_of_recognises (hs : s.Coherent) {live : ManagedObject}
    (hlive : s.object? (c.place ns) = some live) (h : c.Recognises n ns live) (t : Duration) :
    (c.converge n ns).run Store.respond s t = (.ok .unchanged, s, t) := by
  have hleft : c.amendment n ns (s.object? (c.place ns)) = .ok .leave := by
    rw [hlive, amendment_of_recognises h]
  rw [run_converge hs, change_of_ok hleft, hleft]
  rfl

/-- A pass that succeeds could tell what to do about each component that is asked for, by the object
that lay at its place, and did that. -/
theorem amended_of_reconcile {config : Config} {time : Time} {trigger : Metadata} {action : Action}
    {t t' : Duration} (hs : s.Coherent) (hc : c ∈ teardownComponents n.spec)
    (hns : trigger.ns = some ns) (hn : s.resource? ⟨ns, trigger.anyName⟩ = some n)
    (hfin : n.hasFinalizer = true) (hdel : n.isDeleting = false)
    (hrun : (reconcile config time trigger).run Store.respond s t = (.ok action, s', t')) :
    ∃ a, c.amendment n ns (s.object? (c.place ns)) = .ok a ∧
      (s'.object? (c.place ns)).map ManagedObject.unversioned =
        (a.result (s.object? (c.place ns))).map ManagedObject.unversioned := by
  -- no call fails, so the faults may be taken to be about the prune Job, which a pass leaves alone
  have hprune : ∀ d ∈ teardownComponents n.spec, d.place ns ≠ Component.prune.place ns :=
    fun d hd heq => (mem_teardownComponents.mp hd).1 (place_injective heq).1
  have hconfig : .workerConfig ∈ teardownComponents n.spec :=
    mem_teardownComponents.mpr ⟨by decide, by simp⟩
  have hserves : ∀ (call : Call) (s : Store), s.Answers (Component.prune.place ns) call
      (s.respond call).1 (s.respond call).2 := fun call _ => .served call
  have hends := Program.ends_exchanges Store.respond (reconcile config time trigger) s t
  have hanswers := Store.answersAll_exchanges hserves (reconcile config time trigger) s t
  rw [hrun] at hends hanswers
  obtain ⟨-, hafter⟩ := due_of_reconcile hends hs.named hanswers hns hn hfin hdel (hprune c hc)
    fun _ => hprune .workerConfig hconfig
  obtain ⟨rest, -, hpass, hrest⟩ := exists_convergePass_of_ends hends hanswers hns hn hfin hdel
  obtain ⟨parts, ended, report, _, rfl, hparts, -, hr⟩ := ends_convergePass hpass
  have hok := (List.append_eq_nil_iff.mp (conclude_eq_ok_iff.mp hr.symm).1).1
  obtain ⟨_, hserved, -⟩ := hrest.split
  have hdecided : ∀ d ∈ teardownComponents n.spec,
      (d.amendment n ns (s.object? (d.place ns))).isOk = true := fun d hd =>
    hparts.isOk_amendment hs.named hserved hok hd (hprune d hd)
  have hdue : c.due n ns s = c.change n ns (s.object? (c.place ns)) :=
    if_pos ⟨hc, fun _ => hdecided .workerConfig hconfig⟩
  have hcdecided := hdecided c hc
  cases ha : c.amendment n ns (s.object? (c.place ns)) with
  | error f =>
      rw [ha] at hcdecided
      cases hcdecided
  | ok a =>
      rw [hdue, change_of_ok ha] at hafter
      exact ⟨a, rfl, hafter⟩

/-- Where a component is ensured without a failure, it could be told what to do about the object
that lay at its place, and that is done. -/
theorem Ensured.amended (h : c.Ensured n ns s s') (hs : s.Coherent) :
    ∃ a, c.amendment n ns (s.object? (c.place ns)) = .ok a ∧
      (s'.object? (c.place ns)).map ManagedObject.unversioned =
        (a.result (s.object? (c.place ns))).map ManagedObject.unversioned := by
  cases h with
  | alone hrun =>
      rw [run_converge hs] at hrun
      cases ha : c.amendment n ns (s.object? (c.place ns)) with
      | error f =>
          rw [ha] at hrun
          cases (Prod.mk.inj hrun).1
      | ok a =>
          rw [change_of_ok ha] at hrun
          obtain rfl := (Prod.mk.inj (Prod.mk.inj hrun).2).1
          exact ⟨a, rfl, Amendment.unversioned_apply a _ s⟩
  | inPass hc hns hn hfin hdel hrun => exact amended_of_reconcile hs hc hns hn hfin hdel hrun

/-- **What a component's object is after the component was ensured.** One that was recognised is
what it was, apart from its version; in every other case the component's part of the content is
filled in. -/
theorem Ensured.exists_object (h : c.Ensured n ns s s') (hs : s.Coherent) :
    ∃ o, s'.object? (c.place ns) = some o ∧
      ((∃ live, s.object? (c.place ns) = some live ∧ c.Recognises n ns live ∧
          o.unversioned = live.unversioned) ∨
        ((∀ live, s.object? (c.place ns) = some live → ¬ c.Recognises n ns live) ∧
          c.fill n.spec o.content = some o.content)) := by
  obtain ⟨a, ha, hafter⟩ := h.amended hs
  by_cases hrecognised : ∃ live, s.object? (c.place ns) = some live ∧ c.Recognises n ns live
  · obtain ⟨live, hlive, hrecognises⟩ := hrecognised
    rw [hlive, amendment_of_recognises hrecognises] at ha
    obtain rfl := Except.ok.inj ha
    rw [hlive] at hafter
    obtain ⟨o, ho, hsame⟩ := Option.map_eq_some_iff.mp hafter
    exact ⟨o, ho, .inl ⟨live, hlive, hrecognises, hsame⟩⟩
  have hstale : ∀ live, s.object? (c.place ns) = some live → ¬ c.Recognises n ns live :=
    fun live hlive hrecognises => hrecognised ⟨live, hlive, hrecognises⟩
  -- what is left at the place was built, whether it was there already or is written now
  obtain ⟨base, built, hbuilt, hash, hresult⟩ : ∃ base built, c.built n base = .ok built ∧
      ∃ hash, a.result (s.object? (c.place ns)) = some (built.recordHash hash) := by
    obtain ⟨desired, hdesired,
      ⟨hlive, rfl⟩ | ⟨live, hlive, ⟨-, hfresh⟩ | ⟨built, hbuilt, hdone⟩⟩⟩ := amendment_cases ha
    · exact ⟨_, desired, hdesired, _, rfl⟩
    · exact absurd ⟨desired, hdesired, hfresh⟩ (hstale live hlive)
    · refine ⟨live, built, hbuilt, desired.contentHash, ?_⟩
      obtain ⟨rfl, hsame⟩ | ⟨rfl, -⟩ := hdone
      · rw [hlive, hsame]
        rfl
      · rfl
  rw [hresult] at hafter
  obtain ⟨o, ho, hsame⟩ := Option.map_eq_some_iff.mp hafter
  obtain ⟨content, ref, hfill, -, -, rfl⟩ := built_eq_ok_iff.mp hbuilt
  have hcontent : o.content = content := by
    simpa using congrArg ManagedObject.content hsame
  exact ⟨o, ho, .inr ⟨hstale, by rw [hcontent, fill_fill hfill, hfill]⟩⟩

end Component

end NodeFeatureOperator
