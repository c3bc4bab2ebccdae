import NodeFeatureOperator.Proofs.Release
import NodeFeatureOperator.Proofs.World

/-!
# Pruning again

A pass counts pruning as done once the deletion of the completed prune Job is accepted, and then it
takes the finalizer off. Nothing but the finalizer tells later passes that pruning is done. So a
later pass prunes again exactly if the finalizer is still there: if its removal failed, conflicted,
or was not reached.

## Main definitions

* `Outgoing`: a resource on its way out, whose labels are to be pruned.
* `Onlooker`: what others may do to the store.
* `Leaving`: what is known of a world with such a resource.

## Main results

* `Leaving.step`: every step keeps what is known.
* `prune_created_again_iff`: when a prune Job is created again.
* `prune_created_again`: a prune Job is created again after a conflict.
-/

namespace NodeFeatureOperator

open Component (deleted found)

/-! ### Resources on their way out -/

/-- A resource that is being deleted, that asks for its labels to be pruned, and that can own
objects. -/
structure Outgoing (ref : OwnerReference) (n : NodeFeatureDiscovery) : Prop where
  deleting : n.isDeleting = true
  pruned : n.spec.pruneOnDelete = true
  owner : n.ownerReference? = some ref

/-- What a resource on its way out may turn into: it stays on its way out, and no finalizer is added
to it any more. -/
structure Succeeds (n n' : NodeFeatureDiscovery) : Prop where
  deleting : n'.isDeleting = n.isDeleting
  pruned : n'.spec.pruneOnDelete = n.spec.pruneOnDelete
  owner : n'.ownerReference? = n.ownerReference?
  finalizer : n'.hasFinalizer = true → n.hasFinalizer = true

/-- What others may do: anything to the objects, and to the resource what may happen to it on its
way out, its disappearance included. -/
def Onlooker (key : ResourceKey) (s s' : Store) : Prop :=
  ∀ n', s'.resource? key = some n' → ∃ n, s.resource? key = some n ∧ Succeeds n n'

/-- Others put no finalizer on a resource on its way out. -/
theorem Onlooker.free {key : ResourceKey} {s s' : Store} (h : Onlooker key s s')
    (hs : s.guarded key = false) : s'.guarded key = false := by
  refine Bool.eq_false_iff.mpr fun hguarded => ?_
  obtain ⟨n', hn', hfin⟩ := Store.exists_of_guarded hguarded
  obtain ⟨n, hn, hsucceeds⟩ := h n' hn'
  rw [Store.guarded_eq hn, hsucceeds.finalizer hfin] at hs
  cases hs

/-- What is known of a world with a resource on its way out: the stored resource, if there still is
one, and the one that a pass has read are on their way out. -/
structure Leaving (key : ResourceKey) (ref : OwnerReference) (w : World) : Prop where
  stored : ∀ n, w.store.resource? key = some n → Outgoing ref n
  trigger : ∀ p, w.pass = some p →
    p.trigger.anyName = key.name ∧ p.trigger.ns = some key.ns
  read : ∀ p, w.pass = some p → ∀ n t,
    p.past = ⟨.getResource key.name key.ns, .ok (some n)⟩ :: t → Outgoing ref n

namespace Leaving

variable {key : ResourceKey} {ref : OwnerReference} {w w' : World}

/-- Where no pass is under way, all that there is to know is of the stored resource. -/
theorem of_idle (hidle : w.pass = none)
    (h : ∀ n, w.store.resource? key = some n → Outgoing ref n) : Leaving key ref w :=
  ⟨h, by simp [hidle], by simp [hidle]⟩

/-- A pass reads the resource, and then only tears it down. -/
theorem asks (h : Leaving key ref w) {p : Attempt} {call : Call} (hp : w.pass = some p)
    (hasks : p.Asks call) :
    (p.past = [] ∧ call = .getResource key.name key.ns) ∨
      ∃ n rest, p.past = ⟨.getResource key.name key.ns, .ok (some n)⟩ :: rest ∧
        Outgoing ref n ∧ (finalize p.config n key.ns).Asks rest call := by
  obtain ⟨hname, htrigger⟩ := h.trigger p hp
  obtain ⟨ns, hns, hread⟩ := asks_reconcile hasks
  obtain rfl : key.ns = ns := Option.some.inj (htrigger.symm.trans hns)
  rw [hname] at hread
  obtain hread | ⟨n, rest, hpast, hpass⟩ := hread
  · exact .inl hread
  have hn : Outgoing ref n := h.read p hp n rest hpast
  obtain ⟨-, hfinalize⟩ | ⟨hdel, -⟩ | ⟨hdel, -⟩ := asks_passOver hpass
  · exact .inr ⟨n, rest, hpast, hn, hfinalize⟩
  · rw [hn.deleting] at hdel
    cases hdel
  · rw [hn.deleting] at hdel
    cases hdel

/-- A call leaves the stored resource on its way out. -/
theorem stored_call (h : Leaving key ref w) {p : Attempt} {call : Call}
    {answer : Except Failure call.Answer} {store : Store} (hp : w.pass = some p)
    (hasks : p.Asks call) (hserves : w.store.Serves call answer store) :
    ∀ n, store.resource? key = some n → Outgoing ref n := by
  intro n hn
  obtain ⟨-, rfl⟩ | ⟨m, rest, -, hm, hfinalize⟩ := h.asks hp hasks
  · rw [hserves.resource?_eq key (by simp) (by simp)] at hn
    exact h.stored n hn
  obtain hcall | ⟨-, -, -, rfl⟩ := teardownCall_or_release hfinalize
  · have hsame : store.resource? key = w.store.resource? key := by
      refine hserves.resource?_eq key ?_ ?_
      · rintro n rfl
        cases hcall
      · rintro name ns conditions rfl
        cases hcall
    exact h.stored n (hsame ▸ hn)
  · obtain rfl | rfl := hserves.after
    · exact h.stored n hn
    obtain hsame | ⟨stored, hstored, hafter | ⟨-, hafter⟩⟩ :=
      Store.resource?_updateResource m.removeFinalizer w.store key
    · exact h.stored n (hsame.symm.trans hn)
    · obtain rfl := Option.some.inj (hafter.symm.trans hn)
      exact ⟨(h.stored stored hstored).deleting, hm.pruned, (h.stored stored hstored).owner⟩
    · cases hafter.symm.trans hn

/-- Every step leaves what is known of the world. -/
theorem step (h : Leaving key ref w) (hstep : World.Step (Onlooker key) key w w') :
    Leaving key ref w' := by
  cases hstep with
  | begin config time trigger hidle hname hns =>
      refine ⟨h.stored, ?_, ?_⟩
      · intro p hp
        obtain rfl := Option.some.inj hp
        exact ⟨hname, hns⟩
      · intro p hp n t ht
        obtain rfl := Option.some.inj hp
        cases ht
  | @call p call answer store hp hasks hserves =>
      refine ⟨h.stored_call hp hasks hserves, ?_, ?_⟩
      · intro p' hp'
        obtain rfl := Option.some.inj hp'
        exact h.trigger p hp
      · intro p' hp' n t ht
        obtain rfl := Option.some.inj hp'
        obtain ⟨-, hread⟩ | ⟨t, -, hpast⟩ := Attempt.stored_or_read_before hserves ht
        · exact h.stored n hread
        · exact h.read p hp n t hpast
  | stop => exact ⟨h.stored, by simp, by simp⟩
  | others hothers =>
      refine ⟨fun n' hn' => ?_, h.trigger, h.read⟩
      obtain ⟨n, hn, hs⟩ := hothers n' hn'
      have hout : Outgoing ref n := h.stored n hn
      exact ⟨hs.deleting.trans hout.deleting, hs.pruned.trans hout.pruned,
        hs.owner.trans hout.owner⟩

/-- After the deletion of the prune Job was accepted, a pass looks for the Job, and then gives the
resource up; it does nothing else. -/
theorem asks_of_deleted (h : Leaving key ref w) {p : Attempt} {call : Call}
    (hp : w.pass = some p) (hdeleted : deleted key.ns .prune ∈ p.past) (hasks : p.Asks call) :
    call = .get Component.prune.kind Component.prune.name key.ns ∨
      ∃ n : NodeFeatureDiscovery, call = .updateResource n.removeFinalizer := by
  obtain ⟨hpast, -⟩ | ⟨n, rest, hpast, -, hfinalize⟩ := h.asks hp hasks
  · rw [hpast] at hdeleted
    cases hdeleted
  rw [hpast] at hdeleted
  obtain heq | hmem := List.mem_cons.mp hdeleted
  · cases congrArg Exchange.call heq
  · exact (asks_finalize_of_deleted hfinalize hmem).imp_right fun hcall => ⟨n, hcall⟩

end Leaving

/-! ### Whether pruning is done again -/

/-- What is known of a world in which the resource on its way out was given up: neither the stored
resource nor the one that a pass has read bears the finalizer. -/
structure GivenUp (key : ResourceKey) (ref : OwnerReference) (w : World) : Prop
    extends Leaving key ref w where
  free : w.store.guarded key = false
  read_free : ∀ p, w.pass = some p → ∀ n t,
    p.past = ⟨.getResource key.name key.ns, .ok (some n)⟩ :: t → n.hasFinalizer = false

namespace GivenUp

variable {key : ResourceKey} {ref : OwnerReference} {w w' : World}

/-- After the resource was given up, a pass does no more than read it. -/
theorem asks (h : GivenUp key ref w) {p : Attempt} {call : Call} (hp : w.pass = some p)
    (hasks : p.Asks call) : call = .getResource key.name key.ns := by
  obtain ⟨-, hcall⟩ | ⟨n, rest, hpast, -, hfinalize⟩ := h.toLeaving.asks hp hasks
  · exact hcall
  · have hfin : n.hasFinalizer = true := (asks_finalize hfinalize).1
    rw [h.read_free p hp n rest hpast] at hfin
    cases hfin

/-- Every step leaves the resource given up. -/
theorem step (h : GivenUp key ref w) (hstep : World.Step (Onlooker key) key w w') :
    GivenUp key ref w' := by
  have hleaving : Leaving key ref w' := h.toLeaving.step hstep
  cases hstep with
  | begin config time trigger hidle hname hns =>
      refine ⟨hleaving, h.free, fun p hp => ?_⟩
      obtain rfl := Option.some.inj hp
      rintro n t ⟨⟩
  | @call p call answer store hp hasks hserves =>
      obtain rfl := h.asks hp hasks
      have hsame : store.resource? key = w.store.resource? key :=
        hserves.resource?_eq key (by simp) (by simp)
      refine ⟨hleaving, (Store.guarded_congr hsame).trans h.free, fun p' hp' n t ht => ?_⟩
      obtain rfl := Option.some.inj hp'
      obtain ⟨-, hread⟩ | ⟨t, -, hpast⟩ := Attempt.stored_or_read_before hserves ht
      · exact (Store.guarded_eq hread).symm.trans h.free
      · exact h.read_free p hp n t hpast
  | stop => exact ⟨hleaving, h.free, by simp⟩
  | others hothers => exact ⟨hleaving, hothers.free h.free, h.read_free⟩

end GivenUp

/-- While the finalizer is there, pruning can begin again: once the prune Job is gone, the next pass
that is not disturbed creates it. -/
theorem prune_created_of_guarded {key : ResourceKey} {ref : OwnerReference} {w : World}
    (h : Leaving key ref w) (hidle : w.pass = none) (hguarded : w.store.guarded key = true) :
    ∃ w' p o, World.Run (Onlooker key) key w w' ∧ w'.pass = some p ∧ p.Asks (.create o) ∧
      o.key = Component.prune.place key.ns := by
  obtain ⟨n, hn, hfin⟩ := Store.exists_of_guarded hguarded
  have hout : Outgoing ref n := h.stored n hn
  obtain ⟨job, hjob⟩ := Component.exists_desired hout.owner .prune key.ns
  -- the others remove what may be left of the Job
  let s := w.store.dropObject (Component.prune.place key.ns)
  have hothers : Onlooker key w.store s := fun n' hn' => ⟨n', hn', ⟨rfl, rfl, rfl, id⟩⟩
  have hgone : (s.dropped key.ns (teardownComponents n.spec)).object?
      (Component.prune.place key.ns) = none :=
    (Store.object?_dropped_of_notMem fun hc => (mem_teardownComponents.mp hc).1 rfl).trans
      (Store.object?_dropObject_self _ _)
  obtain ⟨p, release, hrun, hasks, -⟩ := World.Run.of_tornDown (w := { w with store := s })
    (Onlooker key) {} ⟨0, 0⟩ hidle hn hout.deleting hfin
    (.inl (asks_prune_create _ hout.pruned hjob)) (.cons (.of_object? hgone) (.nil _))
  exact ⟨_, p, job, .head (.others hothers) hrun, rfl, hasks, Component.desired_key hjob⟩

/-- The passes over a resource on its way out, under whatever failures and with others about. Once a
pass has had the deletion of the prune Job accepted, it creates none; all that it still writes is
the resource without the finalizer. Once that pass is over, a later one can create the prune Job
again exactly if the finalizer is still there. -/
theorem prune_created_again_iff {key : ResourceKey} {ref : OwnerReference} {w₀ w₁ : World}
    {p : Attempt} (hidle : w₀.pass = none)
    (hstored : ∀ n, w₀.store.resource? key = some n → Outgoing ref n)
    (hrun : World.Run (Onlooker key) key w₀ w₁) (hp : w₁.pass = some p)
    (hdeleted : deleted key.ns .prune ∈ p.past) :
    (∀ call, p.Asks call →
      call = .get Component.prune.kind Component.prune.name key.ns ∨
        ∃ n : NodeFeatureDiscovery, call = .updateResource n.removeFinalizer) ∧
    ∀ w₂, World.Run (Onlooker key) key w₁ w₂ → w₂.pass = none →
      ((∃ w₃ q o, World.Run (Onlooker key) key w₂ w₃ ∧ w₃.pass = some q ∧ q.Asks (.create o) ∧
          o.key = Component.prune.place key.ns) ↔
        w₂.store.guarded key = true) := by
  have h₀ : Leaving key ref w₀ := .of_idle hidle hstored
  have h₁ : Leaving key ref w₁ := hrun.invariant h₀ Leaving.step
  refine ⟨fun call hasks => h₁.asks_of_deleted hp hdeleted hasks, fun w₂ hrun₂ hidle₂ => ?_⟩
  have h₂ : Leaving key ref w₂ := hrun₂.invariant h₁ Leaving.step
  constructor
  · rintro ⟨w₃, q, o, hrun₃, hq, hasks, -⟩
    refine Bool.of_not_eq_false fun hfree => ?_
    have hgiven : GivenUp key ref w₂ := ⟨h₂, hfree, by simp [hidle₂]⟩
    cases (hrun₃.invariant hgiven GivenUp.step).asks hq hasks
  · exact prune_created_of_guarded h₂ hidle₂

/-! ### A conflict after the deletion of the prune Job -/

/-- A world with a resource on its way out, whose prune Job has completed. -/
def World.pruned : World where
  store := (({} : Store).putResource departing.key departing).putObject
    (Component.prune.place "gpu") completedPrune

/-- The resource of that world is on its way out. -/
theorem outgoing_pruned : ∀ n, World.pruned.store.resource? departing.key = some n →
    Outgoing ⟨NodeFeatureDiscovery.apiVersion, NodeFeatureDiscovery.kind, "nfd", "7", some true,
      none⟩ n := by
  intro n hn
  obtain rfl := Option.some.inj (hn : some (departing.withVersion "1") = some n)
  exact ⟨rfl, rfl, rfl⟩

/-- In that world a pass deletes the Job, and then its removal of the finalizer conflicts. -/
theorem exists_conflict :
    ∃ w₁ p w₂, World.Run (Onlooker departing.key) departing.key World.pruned w₁ ∧
      w₁.pass = some p ∧ deleted "gpu" .prune ∈ p.past ∧
      ⟨.updateResource (departing.withVersion "1").removeFinalizer, .error Store.conflict⟩ ∈
        p.past ∧
      World.Run (Onlooker departing.key) departing.key w₁ w₂ ∧ w₂.pass = none ∧
      w₂.store.guarded departing.key = true := by
  have hread : World.pruned.store.resource? departing.key = some (departing.withVersion "1") := rfl
  have hfin : departing.hasFinalizer = true := by decide
  let s := World.pruned.store.dropped "gpu" (teardownComponents departing.spec)
  have hjob : s.object? (Component.prune.place "gpu") = some (completedPrune.withVersion "2") :=
    Store.object?_dropped_of_notMem (by decide)
  have hpruned := ends_prune_of_complete (n := departing.withVersion "1")
    (o := completedPrune.withVersion "2") {} "gpu" rfl rfl (by decide) (by decide)
  obtain ⟨p, release, hrun, hasks, hpast⟩ := World.Run.of_tornDown (Onlooker departing.key)
    {} ⟨0, 0⟩ rfl hread rfl hfin (.inr ⟨hpruned, rfl⟩) (.cons (.of_object? hjob) (.cons (.served _)
      (.cons (.of_object? (Store.object?_dropObject_self _ s)) (.nil _))))
  have hconflict := hrun.tail (.call rfl hasks (.refused _ Store.conflict))
  refine ⟨_, _, _, hconflict, rfl, ?_, by simp [Attempt.heard], .single .stop, rfl, ?_⟩
  · simp [Attempt.heard, hpast]
  · have hstored : s.resource? departing.key = some (departing.withVersion "1") :=
      (Store.resource?_dropped _ _ _ _).trans hread
    exact (Store.guarded_eq hstored).trans hfin

/-- Pruning is done twice: the prune Job was deleted after it had completed, the removal of the
finalizer conflicted, and a later pass creates the prune Job again. -/
theorem prune_created_again :
    ∃ w₁ p w₂ w₃ q o, World.Run (Onlooker departing.key) departing.key World.pruned w₁ ∧
      w₁.pass = some p ∧ deleted "gpu" .prune ∈ p.past ∧
      World.Run (Onlooker departing.key) departing.key w₁ w₂ ∧ w₂.pass = none ∧
      World.Run (Onlooker departing.key) departing.key w₂ w₃ ∧ w₃.pass = some q ∧
      q.Asks (.create o) ∧ o.key = Component.prune.place "gpu" := by
  obtain ⟨w₁, p, w₂, hrun₁, hp, hdeleted, -, hrun₂, hidle, hguarded⟩ := exists_conflict
  have h₀ : Leaving departing.key _ World.pruned := .of_idle rfl outgoing_pruned
  have h₂ := hrun₂.invariant (hrun₁.invariant h₀ Leaving.step) Leaving.step
  obtain ⟨w₃, q, o, hrun₃, hq, hasks, ho⟩ := prune_created_of_guarded h₂ hidle hguarded
  exact ⟨w₁, p, w₂, w₃, q, o, hrun₁, hp, hdeleted, hrun₂, hidle, hrun₃, hq, hasks, ho⟩

/-- The world with the completed prune Job: after the conflict the finalizer is still there, and
so pruning can be done again. -/
theorem prune_created_again_iff_pruned :
    ∃ w₁ p w₂, World.Run (Onlooker departing.key) departing.key World.pruned w₁ ∧
      w₁.pass = some p ∧ deleted "gpu" .prune ∈ p.past ∧
      World.Run (Onlooker departing.key) departing.key w₁ w₂ ∧ w₂.pass = none ∧
      w₂.store.guarded departing.key = true ∧
      ((∃ w₃ q o, World.Run (Onlooker departing.key) departing.key w₂ w₃ ∧ w₃.pass = some q ∧
          q.Asks (.create o) ∧ o.key = Component.prune.place "gpu") ↔
        w₂.store.guarded departing.key = true) := by
  obtain ⟨w₁, p, w₂, hrun₁, hp, hdeleted, -, hrun₂, hidle, hguarded⟩ := exists_conflict
  have hiff := (prune_created_again_iff rfl outgoing_pruned hrun₁ hp hdeleted).2 w₂ hrun₂ hidle
  exact ⟨w₁, p, w₂, hrun₁, hp, hdeleted, hrun₂, hidle, hguarded, hiff⟩

end NodeFeatureOperator
