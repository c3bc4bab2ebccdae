import NodeFeatureOperator.Proofs.Build
import NodeFeatureOperator.Proofs.PruneOnce

/-!
# Whose prune Job it is

An object is controlled by the resource whose uid its controller reference bears. Convergence leaves
an object alone that another resource controls; the teardown does not ask. It finds the prune Job by
its name and judges it by its status, so that a completed Job counts as this resource's pruning
whoever controls it, and also if no one does.

## Main definitions

* `ManagedObject.isControlledBy`: whether a resource controls an object.

## Main results

* `Component.isControlledBy_of_built`: a build makes the resource the controller.
* `released_on_job_iff`: the Jobs on which a resource is given up.
* `released_on_foreign_job_iff`: when it is given up on a Job that it does not control.
* `released_on_stray_job`: it is given up on a Job that no one controls.
-/

namespace NodeFeatureOperator

open Component (deleted found)

/-- Whether a resource controls an object: one of the object's controller references bears the
resource's uid. -/
def ManagedObject.isControlledBy (n : NodeFeatureDiscovery) (o : ManagedObject) : Bool :=
  (o.metadata.ownerReferences.getD []).any fun r => r.isController && some r.uid == n.metadata.uid

/-- A placed reference is among the references. -/
theorem OwnerReference.mem_place_self (ref : OwnerReference) (refs : List OwnerReference) :
    ref ∈ ref.place refs := by
  induction refs with
  | nil => exact List.mem_singleton_self ref
  | cons r rest ih =>
      rw [place]
      split
      · exact List.mem_cons_self
      · exact List.mem_cons_of_mem r ih

/-- The reference to a resource is that of a controller with the resource's uid. -/
theorem NodeFeatureDiscovery.controller_of_ownerReference? {n : NodeFeatureDiscovery}
    {ref : OwnerReference} (h : n.ownerReference? = some ref) :
    ref.isController = true ∧ some ref.uid = n.metadata.uid := by
  rw [ownerReference?] at h
  split at h
  next hname huid =>
    obtain rfl := Option.some.inj h
    exact ⟨rfl, huid.symm⟩
  · cases h

/-- A build makes the resource a controller of the object. -/
theorem Component.isControlledBy_of_built {c : Component} {n : NodeFeatureDiscovery}
    {o b : ManagedObject} (h : c.built n o = .ok b) : b.isControlledBy n = true := by
  obtain ⟨content, ref, -, href, -, rfl⟩ := built_eq_ok_iff.mp h
  obtain ⟨hcontroller, huid⟩ := NodeFeatureDiscovery.controller_of_ownerReference? href
  refine List.any_eq_true.mpr ⟨ref, ref.mem_place_self _, ?_⟩
  rw [hcontroller, huid]
  simp

/-- The exchanges that a release has behind it write no object. -/
theorem written?_of_mem_tornDown {s : Spec} {ns : String} {pruning : List Exchange}
    (h : PruneDone s ns pruning) : ∀ e ∈ TornDown s ns ++ pruning, e.call.written? = none := by
  intro e he
  rw [TornDown, List.mem_append, List.mem_append, List.mem_map, List.mem_map] at he
  obtain (⟨c, -, rfl⟩ | ⟨c, -, rfl⟩) | he := he
  · rfl
  · rfl
  · cases h with
    | off => cases he
    | ran _ _ _ _ hwaiting =>
        obtain rfl | rfl | he : e = found ns .prune _ ∨ e = deleted ns .prune ∨ e ∈ _ := by
          simpa using he
        · rfl
        · rfl
        · rw [hwaiting e he]
          rfl

section Release

variable {key : ResourceKey} {n : NodeFeatureDiscovery} {s : Store}

/-- A pass over the store `s`, whatever calls of it fail, gives the resource up and has found the
prune Job `o` on the way. -/
def ReleasedOn (key : ResourceKey) (s : Store) (o : ManagedObject) : Prop :=
  ∃ config time trigger t s' m, trigger.anyName = key.name ∧ trigger.ns = some key.ns ∧
    (reconcile config time trigger).Asks t (.updateResource m) ∧ s.ServesAll t s' ∧
    m.hasFinalizer = false ∧ found key.ns .prune (some o) ∈ t

/-- A resource whose labels are to be pruned is given up on the Job that is stored, provided that
the Job has completed. -/
theorem released_on_job_iff (hn : s.resource? key = some n) (hdel : n.isDeleting = true)
    (hprune : n.spec.pruneOnDelete = true) (o : ManagedObject) :
    ReleasedOn key s o ↔ n.hasFinalizer = true ∧
      s.object? (Component.prune.place key.ns) = some o ∧ o.Completed := by
  constructor
  · rintro ⟨config, time, trigger, t, s', m, hname, htrigger, hasks, hserves, hm, hfound⟩
    obtain ⟨ns, hns, ⟨-, hcall⟩ | ⟨n', rest, rfl, hpass⟩⟩ := asks_reconcile hasks
    · cases hcall
    obtain rfl : key.ns = ns := Option.some.inj (htrigger.symm.trans hns)
    rw [hname] at hserves
    obtain ⟨-, hfin, rfl, pruning, rfl, hdone⟩ := asks_release hpass hm
    have hquiet := written?_of_mem_tornDown hdone
    have hfound : found key.ns .prune (some o) ∈ TornDown n'.spec key.ns ++ pruning := by
      obtain heq | hmem := List.mem_cons.mp hfound
      · cases congrArg Exchange.call heq
      · exact hmem
    cases hserves with
    | cons hread hrest =>
        obtain ⟨rfl, hn'⟩ := hread.resource?_of_getResource
        obtain rfl : n = n' := Option.some.inj (hn.symm.trans hn')
        have ho := hrest.object?_of_found hquiet hfound
        refine ⟨hfin, ho, ?_⟩
        cases hdone with
        | off hoff =>
            rw [hprune] at hoff
            cases hoff
        | @ran object job _ _ hjob hcomplete hfailed _ =>
            have hobject := hrest.object?_of_found hquiet
              (List.mem_append_right _ List.mem_cons_self)
            obtain rfl := Option.some.inj (ho.symm.trans hobject)
            exact ⟨job, hjob, hcomplete, hfailed⟩
  · rintro ⟨hfin, ho, job, hjob, hcomplete, hfailed⟩
    have hends := ends_prune_of_complete {} key.ns hprune hjob hcomplete hfailed
    have hasks := asks_reconcile_of_tornDown {} ⟨0, 0⟩ (World.trigger key) rfl hdel hfin
      (.inr ⟨hends, rfl⟩)
    let s₁ := s.dropped key.ns (teardownComponents n.spec)
    have ho₁ : s₁.object? (Component.prune.place key.ns) = some o :=
      (Store.object?_dropped_of_notMem fun hc => (mem_teardownComponents.mp hc).1 rfl).trans ho
    have hpruning : s₁.ServesAll [found key.ns .prune (some o), deleted key.ns .prune,
        found key.ns .prune none] (s₁.dropObject (Component.prune.place key.ns)) :=
      .cons (.of_object? ho₁) (.cons (.served _)
        (.cons (.of_object? (Store.object?_dropObject_self _ s₁)) (.nil _)))
    refine ⟨_, _, _, _, _, _, rfl, rfl, hasks, .cons (.of_resource? hn)
      ((Store.servesAll_tornDown n.spec key.ns s).append hpruning), ?_, ?_⟩
    · exact NodeFeatureDiscovery.hasFinalizer_removeFinalizer n
    · simp

/-- A resource whose labels are to be pruned can be given up on a Job that it does not control
exactly if such a Job is stored and has completed, and the finalizer is there to be taken off. -/
theorem released_on_foreign_job_iff (hn : s.resource? key = some n) (hdel : n.isDeleting = true)
    (hprune : n.spec.pruneOnDelete = true) :
    (∃ o, ReleasedOn key s o ∧ o.isControlledBy n = false) ↔
      n.hasFinalizer = true ∧ ∃ o, s.object? (Component.prune.place key.ns) = some o ∧
        o.Completed ∧ o.isControlledBy n = false := by
  simp only [released_on_job_iff hn hdel hprune]
  constructor
  · rintro ⟨o, ⟨hfin, ho, hcompleted⟩, hforeign⟩
    exact ⟨hfin, o, ho, hcompleted, hforeign⟩
  · rintro ⟨hfin, o, ho, hcompleted, hforeign⟩
    exact ⟨o, ⟨hfin, ho, hcompleted⟩, hforeign⟩

end Release

/-- A completed prune Job without owners, as someone may have made it by hand, stands in for the
pruning of a resource with a uid: the resource is given up. -/
theorem released_on_stray_job :
    ∃ n o, World.pruned.store.resource? departing.key = some n ∧ n.metadata.uid = some "7" ∧
      n.isDeleting = true ∧ n.spec.pruneOnDelete = true ∧
      ReleasedOn departing.key World.pruned.store o ∧ o.isControlledBy n = false := by
  have hn : World.pruned.store.resource? departing.key = some (departing.withVersion "1") := rfl
  have hcompleted : (completedPrune.withVersion "2").Completed := ⟨_, rfl, by decide, by decide⟩
  have hreleased := (released_on_job_iff hn rfl rfl _).mpr ⟨by decide, rfl, hcompleted⟩
  exact ⟨_, _, hn, rfl, rfl, rfl, hreleased, rfl⟩

/-- The same release, by the Job that is stored. -/
theorem released_on_foreign_job_iff_pruned :
    World.pruned.store.resource? departing.key = some (departing.withVersion "1") ∧
      (departing.withVersion "1").isDeleting = true ∧
      (departing.withVersion "1").spec.pruneOnDelete = true ∧
      ∃ o, ReleasedOn departing.key World.pruned.store o ∧
        o.isControlledBy (departing.withVersion "1") = false := by
  have hn : World.pruned.store.resource? departing.key = some (departing.withVersion "1") := rfl
  have hcompleted : (completedPrune.withVersion "2").Completed := ⟨_, rfl, by decide, by decide⟩
  exact ⟨hn, rfl, rfl, (released_on_foreign_job_iff hn rfl rfl).mpr
    ⟨by decide, _, rfl, hcompleted, rfl⟩⟩

end NodeFeatureOperator
