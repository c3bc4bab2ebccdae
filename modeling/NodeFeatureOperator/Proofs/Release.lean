import NodeFeatureOperator.Proofs.Pass

/-!
# Release of a resource

A pass gives a resource up by writing it without the finalizer. It does so only at the end of a
complete teardown, and everything that the teardown rests on was answered in that same pass: what
was seen in earlier passes does not count, and no answer can be passed over.

## Main results

* `release_gated`: what a pass has behind it when it gives the resource up.
-/

namespace NodeFeatureOperator

open Component (deleted found)

/-- A pass that writes a resource without the finalizer has read that resource with it, and being
deleted. In the same pass the deletion of every component was accepted, after that the look-up of
every component was answered with nothing, and after that pruning was done: not asked for and no
call made about the prune Job, or else the Job seen complete and not failed, and its deletion
accepted. -/
theorem release_gated {config : Config} {time : Time} {trigger : Metadata} {past : List Exchange}
    {m : NodeFeatureDiscovery}
    (h : (reconcile config time trigger).Asks past (.updateResource m))
    (hm : m.hasFinalizer = false) :
    ∃ n ns pruning, trigger.ns = some ns ∧ m = n.removeFinalizer ∧
      n.isDeleting = true ∧ n.hasFinalizer = true ∧
      past = ⟨.getResource trigger.anyName ns, .ok (some n)⟩ ::
        ((teardownComponents n.spec).map (deleted ns) ++
          (teardownComponents n.spec).map (found ns · none) ++ pruning) ∧
      (∀ c, c ∈ teardownComponents n.spec ↔
        c ≠ .prune ∧ (c = .topologyUpdater → n.spec.topologyUpdater = true)) ∧
      PruneDone n.spec ns pruning := by
  obtain ⟨ns, hns, ⟨-, hcall⟩ | ⟨n, rest, rfl, hpass⟩⟩ := asks_reconcile h
  · cases hcall
  obtain ⟨hdel, hfin, rfl, pruning, rfl, hdone⟩ := asks_release hpass hm
  exact ⟨n, ns, pruning, hns, rfl, hdel, hfin, rfl, fun c => mem_teardownComponents, hdone⟩

/-- A resource on its way out, with every optional component and the labels to be pruned. -/
def departing : NodeFeatureDiscovery where
  metadata := { name := some "nfd", ns := some "gpu", uid := some "7",
                finalizers := some [NodeFeatureDiscovery.finalizer],
                deletionTimestamp := some ⟨0, 0⟩ }
  spec := { topologyUpdater := true, pruneOnDelete := true }

/-- A prune Job that has completed. -/
def completedPrune : ManagedObject where
  metadata := { name := some Component.prune.name, ns := some "gpu" }
  content := .job { status := some (.obj [("conditions",
    .arr [.obj [("status", .str "True"), ("type", .str "Complete")]])]) }

/-- The resource on its way out is given up in a pass that finds its prune Job complete. -/
theorem release_gated_departing :
    ∃ n ns pruning, departing.metadata.ns = some ns ∧
      departing.removeFinalizer = n.removeFinalizer ∧
      n.isDeleting = true ∧ n.hasFinalizer = true ∧
      ⟨.getResource "nfd" "gpu", .ok (some departing)⟩ :: (TornDown departing.spec "gpu" ++
          [found "gpu" .prune (some completedPrune), deleted "gpu" .prune,
            found "gpu" .prune none]) =
        ⟨.getResource departing.metadata.anyName ns, .ok (some n)⟩ ::
          ((teardownComponents n.spec).map (deleted ns) ++
            (teardownComponents n.spec).map (found ns · none) ++ pruning) ∧
      (∀ c, c ∈ teardownComponents n.spec ↔
        c ≠ .prune ∧ (c = .topologyUpdater → n.spec.topologyUpdater = true)) ∧
      PruneDone n.spec ns pruning := by
  have hns : departing.metadata.ns = some "gpu" := rfl
  have hfin : departing.hasFinalizer = true := by decide
  have hpruned := ends_prune_of_complete (n := departing) (o := completedPrune)
    (Config.prunePoll {}) "gpu" rfl rfl (by decide) (by decide)
  have hpast := asks_reconcile_of_tornDown {} ⟨0, 0⟩ departing.metadata hns rfl hfin
    (.inr ⟨hpruned, rfl⟩)
  exact release_gated hpast (NodeFeatureDiscovery.hasFinalizer_removeFinalizer departing)

end NodeFeatureOperator
