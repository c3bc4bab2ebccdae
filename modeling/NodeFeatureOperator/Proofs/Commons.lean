import Mathlib.Logic.Function.Basic
import NodeFeatureOperator.Proofs.Ownership

/-!
# Several resources in one store

Passes over different resources run side by side against one store, each resource with at most one
pass under way. All resources of a namespace share the names of the managed objects. Which of them
controls an object is looked at before the object is written, but not before it is deleted: a
teardown deletes by name.

## Main definitions

* `Commons`: the store, and the passes under way.
* `Commons.Step`, `Commons.Run`: what can happen next, and in the long run.
* `DeletesControlled`: a pass deletes an object that some resource controls.

## Main results

* `Commons.Run.of_world`: passes over one resource alone are a run.
* `controlled_object_deleted_iff`: when a pass deletes an object that another resource controls.
* `controlled_object_deleted`: a pass deletes an object of another resource.
-/

namespace NodeFeatureOperator

open Component (deleted found)

/-! ### Passes side by side -/

/-- The store, and for each resource the pass over it that is under way. -/
structure Commons where
  store : Store
  passes : ResourceKey → Option Attempt := fun _ => none

namespace Commons

/-- What the passes over one resource make of the commons and of the desired state at the last
release. -/
def view (key : ResourceKey) (release : Option Spec) (w : Commons) : World :=
  ⟨w.store, w.passes key, release⟩

/-- The commons once the passes over one resource have got to a world. -/
def withView (key : ResourceKey) (v : World) (w : Commons) : Commons :=
  ⟨v.store, Function.update w.passes key v.pass⟩

/-- What can happen in the commons: the passes over one resource take a step, or others write to the
store. -/
inductive Step (others : Store → Store → Prop) (w : Commons) : Commons → Prop
  | pass (key : ResourceKey) (release : Option Spec) {v : World} :
      World.Step (fun _ _ => False) key (w.view key release) v → Step others w (w.withView key v)
  | others {store : Store} : others w.store store → Step others w { w with store := store }

/-- Any number of steps. -/
abbrev Run (others : Store → Store → Prop) : Commons → Commons → Prop :=
  Relation.ReflTransGen (Step others)

variable {others : Store → Store → Prop} {w w' : Commons} {key key' : ResourceKey}

@[simp] theorem passes_withView_self (key : ResourceKey) (v : World) (w : Commons) :
    (w.withView key v).passes key = v.pass := by
  simp [withView]

theorem passes_withView_of_ne (v : World) (w : Commons) (h : key' ≠ key) :
    (w.withView key v).passes key' = w.passes key' := by
  simp [withView, h]

/-- Each pass was set off for the resource that it is under way for. -/
def Named (w : Commons) : Prop := ∀ key, (w.view key none).Named key

/-- Every step leaves it at that. -/
theorem Named.step (h : w.Named) (hstep : Step others w w') : w'.Named := by
  cases hstep with
  | others => exact h
  | @pass key release v hv =>
      intro key' p' hp'
      by_cases hkey : key' = key
      · subst hkey
        rw [view, passes_withView_self] at hp'
        have hbefore : (w.view key' release).Named key' := h key'
        exact hbefore.step hv p' hp'
      · rw [view, passes_withView_of_ne v w hkey] at hp'
        exact h key' p' hp'

/-- Nor does a run change it that starts without passes. -/
theorem Run.named {w₀ : Commons} (h : Run others w₀ w) (hidle : ∀ key, w₀.passes key = none) :
    w.Named := by
  induction h with
  | refl =>
      intro key p hp
      cases (hidle key).symm.trans hp
  | tail _ hstep ih => exact ih.step hstep

/-- What the passes over one resource do by themselves is a run. -/
theorem Run.of_world {release : Option Spec} {v : World}
    (h : World.Run (fun _ _ => False) key (w.view key release) v) :
    Run others w (w.withView key v) := by
  induction h with
  | refl =>
      have hself : w.withView key (w.view key release) = w := by
        rw [withView, view, Function.update_eq_self]
      rw [hself]
  | @tail v v' _ hstep ih =>
      have hview : (w.withView key v).view key v.release = v := by
        rw [view, passes_withView_self, withView]
      have hnext : Step others (w.withView key v) _ := .pass key v.release (hview.symm ▸ hstep)
      have hafter : (w.withView key v).withView key v' = w.withView key v' := by
        rw [withView, withView, withView, Function.update_idem]
      exact ih.tail (hafter ▸ hnext)

/-- While there is no pass under way over a resource, one can begin and go through the calls of a
trace. -/
theorem Run.of_pass (others : Store → Store → Prop) (config : Config) (time : Time)
    {t : List Exchange} {store : Store} {call : Call} (hidle : w.passes key = none)
    (h : (reconcile config time (World.trigger key)).Asks t call)
    (ht : w.store.ServesAll t store) :
    Run others w
      ⟨store, Function.update w.passes key (some ⟨config, time, World.trigger key, t⟩)⟩ := by
  obtain ⟨release, hrun⟩ := World.Run.of_pass (w := w.view key none) _ config time hidle h ht
  exact Run.of_world hrun

/-- The pass can also have its next call take effect. -/
theorem Run.of_pass_served (others : Store → Store → Prop) (config : Config) (time : Time)
    {t : List Exchange} {store : Store} {call : Call} (hidle : w.passes key = none)
    (h : (reconcile config time (World.trigger key)).Asks t call)
    (ht : w.store.ServesAll t store) :
    ∃ p, Run others w ⟨(store.respond call).2, Function.update w.passes key (some p)⟩ := by
  obtain ⟨release, hrun⟩ := World.Run.of_pass (w := w.view key none) _ config time hidle h ht
  exact ⟨_, Run.of_world (hrun.tail (.call rfl h (.served call)))⟩

end Commons

/-! ### Deletions -/

section Deletions

variable {a : NodeFeatureDiscovery} {b : ResourceKey} {s : Store} {c : Component}

/-- A pass over the resource `b` that begins with the store `s`, whatever calls of it fail, comes to
delete the object of a component while it is there and the resource `a` controls it. -/
def DeletesControlled (a : NodeFeatureDiscovery) (b : ResourceKey) (c : Component) (s : Store) :
    Prop :=
  ∃ config time trigger t s' o, trigger.anyName = b.name ∧ trigger.ns = some b.ns ∧
    (reconcile config time trigger).Asks t (.delete c.kind c.name b.ns) ∧ s.ServesAll t s' ∧
    s'.object? (c.place b.ns) = some o ∧ o.isControlledBy a = true

/-- No component is torn down twice. -/
theorem nodup_teardownComponents (spec : Spec) : (teardownComponents spec).Nodup := by
  have horder : Component.teardownOrder.Nodup := by decide
  exact horder.filter _

/-- A pass over a resource on its way out comes to the deletion of each component that it tears
down, and finds the object as it was. -/
theorem exists_asks_delete {n : NodeFeatureDiscovery} (hn : s.resource? b = some n)
    (hdel : n.isDeleting = true) (hfin : n.hasFinalizer = true)
    (hc : c ∈ teardownComponents n.spec) :
    ∃ t s', (reconcile {} ⟨0, 0⟩ (World.trigger b)).Asks t (.delete c.kind c.name b.ns) ∧
      s.ServesAll t s' ∧ s'.object? (c.place b.ns) = s.object? (c.place b.ns) := by
  obtain ⟨before, after, hsplit⟩ := List.append_of_mem hc
  have hnodup : (before ++ c :: after).Nodup := hsplit ▸ nodup_teardownComponents n.spec
  have hnew : c ∉ before := fun hmem =>
    (List.nodup_append.mp hnodup).2.2 c hmem c List.mem_cons_self rfl
  have hloop : (deleteEach b.ns (before ++ c :: after)).Ends
      (before.map (deleted b.ns) ++ deleted b.ns c :: after.map (deleted b.ns)) [] :=
    ends_deleteEach_iff.mpr (by simp)
  have hdelete : (deleteComponents n b.ns).Asks (before.map (deleted b.ns))
      (.delete c.kind c.name b.ns) := by
    rw [deleteComponents, hsplit]
    exact Program.asks_bind_iff.mpr (.inl hloop.asks_of_split)
  have hasks : (passOver {} ⟨0, 0⟩ n b.name b.ns).Asks (before.map (deleted b.ns))
      (.delete c.kind c.name b.ns) := by
    rw [passOver, if_pos hdel, finalize, if_pos hfin]
    exact Program.asks_bind_iff.mpr (.inl hdelete)
  have hread : (reconcile {} ⟨0, 0⟩ (World.trigger b)).Asks
      (⟨.getResource b.name b.ns, .ok (some n)⟩ :: before.map (deleted b.ns))
      (.delete c.kind c.name b.ns) :=
    asks_reconcile_of_read rfl hasks
  exact ⟨_, s.dropped b.ns before, hread,
    .cons (.of_resource? hn) (Store.servesAll_deleted b.ns before s),
    Store.object?_dropped_of_notMem hnew⟩

/-- A pass over a resource on its way out that asks for its labels to be pruned comes to the
deletion of the completed prune Job. -/
theorem exists_asks_delete_prune {n : NodeFeatureDiscovery} {o : ManagedObject}
    (hn : s.resource? b = some n) (hdel : n.isDeleting = true) (hfin : n.hasFinalizer = true)
    (hprune : n.spec.pruneOnDelete = true)
    (ho : s.object? (Component.prune.place b.ns) = some o) (hcompleted : o.Completed) :
    ∃ t s', (reconcile {} ⟨0, 0⟩ (World.trigger b)).Asks t
        (.delete Component.prune.kind Component.prune.name b.ns) ∧
      s.ServesAll t s' ∧ s'.object? (Component.prune.place b.ns) = some o := by
  have hasks := asks_prune_delete (Config.prunePoll {}) b.ns hprune hcompleted
  have hstill : (s.dropped b.ns (teardownComponents n.spec)).object?
      (Component.prune.place b.ns) = some o :=
    (Store.object?_dropped_of_notMem fun hc => (mem_teardownComponents.mp hc).1 rfl).trans ho
  exact ⟨_, _, asks_reconcile_of_tornDown {} ⟨0, 0⟩ (World.trigger b) rfl hdel hfin (.inl hasks),
    .cons (.of_resource? hn) ((Store.servesAll_tornDown n.spec b.ns s).append
      (.cons (.of_object? hstill) (.nil _))), hstill⟩

/-- A pass deletes an object that some resource controls exactly if the resource of the pass is on
its way out, and the object is that of a component that is torn down, or the completed prune Job of
a resource whose labels are to be pruned. -/
theorem deletesControlled_iff :
    DeletesControlled a b c s ↔
      ∃ n o, s.resource? b = some n ∧ n.isDeleting = true ∧ n.hasFinalizer = true ∧
        s.object? (c.place b.ns) = some o ∧ o.isControlledBy a = true ∧
        (c ∈ teardownComponents n.spec ∨
          (c = .prune ∧ n.spec.pruneOnDelete = true ∧ o.Completed)) := by
  constructor
  · rintro ⟨config, time, trigger, t, s', o, hname, htrigger, hasks, hserves, ho, howner⟩
    obtain ⟨ns, n, rest, d, hns, rfl, hdel, hfin, hplace, hbefore⟩ := asks_delete hasks
    obtain rfl : b.ns = ns := Option.some.inj (htrigger.symm.trans hns)
    obtain rfl : c = d := (Component.place_injective (hplace : c.place b.ns = d.place b.ns)).1
    rw [hname] at hserves
    cases hserves with
    | cons hread hrest =>
        obtain ⟨rfl, hn⟩ := hread.resource?_of_getResource
        obtain ⟨hc, hdeletes⟩ | ⟨rfl, hprune, job, hcompleted, rfl⟩ := hbefore
        · have hstored := hrest.object?_of_some (fun e he => ?_) ho
          · exact ⟨n, o, hn, hdel, hfin, hstored, howner, .inl hc⟩
          · obtain ⟨d, -, hcall⟩ := hdeletes e he
            rw [hcall]
            rfl
        · -- the Job was looked up right before its deletion, so that it is the one that was found
          obtain ⟨s₁, htorn, hlook⟩ := hrest.split
          cases hlook with
          | cons hget hnil =>
              cases hnil
              obtain ⟨rfl, hjob⟩ := hget.object?_of_get
              obtain rfl : o = job := Option.some.inj (ho.symm.trans hjob)
              have hstored := htorn.object?_of_some (fun e he => ?_) ho
              · exact ⟨n, o, hn, hdel, hfin, hstored, howner, .inr ⟨rfl, hprune, hcompleted⟩⟩
              · rw [TornDown, List.mem_append, List.mem_map, List.mem_map] at he
                obtain ⟨d, -, rfl⟩ | ⟨d, -, rfl⟩ := he <;> rfl
  · rintro ⟨n, o, hn, hdel, hfin, ho, howner, hc | ⟨rfl, hprune, hcompleted⟩⟩
    · obtain ⟨t, s', hasks, hserves, hsame⟩ := exists_asks_delete hn hdel hfin hc
      exact ⟨_, _, _, t, s', o, rfl, rfl, hasks, hserves, hsame.trans ho, howner⟩
    · obtain ⟨t, s', hasks, hserves, hstill⟩ :=
        exists_asks_delete_prune hn hdel hfin hprune ho hcompleted
      exact ⟨_, _, _, t, s', o, rfl, rfl, hasks, hserves, hstill, howner⟩

end Deletions

/-- Passes over any resources of a store, side by side and with others about. A pass deletes objects
only for a resource that it has read on its way out: those of the components that are torn down, and
the prune Job that it has just found completed. While no pass over a resource `b` is under way, the
next one can delete an object that a resource `a` controls, however the two are related, exactly if
`b` is on its way out and the object is one of these. -/
theorem controlled_object_deleted_iff {others : Store → Store → Prop} {w₀ w : Commons}
    (hidle : ∀ key, w₀.passes key = none) (hrun : Commons.Run others w₀ w) (b : ResourceKey) :
    (∀ p kind name ns, w.passes b = some p → p.Asks (.delete kind name ns) →
      ∃ n rest c, p.past = ⟨.getResource b.name b.ns, .ok (some n)⟩ :: rest ∧
        n.isDeleting = true ∧ n.hasFinalizer = true ∧
        (⟨kind, ns, name⟩ : ObjectKey) = Component.place c b.ns ∧
        (c ∈ teardownComponents n.spec ∨
          (c = .prune ∧ n.spec.pruneOnDelete = true ∧ ∃ o : ManagedObject, o.Completed ∧
            rest = TornDown n.spec b.ns ++ [found b.ns .prune (some o)]))) ∧
    (w.passes b = none → ∀ a c, DeletesControlled a b c w.store ↔
      ∃ n o, w.store.resource? b = some n ∧ n.isDeleting = true ∧ n.hasFinalizer = true ∧
        w.store.object? (c.place b.ns) = some o ∧ o.isControlledBy a = true ∧
        (c ∈ teardownComponents n.spec ∨
          (c = .prune ∧ n.spec.pruneOnDelete = true ∧ o.Completed))) := by
  refine ⟨fun p kind name ns hp hasks => ?_, fun _ a c => deletesControlled_iff⟩
  obtain ⟨hname, htrigger⟩ := hrun.named hidle b p hp
  obtain ⟨ns', n, rest, c, hns, hpast, hdel, hfin, hplace, hbefore⟩ := asks_delete hasks
  obtain rfl : b.ns = ns' := Option.some.inj (htrigger.symm.trans hns)
  rw [hname] at hpast
  exact ⟨n, rest, c, hpast, hdel, hfin, hplace, hbefore.imp_left And.left⟩

/-! ### Two resources of one namespace -/

/-- A resource of a shared namespace, with the finalizer. -/
def tenant (name uid : String) (deletion : Option Time) : NodeFeatureDiscovery where
  metadata := { name := some name, ns := some "gpu", uid := some uid,
                finalizers := some [NodeFeatureDiscovery.finalizer],
                deletionTimestamp := deletion }
  spec := {}

/-- A tenant that stays. -/
def staying : NodeFeatureDiscovery := tenant "a" "1" none

/-- A tenant on its way out. -/
def leaving : NodeFeatureDiscovery := tenant "b" "2" (some ⟨0, 0⟩)

/-- The commons of the two, without any objects yet. -/
def Commons.shared : Commons where
  store := (({} : Store).putResource staying.key staying).putResource leaving.key leaving

/-- A pass over the tenant that stays has created its master and is still under way, while no pass
over the other one is. -/
theorem exists_controlled_master :
    ∃ w n o, Commons.Run (fun _ _ => False) Commons.shared w ∧ w.passes leaving.key = none ∧
      w.store.resource? leaving.key = some n ∧ n.isDeleting = true ∧ n.hasFinalizer = true ∧
      Component.master ∈ teardownComponents n.spec ∧
      w.store.object? (Component.master.place "gpu") = some o ∧
      o.isControlledBy staying = true := by
  let s := Commons.shared.store
  have hstaying : s.resource? staying.key = some (staying.withVersion "1") := rfl
  have hleaving : s.resource? leaving.key = some (leaving.withVersion "2") := rfl
  have hne : leaving.key ≠ staying.key := by decide
  have hfin : (staying.withVersion "1").hasFinalizer = true := by decide
  obtain ⟨o, hdesired⟩ :=
    Component.exists_desired (n := staying.withVersion "1") rfl .master "gpu"
  have hkey : (o.recordHash o.contentHash).key = Component.master.place "gpu" :=
    (ManagedObject.key_recordHash _ _).trans (Component.desired_key hdesired)
  have hpass : (passOver {} ⟨0, 0⟩ (staying.withVersion "1") "a" "gpu").Asks
      [found "gpu" .master none] (.create (o.recordHash o.contentHash)) := by
    rw [passOver, if_neg (by decide), if_pos hfin]
    exact Program.asks_bind_iff.mpr (.inl (Component.asks_settle_create hdesired))
  have hasks : (reconcile {} ⟨0, 0⟩ (World.trigger staying.key)).Asks
      [⟨.getResource "a" "gpu", .ok (some (staying.withVersion "1"))⟩, found "gpu" .master none]
      (.create (o.recordHash o.contentHash)) :=
    asks_reconcile_of_read rfl hpass
  have howner : o.isControlledBy (staying.withVersion "1") = true :=
    Component.isControlledBy_of_built hdesired
  have habsent : s.object? (Component.master.place "gpu") = none := rfl
  obtain ⟨p, hrun⟩ := Commons.Run.of_pass_served (w := Commons.shared) (fun _ _ => False) {} ⟨0, 0⟩
    rfl hasks (.cons (.of_resource? hstaying) (.cons (.of_object? habsent) (.nil _)))
  have hcreate : s.create (o.recordHash o.contentHash) =
      (.ok (), s.putObject (Component.master.place "gpu") (o.recordHash o.contentHash)) := by
    rw [← hkey] at habsent ⊢
    exact Store.create_of_absent habsent
  have hstore : (s.respond (.create (o.recordHash o.contentHash))).2 =
      s.putObject (Component.master.place "gpu") (o.recordHash o.contentHash) :=
    congrArg Prod.snd hcreate
  refine ⟨_, leaving.withVersion "2", (o.recordHash o.contentHash).withVersion s.nextVersion, hrun,
    ?_, ?_, rfl, ?_, ?_, ?_, howner⟩
  · simp [hne, Commons.shared]
  · exact (congrArg (Store.resource? leaving.key) hstore).trans hleaving
  · decide
  · decide
  · exact (congrArg (Store.object? (Component.master.place "gpu")) hstore).trans
      (Store.object?_putObject_self _ _ s)

/-- The master of the tenant that stays is deleted: while the pass that has created it is still
under way, a pass over the other tenant comes to its deletion. -/
theorem controlled_object_deleted :
    ∃ w p o, Commons.Run (fun _ _ => False) Commons.shared w ∧
      w.passes leaving.key = some p ∧
      p.Asks (.delete Component.master.kind Component.master.name "gpu") ∧
      w.store.object? (Component.master.place "gpu") = some o ∧
      o.isControlledBy staying = true ∧ staying.ns = leaving.ns ∧
      staying.metadata.uid ≠ leaving.metadata.uid := by
  obtain ⟨w, n, o, hrun, hidle, hn, hdel, hfin, hmaster, ho, howner⟩ := exists_controlled_master
  obtain ⟨t, s', hasks, hserves, hsame⟩ := exists_asks_delete hn hdel hfin hmaster
  have hdeletion := Commons.Run.of_pass (fun _ _ => False) {} ⟨0, 0⟩ hidle hasks hserves
  exact ⟨_, ⟨{}, ⟨0, 0⟩, World.trigger leaving.key, t⟩, o, hrun.trans hdeletion,
    by simp, hasks, hsame.trans ho, howner, rfl, by decide⟩

/-- In the commons of the two tenants, once the one that stays has its master, the next pass over
the other one can delete it. -/
theorem controlled_object_deleted_iff_shared :
    ∃ w, (∀ key, Commons.shared.passes key = none) ∧
      Commons.Run (fun _ _ => False) Commons.shared w ∧ w.passes leaving.key = none ∧
      DeletesControlled staying leaving.key .master w.store := by
  obtain ⟨w, n, o, hrun, hidle, hn, hdel, hfin, hmaster, ho, howner⟩ := exists_controlled_master
  refine ⟨w, fun _ => rfl, hrun, hidle, ?_⟩
  have hiff := (controlled_object_deleted_iff (fun _ => rfl) hrun leaving.key).2 hidle staying
  exact (hiff .master).mpr ⟨n, o, hn, hdel, hfin, ho, howner, .inl hmaster⟩

end NodeFeatureOperator
