import NodeFeatureOperator.Proofs.World

/-!
# What is left behind after a release

A world starts with a resource and nothing else. Whatever the others do to the objects and to the
resource, as long as they create no components of their own and leave the finalizer to the operator,
a resource without the finalizer has no components left. The one exception comes from the desired
state: a teardown passes over the topology updater where it is not asked for, so one that earlier
passes created for an older desired state stays.

## Main definitions

* `Bystander`: what others may do to the store.
* `Underway`, `Accounted`: what is known of a pass, and of a world.

## Main results

* `Accounted.step`: every step keeps what is known.
* `no_component_left`: components that are left after a release.
* `topologyUpdater_left`: a topology updater is left behind.
-/

namespace NodeFeatureOperator

open Component (deleted found)

/-- What others may do: anything but create components of the operator or take its finalizer off. -/
structure Bystander (key : ResourceKey) (s s' : Store) : Prop where
  objects : ∀ c ∈ Component.teardownOrder, ∀ ns,
    s.object? (c.place ns) = none → s'.object? (c.place ns) = none
  finalizer : s.guarded key = true → s'.guarded key = true

/-- What is known while a pass is under way: whose pass it is, that a component is still gone which
the pass has not found and not created since, and that a finalizer is still there which the pass
has seen and not taken off since. -/
structure Underway (key : ResourceKey) (s : Store) (p : Attempt) : Prop where
  trigger : p.trigger.anyName = key.name ∧ p.trigger.ns = some key.ns
  gone : ∀ c ∈ Component.teardownOrder, ∀ t t', p.past = t ++ found key.ns c none :: t' →
    (∀ e ∈ t', ∀ o, e.call = .create o → o.key ≠ c.place key.ns) →
    s.object? (c.place key.ns) = none
  guarded : ∀ n t, p.past = ⟨.getResource key.name key.ns, .ok (some n)⟩ :: t →
    n.hasFinalizer = true → (∀ e ∈ t, ∀ m, e.call ≠ .updateResource m) → s.guarded key = true

namespace Underway

variable {key : ResourceKey} {s s' : Store} {p : Attempt}

/-- Others do not touch what a pass relies on. -/
theorem mono (h : Underway key s p) (hs : Bystander key s s') : Underway key s' p where
  trigger := h.trigger
  gone c hc t t' ht hcreate := hs.objects c hc key.ns (h.gone c hc t t' ht hcreate)
  guarded n t ht hn hwrite := hs.finalizer (h.guarded n t ht hn hwrite)

/-- What is known of a pass takes in the answer to its next call. -/
theorem heard (h : Underway key s p) {call : Call} {answer : Except Failure call.Answer}
    (hserves : s.Serves call answer s') : Underway key s' (p.heard ⟨call, answer⟩) where
  trigger := h.trigger
  gone c hc t t' ht hcreate := by
    obtain ⟨rfl, he⟩ | ⟨t', rfl, hpast⟩ := Attempt.heard_past_split ht
    · -- the look-up is the call that was just answered
      obtain ⟨rfl, hanswer⟩ := Exchange.mk.inj he
      obtain rfl := eq_of_heq hanswer
      obtain ⟨rfl, hnone⟩ := hserves.object?_of_get
      exact hnone
    · have hbefore : s.object? (c.place key.ns) = none :=
        h.gone c hc t t' hpast fun e he => hcreate e (List.mem_append_left _ he)
      exact hserves.object?_eq_none hbefore (hcreate ⟨call, answer⟩ (by simp))
  guarded n t ht hn hwrite := by
    obtain ⟨rfl, hread⟩ | ⟨t, rfl, hpast⟩ := Attempt.stored_or_read_before hserves ht
    · exact (Store.guarded_eq hread).trans hn
    · have hbefore : s.guarded key = true :=
        h.guarded n t hpast hn fun e he => hwrite e (List.mem_append_left _ he)
      obtain hguarded | ⟨m, hcall, -⟩ := hserves.guarded hbefore
      · exact hguarded
      · exact absurd hcall (hwrite ⟨call, answer⟩ (by simp) m)

/-- A pass creates components of its own namespace, and that while the finalizer is there. -/
theorem create (h : Underway key s p) {o : ManagedObject} (ho : p.Asks (.create o)) :
    s.guarded key = true ∧ ∃ c : Component, o.key = c.place key.ns := by
  obtain ⟨ns, n, rest, hns, hpast, hfin, hrest, c, hc⟩ := asks_create ho
  obtain rfl : key.ns = ns := Option.some.inj (h.trigger.2.symm.trans hns)
  rw [h.trigger.1] at hpast
  exact ⟨h.guarded n rest hpast hfin hrest, c, hc⟩

/-- When a pass takes the finalizer off, the components that the desired state in that write tears
down are gone. -/
theorem release (h : Underway key s p) {m : NodeFeatureDiscovery}
    (hm : p.Asks (.updateResource m)) (hfin : m.hasFinalizer = false) :
    ∀ c ∈ teardownComponents m.spec, s.object? (c.place key.ns) = none := by
  intro c hc
  obtain ⟨ns, hns, ⟨-, hcall⟩ | ⟨n, rest, hpast, hpass⟩⟩ := asks_reconcile hm
  · cases hcall
  obtain rfl : key.ns = ns := Option.some.inj (h.trigger.2.symm.trans hns)
  obtain ⟨-, -, rfl, pruning, rfl, hdone⟩ := asks_release hpass hfin
  have hfound : found key.ns c none ∈ TornDown n.spec key.ns :=
    List.mem_append_right _ (List.mem_map_of_mem hc)
  obtain ⟨t, t', ht⟩ := List.append_of_mem hfound
  have horder : c ∈ Component.teardownOrder := (List.mem_filter.mp hc).1
  refine h.gone c horder (⟨.getResource p.trigger.anyName key.ns, .ok (some n)⟩ :: t)
    (t' ++ pruning) (by simp [hpast, ht]) fun e he o hcreate => ?_
  -- a teardown creates nothing but the prune Job
  have hcall : TeardownCall key.ns e.call := by
    obtain he | he := List.mem_append.mp he
    · exact teardownCall_of_mem_tornDown (ht ▸ List.mem_append_right t (.tail _ he))
    · exact hdone.teardownCall e he
  rw [hcreate] at hcall
  cases hcall with
  | create hkey =>
      rw [hkey]
      intro hplace
      exact (mem_teardownComponents.mp hc).1 (Component.place_injective hplace).1.symm

end Underway

/-- What is known of a world: there are no components in namespaces other than that of the resource,
and without the finalizer there are none there either, the topology updater excepted where the last
release did not ask for it. -/
structure Accounted (key : ResourceKey) (w : World) : Prop where
  elsewhere : ∀ c ∈ Component.teardownOrder, ∀ ns, ns ≠ key.ns →
    w.store.object? (c.place ns) = none
  underway : ∀ p, w.pass = some p → Underway key w.store p
  cleared : w.store.guarded key = false → ∀ c ∈ Component.teardownOrder,
    (c = .topologyUpdater → ∀ s, w.release = some s → s.topologyUpdater = true) →
    w.store.object? (c.place key.ns) = none

namespace Accounted

variable {key : ResourceKey} {w w' : World}

/-- All is accounted for where there is nothing but a resource. -/
theorem start (n : NodeFeatureDiscovery) : Accounted n.key (World.start n) where
  elsewhere _ _ _ _ := rfl
  underway p hp := by cases hp
  cleared _ _ _ _ := rfl

/-- Calls keep the components of other namespaces away. -/
theorem elsewhere_call (h : Accounted key w) {p : Attempt} {call : Call}
    {answer : Except Failure call.Answer} {store : Store} (hp : w.pass = some p)
    (hasks : p.Asks call) (hserves : w.store.Serves call answer store) :
    ∀ c ∈ Component.teardownOrder, ∀ ns, ns ≠ key.ns → store.object? (c.place ns) = none := by
  intro c hc ns hns
  refine hserves.object?_eq_none (h.elsewhere c hc ns hns) ?_
  rintro o rfl hkey
  obtain ⟨-, d, hd⟩ := (h.underway p hp).create hasks
  exact hns (Component.place_injective (hkey.symm.trans hd)).2

/-- After a call the components are gone if the finalizer is: the call took it off at the end of a
teardown, or it was off before and the call creates nothing. -/
theorem cleared_call (h : Accounted key w) {p : Attempt} {call : Call}
    {answer : Except Failure call.Answer} {store : Store} (hp : w.pass = some p)
    (hasks : p.Asks call) (hserves : w.store.Serves call answer store)
    (hfree : store.guarded key = false) {c : Component} (hc : c ∈ Component.teardownOrder)
    (htopology : c = .topologyUpdater → ∀ s, w.releaseAfter key store call = some s →
      s.topologyUpdater = true) : store.object? (c.place key.ns) = none := by
  have hunderway : Underway key w.store p := h.underway p hp
  cases hguarded : w.store.guarded key with
  | true =>
      obtain hkept | ⟨m, rfl, hm⟩ := hserves.guarded hguarded
      · rw [hfree] at hkept
        cases hkept
      have hgone : w.store.object? (c.place key.ns) = none := by
        refine hunderway.release hasks hm c (mem_teardownComponents.mpr ⟨?_, fun htop => ?_⟩)
        · rintro rfl
          simp [Component.teardownOrder] at hc
        · exact htopology htop m.spec (by simp [World.releaseAfter, hguarded, hfree])
      exact hserves.object?_eq_none hgone (by simp)
  | false =>
      have hrelease : w.releaseAfter key store call = w.release := by
        cases call <;> simp [World.releaseAfter, hguarded]
      rw [hrelease] at htopology
      refine hserves.object?_eq_none (h.cleared hguarded c hc htopology) ?_
      rintro o rfl
      rw [(hunderway.create hasks).1] at hguarded
      cases hguarded

/-- Every step keeps what is known of a world. -/
theorem step (h : Accounted key w) (hstep : World.Step (Bystander key) key w w') :
    Accounted key w' := by
  cases hstep with
  | begin config time trigger hidle hname hns =>
      refine { h with underway := ?_ }
      intro p hp
      obtain rfl := Option.some.inj hp
      refine ⟨⟨hname, hns⟩, fun c _ t t' ht => ?_, fun n t ht => ?_⟩
      · simp at ht
      · cases ht
  | call hp hasks hserves =>
      refine ⟨h.elsewhere_call hp hasks hserves, ?_, fun hfree c hc htopology => ?_⟩
      · intro p' hp'
        obtain rfl := Option.some.inj hp'
        exact (h.underway _ hp).heard hserves
      · exact h.cleared_call hp hasks hserves hfree hc htopology
  | stop => exact { h with underway := by simp }
  | others hothers =>
      refine ⟨fun c hc ns hns => hothers.objects c hc ns (h.elsewhere c hc ns hns),
        fun p hp => (h.underway p hp).mono hothers, fun hfree c hc htopology => ?_⟩
      refine hothers.objects c hc key.ns (h.cleared ?_ c hc htopology)
      refine Bool.eq_false_iff.mpr fun hguarded => ?_
      rw [hothers.finalizer hguarded] at hfree
      cases hfree

end Accounted

/-- In a run that starts with nothing but a resource, once the resource is gone or without the
operator's finalizer, no component is left, in any namespace. Only a topology updater may be left,
and only if the desired state with which the finalizer was taken off did not ask for one. -/
theorem no_component_left {n : NodeFeatureDiscovery} {w : World}
    (hrun : World.Run (Bystander n.key) n.key (World.start n) w)
    (hfree : w.store.guarded n.key = false) {c : Component}
    (hc : c ∈ Component.teardownOrder)
    (htopology : c = .topologyUpdater → ∀ s, w.release = some s → s.topologyUpdater = true)
    (ns : String) : w.store.object? (c.place ns) = none := by
  have hall : Accounted n.key w := hrun.invariant (.start n) Accounted.step
  by_cases hns : ns = n.key.ns
  · subst hns
    exact hall.cleared hfree c hc htopology
  · exact hall.elsewhere c hc ns hns

/-! ### A topology updater that is left behind -/

/-- A resource that asks for the topology updater, held by a finalizer of another owner too. -/
def held : NodeFeatureDiscovery where
  metadata := { name := some "nfd", ns := some "gpu", uid := some "7",
                finalizers := some [NodeFeatureDiscovery.finalizer, "example.com/hold"] }
  spec := { topologyUpdater := true }

/-- The same resource, edited and then on its way out. -/
def heldDeparting (flag : Bool) : NodeFeatureDiscovery :=
  { held with
    metadata := { held.metadata with deletionTimestamp := some ⟨0, 0⟩ }
    spec := { held.spec with topologyUpdater := flag } }

/-- A first pass over the resource, cut short after the creation of the topology updater. -/
theorem exists_topologyUpdater :
    ∃ s release, World.Run (Bystander held.key) held.key (World.start held) ⟨s, none, release⟩ ∧
      s.resource? held.key = some (held.withVersion "1") ∧
      (s.object? (Component.topologyUpdater.place "gpu")).isSome = true := by
  have hread : (World.start held).store.resource? held.key = some (held.withVersion "1") := rfl
  obtain ⟨o, ho, hasks⟩ := asks_create_topologyUpdater {} ⟨0, 0⟩ (World.trigger held.key)
    (n := held.withVersion "1") rfl rfl (by decide) rfl rfl Store.conflict
  obtain ⟨release, hrun⟩ := World.Run.of_pass (w := World.start held) _ {} ⟨0, 0⟩ rfl hasks
    (.cons (.of_resource? hread) (.cons (.refused _ _) (.cons (.refused _ _)
      (.cons (.of_object? rfl) (.nil _)))))
  refine ⟨(World.start held).store.putObject o.key o, _,
    (hrun.tail (.call rfl hasks (.served _))).tail .stop, hread, ?_⟩
  have hplace : Component.topologyUpdater.place "gpu" = o.key := ho.symm
  rw [hplace, Store.object?_putObject_self]
  rfl

/-- After that the resource is edited and its deletion requested, and a second pass tears it down
and takes the finalizer off. -/
theorem exists_release (flag : Bool) :
    ∃ w n s, World.Run (Bystander held.key) held.key (World.start held) w ∧
      w.store.resource? held.key = some n ∧ n.isDeleting = true ∧ n.hasFinalizer = false ∧
      w.release = some s ∧ s.topologyUpdater = flag ∧
      (flag = false → (w.store.object? (Component.topologyUpdater.place "gpu")).isSome = true) := by
  obtain ⟨s, release, hrun, hread, htopology⟩ := exists_topologyUpdater
  have hfin : (heldDeparting flag).hasFinalizer = true := by
    revert flag
    decide
  have hheld : Store.isReleased (heldDeparting flag).removeFinalizer = false := by
    revert flag
    decide
  -- the others write the resource as it is on its way out
  have hread' : (s.putResource held.key (heldDeparting flag)).resource? held.key =
      some ((heldDeparting flag).withVersion s.nextVersion) :=
    Store.resource?_putResource_self _ _ s
  have hothers : Bystander held.key s (s.putResource held.key (heldDeparting flag)) :=
    ⟨fun _ _ _ h => h, fun _ => (Store.guarded_eq hread').trans hfin⟩
  obtain ⟨w, version, hrun', hrelease, hgone, hleft⟩ := World.Run.of_release
    (n := (heldDeparting flag).withVersion s.nextVersion)
    (w := ⟨s.putResource held.key (heldDeparting flag), none, release⟩) (Bystander held.key)
    {} ⟨0, 0⟩ rfl hread' rfl hfin rfl hheld
  refine ⟨w, _, _, (hrun.tail (.others hothers)).trans hrun', hgone, rfl, ?_, hrelease, rfl, ?_⟩
  · rw [NodeFeatureDiscovery.hasFinalizer_withVersion,
      NodeFeatureDiscovery.hasFinalizer_removeFinalizer]
  · rintro rfl
    have hnot : Component.topologyUpdater ∉ teardownComponents (heldDeparting false).spec := by
      decide
    exact (congrArg Option.isSome (hleft .topologyUpdater hnot)).trans htopology

/-- The exception cannot be dropped: a topology updater is left behind by a release that did not ask
for it, although deletion was requested and no one else created it. -/
theorem topologyUpdater_left :
    ∃ w n, World.Run (Bystander held.key) held.key (World.start held) w ∧
      w.store.resource? held.key = some n ∧ n.isDeleting = true ∧ n.hasFinalizer = false ∧
      (w.store.object? (Component.topologyUpdater.place "gpu")).isSome = true := by
  obtain ⟨w, n, s, hrun, hread, hdel, hfin, -, -, hleft⟩ := exists_release false
  exact ⟨w, n, hrun, hread, hdel, hfin, hleft rfl⟩

/-- With the flag still on, the release leaves no topology updater. -/
theorem no_component_left_held :
    ∃ w, World.Run (Bystander held.key) held.key (World.start held) w ∧
      w.store.guarded held.key = false ∧
      (∀ s, w.release = some s → s.topologyUpdater = true) ∧
      w.store.object? (Component.topologyUpdater.place "gpu") = none := by
  obtain ⟨w, n, s, hrun, hread, -, hfin, hrelease, hflag, -⟩ := exists_release true
  have hfree : w.store.guarded held.key = false := (Store.guarded_eq hread).trans hfin
  have htopology : ∀ s, w.release = some s → s.topologyUpdater = true := by
    intro s' hs'
    rw [hrelease] at hs'
    obtain rfl := Option.some.inj hs'
    exact hflag
  exact ⟨w, hrun, hfree, htopology,
    no_component_left hrun hfree (by decide) (fun _ => htopology) "gpu"⟩

end NodeFeatureOperator
