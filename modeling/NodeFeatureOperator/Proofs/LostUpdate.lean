import NodeFeatureOperator.Proofs.Conflict
import NodeFeatureOperator.Proofs.SteadyState
import NodeFeatureOperator.Proofs.Versions

/-!
# No lost updates

A pass writes what it has read, changed, under the version that it has read. On a store that checks
versions the write is accepted only if what was read is still there, and then nothing has been
written in between. Otherwise the write is rejected, and the pass says so.

## Main definitions

* `World.Traced`: every answer that the pass under way has had was given by an earlier store.
* `World.Since`: what holds of the store from an answer on.

## Main results

* `World.Traced.step`: every step keeps it so.
* `no_lost_update`: what an accepted write replaces, and what comes of a rejected one.
-/

namespace NodeFeatureOperator

open Component (found)

/-! ### Where answers come from -/

/-- An earlier store has answered the call. -/
def Store.Answered (s : Store) (e : Exchange) : Prop :=
  ∃ s₁ s₂ : Store, s₁.Versioned ∧ s₁.Serves e.call e.answer s₂ ∧ s₁.Later s

namespace Store.Answered

variable {s s' now : Store} {c : Component} {ns : String} {o o' : ManagedObject}
  {key : ResourceKey} {n n' : NodeFeatureDiscovery}

/-- An object that was found is the only one of its version, and lay at its place. -/
theorem object_eq (h : s.Answered (found ns c (some o)))
    (ho' : s.object? (c.place ns) = some o')
    (hversion : o'.metadata.resourceVersion = o.metadata.resourceVersion) : o' = o := by
  obtain ⟨s₁, s₂, hs₁, hserves, hlater⟩ := h
  have ho : s₁.object? (c.place ns) = some o := hserves.object?_of_get.2
  exact hs₁.objects.eq_of_version hlater.objects ho ho' hversion

/-- An object that was found lay under its own key. -/
theorem object_key (h : s.Answered (found ns c (some o))) : o.key = c.place ns := by
  obtain ⟨s₁, s₂, hs₁, hserves, -⟩ := h
  have ho : s₁.object? (c.place ns) = some o := hserves.object?_of_get.2
  exact hs₁.object_key ho

/-- An object that was found, and is there later on, has been there in between. -/
theorem object_before (h : now.Answered (found ns c (some o))) (hlater : now.Later s)
    (ho : s.object? (c.place ns) = some o) : now.object? (c.place ns) = some o := by
  obtain ⟨s₁, s₂, hs₁, hserves, hnow⟩ := h
  have hfirst : s₁.object? (c.place ns) = some o := hserves.object?_of_get.2
  exact hs₁.objects.before hlater.objects hnow.revision hfirst ho

/-- A resource that was read is the only one of its version, and lay at its place. -/
theorem resource_eq (h : s.Answered ⟨.getResource key.name key.ns, .ok (some n)⟩)
    (hn' : s.resource? key = some n')
    (hversion : n'.metadata.resourceVersion = n.metadata.resourceVersion) : n' = n := by
  obtain ⟨s₁, s₂, hs₁, hserves, hlater⟩ := h
  have hn : s₁.resource? key = some n := hserves.resource?_of_getResource.2
  exact hs₁.resources.eq_of_version hlater.resources hn hn' hversion

/-- A resource that was read lay under its own key. -/
theorem resource_key (h : s.Answered ⟨.getResource key.name key.ns, .ok (some n)⟩) :
    n.key = key := by
  obtain ⟨s₁, s₂, hs₁, hserves, -⟩ := h
  have hn : s₁.resource? key = some n := hserves.resource?_of_getResource.2
  exact hs₁.resource_key hn

/-- A resource that was read, and is there later on, has been there in between. -/
theorem resource_before (h : now.Answered ⟨.getResource key.name key.ns, .ok (some n)⟩)
    (hlater : now.Later s) (hn : s.resource? key = some n) : now.resource? key = some n := by
  obtain ⟨s₁, s₂, hs₁, hserves, hnow⟩ := h
  have hfirst : s₁.resource? key = some n := hserves.resource?_of_getResource.2
  exact hs₁.resources.before hlater.resources hnow.revision hfirst hn

end Store.Answered

namespace World

variable {key : ResourceKey} {w₀ w w' : World}

/-- What is known of a world among other clients: its store has come about by writes and removals,
and so has all that the pass under way was answered. -/
structure Traced (key : ResourceKey) (w : World) : Prop where
  versioned : w.store.Versioned
  named : w.Named key
  answered : ∀ p, w.pass = some p → ∀ e ∈ p.past, w.store.Answered e

/-- Where no pass is under way, all that there is to know is of the store. -/
theorem Traced.of_idle (hs : w.store.Versioned) (hidle : w.pass = none) : w.Traced key :=
  ⟨hs, by simp [Named, hidle], by simp [hidle]⟩

/-- Every step keeps what is known. -/
theorem Traced.step (h : w.Traced key) (hstep : Step Store.Later key w w') : w'.Traced key := by
  have hlater : w.store.Later w'.store := hstep.later h.versioned
  refine ⟨h.versioned.trans hlater, h.named.step hstep, fun p' hp' e he => ?_⟩
  -- what was answered before was answered by an earlier store then, and so it was now
  have hbefore : ∀ p, w.pass = some p → e ∈ p.past → w'.store.Answered e := by
    intro p hp he
    obtain ⟨s₁, s₂, hs₁, hserves, hnow⟩ := h.answered p hp e he
    exact ⟨s₁, s₂, hs₁, hserves, hnow.trans hlater⟩
  cases hstep with
  | begin =>
      obtain rfl := Option.some.inj hp'
      cases he
  | @call p call answer store hp _ hserves =>
      obtain rfl := Option.some.inj hp'
      obtain he | he := List.mem_append.mp he
      · exact hbefore p hp he
      · obtain rfl := List.mem_singleton.mp he
        exact ⟨w.store, store, h.versioned, hserves, hlater⟩
  | stop => cases hp'
  | others => exact hbefore p' hp' he

/-- On the way from one world to another, wherever the pass under way had the exchange `e` behind
it, `P` held of the store. -/
def Since (key : ResourceKey) (w₀ w : World) (e : Exchange) (P : Store → Prop) : Prop :=
  ∀ w₁ p₁, Run Store.Later key w₀ w₁ → Run Store.Later key w₁ w → w₁.pass = some p₁ →
    e ∈ p₁.past → P w₁.store

/-- An object that a pass has found, and that is still there, has been there since. -/
theorem since_object {c : Component} {o : ManagedObject} (h₀ : w₀.Traced key)
    (ho : w.store.object? (c.place key.ns) = some o) :
    Since key w₀ w (found key.ns c (some o)) fun s => s.object? (c.place key.ns) = some o := by
  intro w₁ p₁ hrun₁ hrun hp₁ he
  have h₁ : w₁.Traced key := hrun₁.invariant h₀ Traced.step
  exact (h₁.answered p₁ hp₁ _ he).object_before (hrun.later h₁.versioned) ho

/-- A resource that a pass has read, and that is still there, has been there since. -/
theorem since_resource {n : NodeFeatureDiscovery} (h₀ : w₀.Traced key)
    (hn : w.store.resource? key = some n) :
    Since key w₀ w ⟨.getResource key.name key.ns, .ok (some n)⟩
      fun s => s.resource? key = some n := by
  intro w₁ p₁ hrun₁ hrun hp₁ he
  have h₁ : w₁.Traced key := hrun₁.invariant h₀ Traced.step
  exact (h₁.answered p₁ hp₁ _ he).resource_before (hrun.later h₁.versioned) hn

end World

/-! ### Accepted and rejected writes -/

section Writes

variable {key : ResourceKey} {w₀ w : World} {p : Attempt}

/-- An update that the store accepts replaces the object that the pass has just looked up. -/
theorem World.Traced.update_ok (h : w.Traced key) (hp : w.pass = some p) {o : ManagedObject}
    {s' : Store} (hasks : p.Asks (.update o))
    (hok : w.store.respond (.update o) = (.ok (), s')) :
    ∃ c live t, p.past = t ++ [found key.ns c (some live)] ∧ o.key = c.place key.ns ∧
      w.store.object? (c.place key.ns) = some live ∧ s' = w.store.putObject o.key o := by
  obtain ⟨ns, n, c, live, built, hash, t, hns, hpast, hbuilt, rfl⟩ := asks_update hasks
  obtain rfl : key.ns = ns := Option.some.inj ((h.named p hp).2.symm.trans hns)
  have hanswered : w.store.Answered (found key.ns c (some live)) :=
    h.answered p hp _ (by simp [hpast])
  have hkey : (built.recordHash hash).key = c.place key.ns :=
    (ManagedObject.key_recordHash _ _).trans (Component.built_key hbuilt hanswered.object_key)
  obtain ⟨stored, hstored, hversion, hafter⟩ := Store.exists_of_update_ok hok
  rw [hkey] at hstored
  have hsame : (built.recordHash hash).metadata.resourceVersion = live.metadata.resourceVersion :=
    show built.metadata.resourceVersion = _ from Component.built_resourceVersion hbuilt
  obtain rfl := hanswered.object_eq hstored (hversion.trans hsame)
  exact ⟨c, stored, t, hpast, hkey, hstored, hafter⟩

/-- An update of a resource that the store accepts replaces the resource that the pass has read. -/
theorem World.Traced.updateResource_ok (h : w.Traced key) (hp : w.pass = some p)
    {m n' : NodeFeatureDiscovery} {s' : Store} (hasks : p.Asks (.updateResource m))
    (hok : w.store.respond (.updateResource m) = (.ok n', s')) :
    ∃ n t, p.past = ⟨.getResource key.name key.ns, .ok (some n)⟩ :: t ∧ m.key = key ∧
      (m = n.addFinalizer ∨ m = n.removeFinalizer) ∧ w.store.resource? key = some n := by
  obtain ⟨hname, htrigger⟩ := h.named p hp
  obtain ⟨ns, n, t, hns, hpast, hedit⟩ := asks_updateResource hasks
  have hm : m = n.addFinalizer ∨ m = n.removeFinalizer := hedit.imp (·.2.2) (·.2.2)
  obtain rfl : key.ns = ns := Option.some.inj (htrigger.symm.trans hns)
  rw [hname] at hpast
  have hanswered : w.store.Answered ⟨.getResource key.name key.ns, .ok (some n)⟩ :=
    h.answered p hp _ (by simp [hpast])
  -- neither key nor version depends on the finalizers
  have hkey : m.key = key := by
    obtain rfl | rfl := hm <;> exact hanswered.resource_key
  have hsame : m.metadata.resourceVersion = n.metadata.resourceVersion := by
    obtain rfl | rfl := hm <;> rfl
  obtain ⟨stored, hstored, hversion⟩ := Store.exists_of_updateResource_ok hok
  rw [hkey] at hstored
  obtain rfl := hanswered.resource_eq hstored (hversion.trans hsame)
  exact ⟨stored, t, hpast, hkey, hm, hstored⟩

/-- A conflict is a rejection that may pass. -/
theorem Store.isRetryable_conflict : Store.conflict.isRetryable = true := by decide

/-- A write that carries a version, and that the store rejects with a conflict, leaves the store as
it is. The pass comes to an end after that, and however it does, it ends with a failure that is
worth a retry. -/
theorem Attempt.reports_conflict {s s' : Store} {call : Call} (hasks : p.Asks call)
    (hguarded : call.isGuarded = true) (hconflict : s.respond call = (.error Store.conflict, s')) :
    s' = s ∧
      (∃ t r, (reconcile p.config p.time p.trigger).Ends
        (p.past ++ ⟨call, .error Store.conflict⟩ :: t) r) ∧
      ∀ t r, (reconcile p.config p.time p.trigger).Ends
        (p.past ++ ⟨call, .error Store.conflict⟩ :: t) r →
        ∃ f, r = .error f ∧ f.isRetryable = true := by
  refine ⟨Store.respond_of_error hconflict, hasks.exists_ends _, fun t r hends => ?_⟩
  refine reports_reconcile p.config p.time p.trigger _ r hends ⟨⟨call, .error Store.conflict⟩, ?_⟩
  exact ⟨by simp, hguarded, Store.conflict, rfl, Store.isRetryable_conflict⟩

/-- **No lost update.** A pass among other clients, which may write and remove between any two of
its calls, on a store that gives every write a version of its own and checks the version of an
update. An update that is accepted replaces the object that the pass has looked up, or the resource
that it has read, and nothing was written there since. One that is rejected with a conflict leaves
the store as it is, and the pass ends with a failure that is worth a retry. -/
theorem no_lost_update (hs : w₀.store.Versioned) (hidle : w₀.pass = none)
    (hrun : World.Run Store.Later key w₀ w) (hp : w.pass = some p) :
    (∀ o s', p.Asks (.update o) → w.store.respond (.update o) = (.ok (), s') →
      ∃ c live t, p.past = t ++ [found key.ns c (some live)] ∧ o.key = c.place key.ns ∧
        w.store.object? (c.place key.ns) = some live ∧ s' = w.store.putObject o.key o ∧
        World.Since key w₀ w (found key.ns c (some live))
          fun s => s.object? (c.place key.ns) = some live) ∧
    (∀ m n' s', p.Asks (.updateResource m) →
      w.store.respond (.updateResource m) = (.ok n', s') →
      ∃ n t, p.past = ⟨.getResource key.name key.ns, .ok (some n)⟩ :: t ∧ m.key = key ∧
        (m = n.addFinalizer ∨ m = n.removeFinalizer) ∧ w.store.resource? key = some n ∧
        World.Since key w₀ w ⟨.getResource key.name key.ns, .ok (some n)⟩
          fun s => s.resource? key = some n) ∧
    ∀ call s', p.Asks call → call.isGuarded = true →
      w.store.respond call = (.error Store.conflict, s') →
      s' = w.store ∧
        (∃ t r, (reconcile p.config p.time p.trigger).Ends
          (p.past ++ ⟨call, .error Store.conflict⟩ :: t) r) ∧
        ∀ t r, (reconcile p.config p.time p.trigger).Ends
          (p.past ++ ⟨call, .error Store.conflict⟩ :: t) r →
          ∃ f, r = .error f ∧ f.isRetryable = true := by
  have h₀ : w₀.Traced key := .of_idle hs hidle
  have h : w.Traced key := hrun.invariant h₀ World.Traced.step
  refine ⟨fun o s' hasks hok => ?_, fun m n' s' hasks hok => ?_,
    fun call s' hasks hguarded hc => ?_⟩
  · obtain ⟨c, live, t, hpast, hkey, hlive, hafter⟩ := h.update_ok hp hasks hok
    exact ⟨c, live, t, hpast, hkey, hlive, hafter, World.since_object h₀ hlive⟩
  · obtain ⟨n, t, hpast, hkey, hm, hn⟩ := h.updateResource_ok hp hasks hok
    exact ⟨n, t, hpast, hkey, hm, hn, World.since_resource h₀ hn⟩
  · exact Attempt.reports_conflict hasks hguarded hc

end Writes

/-! ### A pass that is overtaken -/

/-- A pass over the occupied store replaces the configuration that it has found there. Where another
client writes the configuration first, its update is a conflict, and the pass fails so that it is
tried again. -/
theorem no_lost_update_occupied :
    ∃ (p : Attempt) (o live : ManagedObject),
      p.past.getLast? = some (found "gpu" .workerConfig (some live)) ∧ p.Asks (.update o) ∧
      (∃ s', Store.occupied.respond (.update o) = (.ok (), s') ∧
        ∃ c live' t, p.past = t ++ [found "gpu" c (some live')] ∧
          Store.occupied.object? (c.place "gpu") = some live' ∧
          s' = Store.occupied.putObject o.key o) ∧
      ∃ s' : Store, s' = Store.occupied.putObject live.key live ∧
        s'.respond (.update o) = (.error Store.conflict, s') ∧
        ∀ t r, (reconcile p.config p.time p.trigger).Ends
          (p.past ++ ⟨.update o, .error Store.conflict⟩ :: t) r →
          ∃ f, r = .error f ∧ f.isRetryable = true := by
  let n := installed.withVersion "1"
  obtain ⟨live, built, hlive, hbuilt, hunhashed, hversion⟩ : ∃ live built,
      Store.occupied.object? (Component.workerConfig.place "gpu") = some live ∧
        Component.workerConfig.built n live = .ok built ∧ live.recordedHash = none ∧
        live.metadata.resourceVersion = some "2" := ⟨_, _, rfl, rfl, rfl, by decide⟩
  have hversioned : Store.occupied.Versioned :=
    (Store.later_putResource _ rfl).trans (Store.later_putObject _ rfl)
  have hlivekey : live.key = Component.workerConfig.place "gpu" := hversioned.object_key hlive
  obtain ⟨ref, href⟩ : ∃ ref, n.ownerReference? = some ref := ⟨_, rfl⟩
  obtain ⟨master, hmaster⟩ := Component.exists_desired href .master "gpu"
  obtain ⟨desired, hdesired⟩ := Component.exists_desired href .workerConfig "gpu"
  let o := built.recordHash desired.contentHash
  have hkey : built.key = Component.workerConfig.place "gpu" :=
    Component.built_key hbuilt hlivekey
  have hokey : o.key = Component.workerConfig.place "gpu" := hkey
  have hoversion : o.metadata.resourceVersion = some "2" :=
    (Component.built_resourceVersion hbuilt).trans hversion
  have hwrite : (Component.workerConfig.settle n "gpu").Asks
      [found "gpu" .workerConfig (some live)] (.update o) :=
    Component.asks_settle_update hdesired hbuilt (by simp [hunhashed])
  let p : Attempt :=
    { config := {}, time := ⟨0, 0⟩, trigger := World.trigger ⟨"gpu", "nfd"⟩
      past := [⟨.getResource "nfd" "gpu", .ok (some n)⟩,
        ⟨.get Component.master.kind Component.master.name "gpu", .error Store.conflict⟩,
        found "gpu" .workerConfig (some live)] }
  have hasks : p.Asks (.update o) :=
    asks_settle_workerConfig _ _ p.trigger rfl rfl (by decide) hmaster Store.conflict hwrite
  obtain ⟨release, hrun⟩ := World.Run.of_pass (w := { store := Store.occupied }) Store.Later
    p.config p.time rfl hasks (.cons (.of_resource? rfl) (.cons (.refused _ _)
      (.cons (.of_object? hlive) (.nil _))))
  have hovertaken := hrun.tail (.others (Store.later_putObject _ rfl :
    Store.occupied.Later (Store.occupied.putObject live.key live)))
  have hcurrent : Store.occupied.object? o.key = some live := by rw [hokey, hlive]
  have hok : Store.occupied.respond (.update o) = _ :=
    Store.update_of_current hcurrent (hversion.trans hoversion.symm)
  have hnext : some Store.occupied.nextVersion ≠ some "2" := by decide
  have hconflict : (Store.occupied.putObject live.key live).respond (.update o) =
      (.error Store.conflict, Store.occupied.putObject live.key live) := by
    have hstored := Store.object?_putObject_self live.key live Store.occupied
    rw [hlivekey.trans hokey.symm] at hstored ⊢
    exact Store.update_of_outdated hstored (hoversion.symm ▸ hnext)
  obtain ⟨c, live', t, hpast, -, hread, hafter, -⟩ :=
    (no_lost_update hversioned rfl hrun rfl).1 o _ hasks hok
  obtain ⟨-, -, hreports⟩ :=
    (no_lost_update hversioned rfl hovertaken rfl).2.2 _ _ hasks rfl hconflict
  exact ⟨p, o, live, rfl, hasks, ⟨_, hok, c, live', t, hpast, hread, hafter⟩, _, rfl, hconflict,
    hreports⟩

end NodeFeatureOperator
