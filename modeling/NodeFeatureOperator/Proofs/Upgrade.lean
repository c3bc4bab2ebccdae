import NodeFeatureOperator.Proofs.Upkeep

/-!
# Upgrades end where a fresh install would

After any history of edits, once a pass has succeeded, the objects are those that a fresh install
creates. So neither what was desired before nor the order of that can be seen from them. There are
histories of any length, since a pass that nobody interferes with succeeds.

## Main definitions

* `Store.Ready`: what a pass needs in order to succeed.
* `FreshInstall`: the first pass on a store without objects.

## Main results

* `Kept.succeeds`: a pass that nobody interferes with succeeds.
* `exists_upgrade`: the desired states can follow each other in any way.
* `upgrade_ends_as_installed`: where an upgrade ends.
-/

namespace NodeFeatureOperator

/-! ### Passes that nobody interferes with -/

/-- What a pass that nobody interferes with needs in order to succeed. -/
structure Store.Ready (key : ResourceKey) (s : Store) : Prop where
  coherent : s.Coherent
  resource : ∃ m, s.resource? key = some m ∧ m.hasFinalizer = true ∧ m.isDeleting = false

section Successes

variable {key : ResourceKey} {n m : NodeFeatureDiscovery} {spec : Spec} {earlier : List Spec}
  {converged : Bool} {finished : Component → Prop} {c : Component} {s s' : Store}
  {ref : OwnerReference}

/-- Convergence of a component succeeds. -/
theorem Kept.settles (h : Kept key n spec earlier finished s) (hs : s.Coherent)
    (hdigests : AllToldApart n key.ns (spec :: earlier)) (hspec : m.spec = spec)
    (howner : m.ownerReference? = n.ownerReference?) (href : n.ownerReference? = some ref)
    (hc : c ∈ teardownComponents spec) :
    ∃ t s', (c.settle m key.ns).Performs s t (.ok ()) s' ∧ Kept key n spec earlier finished s' ∧
      s'.Coherent := by
  obtain ⟨desired, hdesired⟩ := Component.exists_desired (howner.trans href) c key.ns
  obtain ⟨a, ha⟩ := Component.exists_amendment hdesired fun live hlive => by
    obtain ⟨old, -, -, hinstalled⟩ := h.objects c live hlive
    exact ⟨n.asking old, howner, hinstalled⟩
  obtain ⟨reads, -, hperforms⟩ := c.performs_settle m key.ns hs
  rw [ha] at hperforms
  obtain ⟨hends, hserves⟩ := hperforms.servesAmid (Store.Touched key)
  have hkept := h.attends hdigests hspec howner hc (Component.attends_of_ends hends) hserves
  exact ⟨_, _, hperforms, hkept.mono fun _ hd => .inl hd,
    hs.run (hperforms (Duration.ofSeconds 0)).1⟩

/-- A pass that converges succeeds. -/
theorem Kept.succeeds (h : Kept key n spec earlier finished s) (hs : s.Coherent)
    (hdigests : AllToldApart n key.ns (spec :: earlier)) (hspec : m.spec = spec)
    (howner : m.ownerReference? = n.ownerReference?) (href : n.ownerReference? = some ref)
    (config : Config) (time : Time) (t₀ : Duration) :
    ∃ action s' t', (convergePass config time m key.name key.ns).run Store.respond s t₀ =
      (.ok action, s', t') := by
  have hmem : ∀ c : Component, c ≠ .prune → c ≠ .topologyUpdater → c ∈ teardownComponents spec :=
    fun c hc htop => mem_teardownComponents.mpr ⟨hc, fun heq => absurd heq htop⟩
  obtain ⟨_, s₁, hmaster, h₁, hs₁⟩ := h.settles hs hdigests hspec howner href
    (hmem .master (by decide) (by decide))
  obtain ⟨_, s₂, hconfig, h₂, hs₂⟩ := h₁.settles hs₁ hdigests hspec howner href
    (hmem .workerConfig (by decide) (by decide))
  obtain ⟨_, s₃, hworker, h₃, hs₃⟩ := h₂.settles hs₂ hdigests hspec howner href
    (hmem .worker (by decide) (by decide))
  have hworkers : (convergeWorker m key.ns).Performs s₁ _ (.ok ()) s₃ := hconfig.bind hworker
  obtain ⟨_, s₄, htopology, h₄, hs₄⟩ : ∃ t s₄,
      (convergeTopology m key.ns).Performs s₃ t (.ok ()) s₄ ∧
        Kept key n spec earlier finished s₄ ∧ s₄.Coherent := by
    rw [convergeTopology]
    split
    next hflag =>
      exact h₃.settles hs₃ hdigests hspec howner href
        (mem_teardownComponents.mpr ⟨by decide, fun _ => hspec ▸ hflag⟩)
    · exact ⟨[], s₃, Program.performs_done _ s₃, h₃, hs₃⟩
  obtain ⟨_, s₅, hcollector, h₅, -⟩ := h₄.settles hs₄ hdigests hspec howner href
    (hmem .collector (by decide) (by decide))
  obtain ⟨stored, hstored, -⟩ := h₅.resource
  obtain ⟨available, s₆, hreport⟩ := exists_run_reportStatus hstored time m t₀
  have hrun : (convergePass config time m key.name key.ns).run Store.respond s t₀ =
      (.ok (.requeue (if available then config.resync else config.progress)), s₆, t₀) := by
    simp only [convergePass_eq, Program.run_bind, (hmaster t₀).1, (hworkers t₀).1,
      (htopology t₀).1, (hcollector t₀).1, hreport]
    cases available <;> rfl
  exact ⟨_, _, _, hrun⟩

/-- An upgrade can be carried on by a pass that succeeds. -/
theorem Upgrade.exists_passed (h : Upgrade key n spec earlier converged s)
    (hdigests : AllToldApart n key.ns (spec :: earlier)) (href : n.ownerReference? = some ref)
    (hready : s.Ready key) : ∃ s', Upgrade key n spec earlier true s' ∧ s'.Ready key := by
  obtain ⟨hs, m, hm, hfin, hdel⟩ := hready
  have hkept := h.kept hdigests
  obtain ⟨_, hm', hspec, howner⟩ := hkept.resource
  obtain rfl := Option.some.inj (hm.symm.trans hm')
  let pass := reconcile {} ⟨0, 0⟩ (World.trigger key)
  let t₀ := Duration.ofSeconds 0
  have hns : (World.trigger key).ns = some key.ns := rfl
  obtain ⟨action, s', t', hrun⟩ := hkept.succeeds hs hdigests hspec howner href {} ⟨0, 0⟩ t₀
  have hrun : pass.run Store.respond s t₀ = (.ok action, s', t') :=
    (run_reconcile hns hm hdel hfin).trans hrun
  obtain ⟨hs', -, m', hm', hsame⟩ := exists_converged_of_run hs hns hm hfin hdel hrun
  have hends := Program.ends_exchanges Store.respond pass s t₀
  have hserves := Store.servesAmid_exchanges (Store.Touched key) pass s t₀
  obtain ⟨rest, hrest⟩ : ∃ rest, pass.exchanges Store.respond s t₀ =
      ⟨.getResource key.name key.ns, .ok (s.resource? key)⟩ :: rest := ⟨_, rfl⟩
  rw [hrest, hrun, hm] at hends hserves
  have hpassed : Upgrade key n spec earlier (converged || true) s' :=
    h.passed hends hfin hdel hserves
  rw [Bool.or_true] at hpassed
  exact ⟨s', hpassed, hs', m', hm', hsame.finalizer.trans hfin, hsame.deleting.trans hdel⟩

/-- An edit leaves a store ready. -/
theorem Store.Ready.editSpec (h : s.Ready key) (spec : Spec) : (s.editSpec key spec).Ready key := by
  obtain ⟨hs, m, hm, hfin, hdel⟩ := h
  obtain ⟨m', hm', hsame, hobjects⟩ := Store.resource?_editSpec hm spec
  exact ⟨fun k o ho => hs k o ((hobjects k).symm.trans ho), m', hm', hsame.finalizer.trans hfin,
    hsame.deleting.trans hdel⟩

/-- The desired states can follow each other in any way, if the digests tell them apart. -/
theorem exists_upgrade (hn : s.resource? key = some n)
    (hempty : ∀ c : Component, s.object? (c.place key.ns) = none)
    (href : n.ownerReference? = some ref) (hready : s.Ready key) (specs : List Spec)
    (hdigests : AllToldApart n key.ns (specs ++ [n.spec])) :
    ∃ spec earlier s', spec :: earlier = specs ++ [n.spec] ∧
      Upgrade key n spec earlier true s' ∧ s'.Ready key := by
  induction specs with
  | nil =>
      obtain ⟨s', hs', hready'⟩ :=
        (Upgrade.installed hn hempty).exists_passed hdigests href hready
      exact ⟨n.spec, [], s', rfl, hs', hready'⟩
  | cons spec specs ih =>
      obtain ⟨old, earlier, s₁, hspecs, hs₁, hready₁⟩ :=
        ih (hdigests.mono fun _ => List.mem_cons_of_mem _)
      rw [List.cons_append, ← hspecs] at hdigests ⊢
      obtain ⟨s', hs', hready'⟩ :=
        (hs₁.edited spec).exists_passed hdigests href (hready₁.editSpec spec)
      exact ⟨spec, old :: earlier, s', rfl, hs', hready'⟩

end Successes

section Upgrades

variable {key : ResourceKey} {n : NodeFeatureDiscovery} {spec : Spec} {earlier : List Spec}
  {c : Component} {desired : ManagedObject} {s : Store} {t : List Exchange}

/-! ### Fresh installs -/

/-- The traces of the first pass over a resource like `n` that bears the finalizer and is not being
deleted, on a store without objects. -/
inductive FreshInstall (key : ResourceKey) (n : NodeFeatureDiscovery) : List Exchange → Prop
  | intro {trigger : Metadata} {m : NodeFeatureDiscovery} {s : Store} (config : Config)
      (time : Time) (t₀ : Duration) : trigger.ns = some key.ns → s.objects = [] →
      s.resource? ⟨key.ns, trigger.anyName⟩ = some m → m.spec = n.spec →
      m.ownerReference? = n.ownerReference? → m.hasFinalizer = true → m.isDeleting = false →
      FreshInstall key n ((reconcile config time trigger).exchanges Store.respond s t₀)

/-- A fresh install creates each component that is asked for, from scratch and with its digest
recorded on it. -/
theorem FreshInstall.writesAt (h : FreshInstall key n t) (hc : c ∈ teardownComponents n.spec)
    (hdesired : c.desired n key.ns = .ok desired) :
    writesAt (c.place key.ns) t =
      [⟨.create (desired.recordHash desired.contentHash), .ok ()⟩] := by
  cases h with
  | @intro trigger m s config time t₀ hns hempty hm hspec howner hfin hdel =>
      have habsent : ∀ k, s.object? k = none := by
        intro k
        rw [Store.object?, hempty]
        rfl
      obtain ⟨_, ref, -, hn, -, -⟩ := Component.built_eq_ok_iff.mp hdesired
      obtain ⟨config', hconfig'⟩ :=
        Component.exists_desired (howner.trans hn) .workerConfig key.ns
      have ha := Component.amendment_none hconfig'
      rw [← habsent (Component.workerConfig.place key.ns)] at ha
      obtain ⟨t, s', hrolled, hwrites⟩ := exists_rolled_of_reconcile config time
        (Store.coherent_of_empty hempty) hns hm hfin hdel ha t₀
      have hdesired' := (Component.desired_congr hspec howner c key.ns).trans hdesired
      rw [hwrites, hrolled.writes c (hspec ▸ hc), habsent,
        Component.change_of_ok (Component.amendment_none hdesired')]
      rfl

/-- **An upgrade ends where a fresh install would.** After any history of edits and of passes, in
which others write to status and resource at any time, calls fail, and the digests tell the desired
objects apart: once a pass has succeeded since the last edit, the object of every component that is
asked for is, apart from its version and its status, the one built from scratch for the present
desired state with its digest recorded on it. That is what every fresh install creates, so nothing
of the earlier desired states, or of their order, is left. -/
theorem upgrade_ends_as_installed (h : Upgrade key n spec earlier true s)
    (hdigests : AllToldApart n key.ns (spec :: earlier)) (hc : c ∈ teardownComponents spec) :
    ∃ desired live, c.desired (n.asking spec) key.ns = .ok desired ∧
      s.object? (c.place key.ns) = some live ∧
      live.bare = desired.recordHash desired.contentHash ∧
      ∀ t, FreshInstall key (n.asking spec) t →
        writesAt (c.place key.ns) t = [⟨.create live.bare, .ok ()⟩] := by
  obtain ⟨live, hlive, desired, hdesired, hbare⟩ := (h.kept hdigests).current c ⟨hc, rfl⟩
  refine ⟨desired, live, hdesired, hlive, hbare, fun t ht => ?_⟩
  rw [hbare]
  exact ht.writesAt hc hdesired

end Upgrades

/-! ### A desired state that comes back -/

/-- The first pass over the resource that asks for the extended desired state from the beginning. -/
def extendedInstall : List Exchange :=
  (reconcile {} ⟨0, 0⟩ minimal.metadata).exchanges Store.respond
    (({} : Store).putResource ⟨"gpu", "nfd"⟩ (minimal.asking extended)) (Duration.ofSeconds 0)

/-- The resource that asks for nothing in particular is edited to ask for another configuration and
for the topology updater, then not to, and then to again, with a pass in between each time. In the
end the objects are those that are created where that is asked for from the beginning, and the
configuration holds the text that was asked for last. -/
theorem upgrade_ends_as_installed_extended :
    ∃ s, Upgrade ⟨"gpu", "nfd"⟩ (minimal.withVersion "1") extended [{}, extended, {}] true s ∧
      (∀ c ∈ teardownComponents extended, ∃ live, s.object? (c.place "gpu") = some live ∧
        writesAt (c.place "gpu") extendedInstall = [⟨.create live.bare, .ok ()⟩]) ∧
      ∃ live, s.object? (Component.workerConfig.place "gpu") = some live ∧
        live.bare.content =
          .configMap { data := some [(Blueprint.configKey, extended.configData)] } := by
  let key : ResourceKey := ⟨"gpu", "nfd"⟩
  let n := minimal.withVersion "1"
  have hn : Store.minimal.resource? key = some n := rfl
  have hdigests : AllToldApart n "gpu" ([extended, {}, extended] ++ [n.spec]) := by
    have hspecs : ∀ spec ∈ [extended, {}, extended] ++ [n.spec], spec = extended ∨ spec = {} := by
      decide
    intro spec hspec spec' hspec' c _ _
    obtain rfl | rfl := hspecs spec hspec <;> obtain rfl | rfl := hspecs spec' hspec'
    · exact Component.toldApart_of_desired_eq rfl
    · exact (toldApart_extended c).symm
    · exact toldApart_extended c
    · exact Component.toldApart_of_desired_eq rfl
  obtain ⟨spec, earlier, s, hspecs, h, -⟩ := exists_upgrade hn (fun _ => rfl) rfl
    ⟨Store.coherent_of_empty rfl, n, hn, by decide, rfl⟩ [extended, {}, extended] hdigests
  obtain ⟨rfl, rfl⟩ := List.cons.inj hspecs
  have hinstall : FreshInstall key (n.asking extended) extendedInstall :=
    .intro {} ⟨0, 0⟩ (Duration.ofSeconds 0) rfl rfl rfl rfl rfl (by decide) rfl
  refine ⟨s, h, fun c hc => ?_, ?_⟩
  · obtain ⟨_, live, -, hlive, -, hcreated⟩ := upgrade_ends_as_installed h hdigests hc
    exact ⟨live, hlive, hcreated _ hinstall⟩
  · obtain ⟨desired, live, hdesired, hlive, hbare, -⟩ :=
      upgrade_ends_as_installed (c := .workerConfig) h hdigests (by decide)
    have hconfig : Component.workerConfig.desired (n.asking extended) "gpu" = .ok _ := rfl
    obtain rfl := Except.ok.inj (hconfig.symm.trans hdesired)
    exact ⟨live, hlive, congrArg ManagedObject.content hbare⟩

end NodeFeatureOperator
