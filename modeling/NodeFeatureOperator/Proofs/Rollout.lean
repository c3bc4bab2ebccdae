import NodeFeatureOperator.Proofs.Amendment
import NodeFeatureOperator.Proofs.Coverage
import NodeFeatureOperator.Proofs.Digest
import NodeFeatureOperator.Proofs.Pass
import NodeFeatureOperator.Proofs.Settings
import NodeFeatureOperator.Proofs.SteadyState

/-!
# The rollout of an edit

After a pass that succeeds the desired state is edited, and the next pass carries the edit out. The
components do not get into each other's way: what a pass writes at the place of one can be told from
the object that lay there when the pass began. So those whose desired object has changed are
replaced, once each, and nothing else is written.

## Main definitions

* `Rolled`: the components of a list have been converged, and what was written for that.
* `Store.editSpec`: an edit of the desired state of a resource.

## Main results

* `exists_rolled_of_convergePass`: what a pass writes, component by component.
* `spec_edit_rolled_out`: what the pass after an edit writes.
-/

namespace NodeFeatureOperator

section Passes

variable {n : NodeFeatureDiscovery} {ns : String} {s₀ s : Store} {cs ds : List Component}
  {c : Component} {t : List Exchange} {a : Amendment}

/-! ### One component after the other -/

/-- The exchanges `t` have converged the components of the list, beginning with the store `s₀`: at
each place they have written what was to be done about the object that lay there, and nothing
elsewhere. -/
structure Rolled (n : NodeFeatureDiscovery) (ns : String) (s₀ : Store) (cs : List Component)
    (t : List Exchange) (s : Store) : Prop where
  writes : ∀ c ∈ cs, writesAt (c.place ns) t =
    (c.change n ns (s₀.object? (c.place ns))).writes
  elsewhere : ∀ key, (∀ c ∈ cs, c.place ns ≠ key) → writesAt key t = []
  objects : ∀ key, (∀ c ∈ cs, c.place ns ≠ key) → s.object? key = s₀.object? key
  coherent : s.Coherent

namespace Rolled

/-- At the beginning nothing was written. -/
theorem refl (n : NodeFeatureDiscovery) (ns : String) (hs : s₀.Coherent) :
    Rolled n ns s₀ [] [] s₀ where
  writes := by simp
  elsewhere _ _ := rfl
  objects _ _ := rfl
  coherent := hs

/-- The order of the components does not matter. -/
theorem congr (h : Rolled n ns s₀ cs t s) (hds : ∀ c, c ∈ ds ↔ c ∈ cs) :
    Rolled n ns s₀ ds t s where
  writes c hc := h.writes c ((hds c).mp hc)
  elsewhere key hkey := h.elsewhere key fun c hc => hkey c ((hds c).mpr hc)
  objects key hkey := h.objects key fun c hc => hkey c ((hds c).mpr hc)
  coherent := h.coherent

/-- One component more is converged, by what lay at its place at the beginning. -/
theorem settle (h : Rolled n ns s₀ cs t s) (c : Component) (hc : c ∉ cs) :
    ∃ r t' s', (c.settle n ns).Performs s t' r s' ∧ Rolled n ns s₀ (c :: cs) (t ++ t') s' ∧
      ∀ a, c.amendment n ns (s₀.object? (c.place ns)) = .ok a → r = .ok () := by
  have hplace : ∀ d ∈ cs, d.place ns ≠ c.place ns := fun d hd heq =>
    hc ((Component.place_injective heq).1 ▸ hd)
  have hsame : s.object? (c.place ns) = s₀.object? (c.place ns) := h.objects _ hplace
  obtain ⟨reads, hreads, hperforms⟩ := c.performs_settle n ns h.coherent
  rw [hsame] at hperforms
  generalize hchange : c.change n ns (s₀.object? (c.place ns)) = a at hperforms
  have hkey : ∀ o, a.written? = some o → o.key = c.place ns := by
    rw [← hchange, ← hsame]
    exact Component.key_of_change fun live hlive => h.coherent _ _ hlive
  have hwrites : ∀ key, writesAt key (t ++ (reads ++ a.writes)) =
      writesAt key t ++ if c.place ns = key then a.writes else [] := by
    intro key
    rw [writesAt_append, writesAt_append, writesAt_eq_nil hreads, Amendment.writesAt_writes hkey,
      List.nil_append]
  refine ⟨_, _, _, hperforms, ⟨?_, ?_, ?_, ?_⟩, ?_⟩
  · intro d hd
    rw [hwrites]
    obtain rfl | hd := List.mem_cons.mp hd
    · rw [h.elsewhere _ hplace, if_pos rfl, List.nil_append, hchange]
    · rw [h.writes d hd, if_neg (hplace d hd).symm, List.append_nil]
  · intro key hne
    rw [hwrites, h.elsewhere key fun d hd => hne d (List.mem_cons_of_mem c hd),
      if_neg (hne c List.mem_cons_self), List.nil_append]
  · intro key hne
    rw [Amendment.object?_apply_of_ne (hne c List.mem_cons_self).symm]
    exact h.objects key fun d hd => hne d (List.mem_cons_of_mem c hd)
  · exact Amendment.coherent_apply h.coherent hkey
  · intro a' ha'
    rw [ha']
    rfl

/-- The worker and its configuration are converged, if it can be told what to do about the
configuration. -/
theorem worker (h : Rolled n ns s₀ cs t s) (hworker : .worker ∉ cs) (hconfig : .workerConfig ∉ cs)
    (ha : Component.workerConfig.amendment n ns
      (s₀.object? (Component.workerConfig.place ns)) = .ok a) :
    ∃ r t' s', (convergeWorker n ns).Performs s t' r s' ∧
      Rolled n ns s₀ (.worker :: .workerConfig :: cs) (t ++ t') s' := by
  obtain ⟨r, t₁, s₁, hperforms, h₁, hok⟩ := h.settle .workerConfig hconfig
  obtain rfl := hok a ha
  obtain ⟨r', t₂, s₂, hperforms', h₂, -⟩ := h₁.settle .worker (by simp [hworker])
  exact ⟨r', _, s₂, hperforms.bind hperforms', List.append_assoc t t₁ t₂ ▸ h₂⟩

/-- The topology updater is converged where it is asked for. -/
theorem topology (h : Rolled n ns s₀ cs t s) (htopology : .topologyUpdater ∉ cs) :
    ∃ r t' s', (convergeTopology n ns).Performs s t' r s' ∧
      Rolled n ns s₀ (if n.spec.topologyUpdater then .topologyUpdater :: cs else cs)
        (t ++ t') s' := by
  rw [convergeTopology]
  split
  · obtain ⟨r, t', s', hperforms, h', -⟩ := h.settle .topologyUpdater htopology
    exact ⟨r, t', s', hperforms, h'⟩
  · exact ⟨_, [], s, Program.performs_done _ s, (List.append_nil t).symm ▸ h⟩

end Rolled

/-! ### A whole pass -/

/-- A report writes no object. -/
theorem ReportCall.target?_eq_none {call : Call} (h : ReportCall call) : call.target? = none := by
  cases h <;> rfl

/-- A pass that converges does for each component what is to be done about the object that lies at
its place, and then reports, if it can be told what to do about the worker's configuration. -/
theorem exists_rolled_of_convergePass (hs : s₀.Coherent)
    (ha : Component.workerConfig.amendment n ns
      (s₀.object? (Component.workerConfig.place ns)) = .ok a)
    (config : Config) (time : Time) (name : String) (t₀ : Duration) :
    ∃ t report s, (convergePass config time n name ns).exchanges Store.respond s₀ t₀ =
        t ++ report ∧ (∀ e ∈ report, e.call.target? = none) ∧
      Rolled n ns s₀ (teardownComponents n.spec) t s := by
  obtain ⟨master, t₁, s₁, hmaster, h₁, -⟩ :=
    (Rolled.refl n ns hs).settle .master (by simp)
  obtain ⟨worker, t₂, s₂, hworker, h₂⟩ := h₁.worker (by simp) (by simp) ha
  obtain ⟨topology, t₃, s₃, htopology, h₃⟩ := h₂.topology (by simp)
  obtain ⟨collector, t₄, s₄, hcollector, h₄, -⟩ := h₃.settle .collector (by split <;> simp)
  obtain ⟨report, hexchanges, hreport⟩ : ∃ report,
      (convergePass config time n name ns).exchanges Store.respond s₀ t₀ =
        t₁ ++ (t₂ ++ (t₃ ++ (t₄ ++ report))) ∧ ∀ e ∈ report, ReportCall e.call := by
    rw [convergePass_eq, Program.exchanges_bind _ _ _ _ _ (hmaster t₀).1, (hmaster t₀).2,
      Program.exchanges_bind _ _ _ _ _ (hworker t₀).1, (hworker t₀).2,
      Program.exchanges_bind _ _ _ _ _ (htopology t₀).1, (htopology t₀).2,
      Program.exchanges_bind _ _ _ _ _ (hcollector t₀).1, (hcollector t₀).2]
    refine ⟨_, rfl, ?_⟩
    refine Program.Only.of_ends ((only_reportStatus time n name ns).bind fun status => ?_)
      (Program.ends_exchanges _ _ _ _)
    exact trivial
  refine ⟨_, report, s₄, ?_, fun e he => (hreport e he).target?_eq_none, h₄.congr fun c => ?_⟩
  · simp only [hexchanges, List.nil_append, List.append_assoc]
  · rw [mem_teardownComponents]
    cases hflag : n.spec.topologyUpdater <;> cases c <;> simp

/-! ### The pass after an edit -/

/-- The resource with another desired state. -/
def NodeFeatureDiscovery.asking (spec : Spec) (n : NodeFeatureDiscovery) : NodeFeatureDiscovery :=
  { n with spec := spec }

/-- The desired state of the resource under a key is edited. -/
def Store.editSpec (key : ResourceKey) (spec : Spec) (s : Store) : Store :=
  match s.resource? key with
  | none => s
  | some n => s.putResource key { n with spec := spec }

/-- An edit leaves a resource that differs in its desired state alone, and the objects. -/
theorem Store.resource?_editSpec {key : ResourceKey} (h : s.resource? key = some n) (spec : Spec) :
    ∃ n', (s.editSpec key spec).resource? key = some n' ∧
      SameButStatus { n with spec := spec } n' ∧
      ∀ k, (s.editSpec key spec).object? k = s.object? k := by
  rw [Store.editSpec, h]
  exact ⟨_, Store.resource?_putResource_self _ _ s, ⟨rfl, rfl, rfl, rfl, rfl⟩, fun _ => rfl⟩

/-- A pass that reads a resource which bears the finalizer and is not being deleted writes what its
convergence writes. -/
theorem exists_rolled_of_reconcile (config : Config) (time : Time) {trigger : Metadata}
    {s : Store} (hs : s.Coherent) (hns : trigger.ns = some ns)
    (hn : s.resource? ⟨ns, trigger.anyName⟩ = some n) (hfin : n.hasFinalizer = true)
    (hdel : n.isDeleting = false)
    (ha : Component.workerConfig.amendment n ns
      (s.object? (Component.workerConfig.place ns)) = .ok a) (t₀ : Duration) :
    ∃ t s', Rolled n ns s (teardownComponents n.spec) t s' ∧
      ∀ key, writesAt key ((reconcile config time trigger).exchanges Store.respond s t₀) =
        writesAt key t := by
  obtain ⟨t, report, s', hexchanges, hreport, hrolled⟩ :=
    exists_rolled_of_convergePass hs ha config time trigger.anyName t₀
  refine ⟨t, s', hrolled, fun key => ?_⟩
  have hread : s.respond (.getResource trigger.anyName ns) = (.ok (some n), s) := by
    simp only [Store.respond, hn]
  have hpass := passOver_eq_convergePass config time hdel hfin trigger.anyName ns
  simp only [reconcile, hns, Program.bind_eq, Program.request, Program.bind, Program.exchanges,
    hread, hpass, hexchanges]
  change writesAt key ([_] ++ (t ++ report)) = _
  rw [writesAt_append, writesAt_append, writesAt_eq_nil hreport,
    writesAt_eq_nil (t := [_]) (by simp [Call.target?]), List.nil_append, List.append_nil]

/-- The digests of a component's desired objects for two resources differ if the objects do. -/
def Component.ToldApart (c : Component) (n n' : NodeFeatureDiscovery) (ns : String) : Prop :=
  ∀ desired desired', c.desired n ns = .ok desired → c.desired n' ns = .ok desired' →
    desired.contentHash = desired'.contentHash → desired = desired'

/-- What is the same is told apart. -/
theorem Component.toldApart_of_desired_eq {n' : NodeFeatureDiscovery}
    (h : c.desired n' ns = c.desired n ns) : c.ToldApart n n' ns :=
  fun _ _ hdesired hdesired' _ => Except.ok.inj (hdesired.symm.trans (h.symm.trans hdesired'))

/-- It does not matter which resource comes first. -/
theorem Component.ToldApart.symm {n' : NodeFeatureDiscovery} (h : c.ToldApart n n' ns) :
    c.ToldApart n' n ns := fun desired' desired hdesired' hdesired hsame =>
  (h desired desired' hdesired hdesired' hsame.symm).symm

/-- What an edit comes to for a settled component: nothing, if the desired object is the same, and
its replacement otherwise. -/
theorem Component.Settled.amendment_of_edit {n' : NodeFeatureDiscovery} (h : c.Settled n ns s)
    (hs : s.Coherent) (href : n'.ownerReference? = n.ownerReference?)
    (hdigest : c.ToldApart n n' ns) :
    (c.desired n' ns = c.desired n ns ∧
        c.amendment n' ns (s.object? (c.place ns)) = .ok .leave) ∨
      (c.desired n' ns ≠ c.desired n ns ∧ ∃ live desired built,
        s.object? (c.place ns) = some live ∧ c.desired n' ns = .ok desired ∧
        c.built n' live = .ok built ∧ c.amendment n' ns (s.object? (c.place ns)) =
          .ok (.update (built.recordHash desired.contentHash))) := by
  by_cases heq : c.desired n' ns = c.desired n ns
  · exact .inl ⟨heq, (h.of_desired_eq heq href).amendment⟩
  refine .inr ⟨heq, ?_⟩
  obtain ⟨old, live, hold, hlive, hhash⟩ := h.recordedHash
  obtain ⟨_, built, hlive', hbuilt⟩ := h.exists_built hs href
  obtain rfl := Option.some.inj (hlive.symm.trans hlive')
  obtain ⟨-, ref, -, href', -, -⟩ := Component.built_eq_ok_iff.mp hbuilt
  obtain ⟨desired, hdesired⟩ := Component.exists_desired href' c ns
  -- the recorded digest is that of the old object, which is another one
  have hstale : live.recordedHash ≠ some desired.contentHash := by
    intro hsame
    have hdigests := Option.some.inj (hhash.symm.trans hsame)
    exact heq (hdesired.trans ((hdigest _ _ hold hdesired hdigests) ▸ hold.symm))
  refine ⟨live, desired, built, hlive, hdesired, hbuilt, ?_⟩
  rw [hlive]
  exact Component.amendment_of_outdated hdesired hstale hbuilt

/-- A pass over a resource that was edited converges the components on what lay there before. -/
theorem exists_rolled_of_edit (config : Config) (time : Time) {trigger : Metadata}
    {n₁ n' : NodeFeatureDiscovery} (hs : s.Coherent) (hns : trigger.ns = some ns)
    (hn₁ : s.resource? ⟨ns, trigger.anyName⟩ = some n₁) (hfin : n₁.hasFinalizer = true)
    (hdel : n₁.isDeleting = false) (href : n'.ownerReference? = n₁.ownerReference?)
    (ha : Component.workerConfig.amendment n' ns
      (s.object? (Component.workerConfig.place ns)) = .ok a) (t₀ : Duration) :
    ∃ t s', Rolled n' ns s (teardownComponents n'.spec) t s' ∧
      ∀ key, writesAt key ((reconcile config time trigger).exchanges Store.respond
        (s.editSpec ⟨ns, trigger.anyName⟩ n'.spec) t₀) = writesAt key t := by
  obtain ⟨n₂, hn₂, hsame, hobjects⟩ := Store.resource?_editSpec hn₁ n'.spec
  have hspec : n₂.spec = n'.spec := hsame.spec
  have howner : n₂.ownerReference? = n'.ownerReference? := hsame.owner.trans href.symm
  have hs₂ : (s.editSpec ⟨ns, trigger.anyName⟩ n'.spec).Coherent := fun key o ho =>
    hs key o ((hobjects key).symm.trans ho)
  have ha₂ : Component.workerConfig.amendment n₂ ns
      ((s.editSpec ⟨ns, trigger.anyName⟩ n'.spec).object? (Component.workerConfig.place ns)) =
        .ok a := by
    rw [hobjects, Component.amendment_congr hspec howner, ha]
  obtain ⟨t, s', h, hwrites⟩ := exists_rolled_of_reconcile config time hs₂ hns hn₂
    (hsame.finalizer.trans hfin) (hsame.deleting.trans hdel) ha₂ t₀
  rw [hspec] at h
  refine ⟨t, s', ⟨fun c hc => ?_, h.elsewhere, fun key hkey => ?_, h.coherent⟩, hwrites⟩
  · rw [h.writes c hc, hobjects, Component.change_congr hspec howner]
  · exact (h.objects key hkey).trans (hobjects key)

/-- **An edit rolls out to exactly the affected components.** On a store that gives back what was
written, where every object lies under its own key: after a pass that succeeds, the desired state of
the resource is edited in any way. The next pass, at whatever time, replaces the components that
were asked for before and still are, and whose desired object has changed, once each. It creates
those that are asked for and do not exist, and writes to no other object, so that a topology updater
which is no longer asked for is left. And what is built onto an object changes with the settings of
its component only. The digests are assumed to tell the desired objects before and after the edit
apart. -/
theorem spec_edit_rolled_out {config config' : Config} {time time' : Time}
    {trigger trigger' : Metadata} {n' : NodeFeatureDiscovery} {spec : Spec} {s₁ : Store}
    {t₀ t₁ t₂ : Duration} {action : Action} {trace : List Exchange}
    (hs : s₀.Coherent) (hns : trigger.ns = some ns)
    (hn : s₀.resource? ⟨ns, trigger.anyName⟩ = some n) (hfin : n.hasFinalizer = true)
    (hdel : n.isDeleting = false)
    (hrun : (reconcile config time trigger).run Store.respond s₀ t₀ = (.ok action, s₁, t₁))
    (hname' : trigger'.anyName = trigger.anyName) (hns' : trigger'.ns = trigger.ns)
    (hn' : n' = { n with spec := spec })
    (hdigest : ∀ c ∈ teardownComponents n.spec, c ∈ teardownComponents spec →
      c.ToldApart n n' ns)
    (htrace : trace = (reconcile config' time' trigger').exchanges Store.respond
      (s₁.editSpec ⟨ns, trigger.anyName⟩ spec) t₂) :
    (∀ c ∈ teardownComponents n.spec, c ∈ teardownComponents spec →
      c.desired n' ns ≠ c.desired n ns → ∃ live desired built,
        s₁.object? (c.place ns) = some live ∧ c.desired n' ns = .ok desired ∧
        c.built n' live = .ok built ∧ writesAt (c.place ns) trace =
          [⟨.update (built.recordHash desired.contentHash), .ok ()⟩]) ∧
    (∀ c ∈ teardownComponents n.spec, c ∈ teardownComponents spec →
      c.desired n' ns = c.desired n ns → writesAt (c.place ns) trace = []) ∧
    (∀ c ∈ teardownComponents spec, s₁.object? (c.place ns) = none → ∃ desired,
      c.desired n' ns = .ok desired ∧ writesAt (c.place ns) trace =
        [⟨.create (desired.recordHash desired.contentHash), .ok ()⟩]) ∧
    (∀ key, (∀ c ∈ teardownComponents spec, c.place ns ≠ key) → writesAt key trace = []) ∧
    ∀ c : Component, c.SameSettings spec n.spec → ∀ o, c.built n' o = c.built n o := by
  obtain ⟨hs₁, hsettled, n₁, hn₁, hsame⟩ := exists_converged_of_run hs hns hn hfin hdel hrun
  obtain ⟨hspec, href⟩ : n'.spec = spec ∧ n'.ownerReference? = n.ownerReference? := by
    subst hn'
    exact ⟨rfl, rfl⟩
  have hedit : ∀ c ∈ teardownComponents n.spec, c ∈ teardownComponents spec → _ :=
    fun c hc hc' => (hsettled c hc).amendment_of_edit hs₁ href (hdigest c hc hc')
  have hmem : ∀ spec, .workerConfig ∈ teardownComponents spec :=
    fun _ => mem_teardownComponents.mpr ⟨by decide, by simp⟩
  have hconfig : ∃ a, Component.workerConfig.amendment n' ns
      (s₁.object? (Component.workerConfig.place ns)) = .ok a := by
    obtain ⟨-, ha⟩ | ⟨-, _, _, _, -, -, -, ha⟩ := hedit .workerConfig (hmem _) (hmem _)
    · exact ⟨_, ha⟩
    · exact ⟨_, ha⟩
  obtain ⟨a, ha⟩ := hconfig
  rw [← hname'] at hn₁ htrace
  obtain ⟨t, s', hrolled, hwrites⟩ := exists_rolled_of_edit config' time' hs₁
    (hns'.trans hns) hn₁ (hsame.finalizer.trans hfin) (hsame.deleting.trans hdel)
    (href.trans hsame.owner.symm) ha t₂
  rw [hspec, ← htrace] at hwrites
  rw [hspec] at hrolled
  refine ⟨fun c hc hc' hne => ?_, fun c hc hc' heq => ?_, fun c hc hnone => ?_, fun key hkey => ?_,
    fun c hc => ?_⟩
  · obtain ⟨heq, -⟩ | ⟨-, live, desired, built, hlive, hdesired, hbuilt, ha⟩ := hedit c hc hc'
    · exact absurd heq hne
    · refine ⟨live, desired, built, hlive, hdesired, hbuilt, ?_⟩
      rw [hwrites, hrolled.writes c hc', Component.change_of_ok ha]
      rfl
  · obtain ⟨-, ha⟩ | ⟨hne, -⟩ := hedit c hc hc'
    · rw [hwrites, hrolled.writes c hc', Component.change_of_ok ha]
      rfl
    · exact absurd heq hne
  · obtain ⟨_, -, hconfig, -⟩ := hsettled .workerConfig (hmem _)
    obtain ⟨_, ref, -, howner, -, -⟩ := Component.built_eq_ok_iff.mp hconfig
    obtain ⟨desired, hdesired⟩ := Component.exists_desired (href.trans howner) c ns
    refine ⟨desired, hdesired, ?_⟩
    rw [hwrites, hrolled.writes c hc, hnone,
      Component.change_of_ok (Component.amendment_none hdesired)]
    rfl
  · rw [hwrites, hrolled.elsewhere key hkey]
  · exact Component.built_of_sameSettings (hspec.symm ▸ hc) href

end Passes

/-! ### An edit of the configuration -/

/-- A resource that bears the finalizer and asks for nothing in particular yet. -/
def minimal : NodeFeatureDiscovery := { installed with spec := {} }

/-- A store with that resource. -/
def Store.minimal : Store := ({} : Store).putResource ⟨"gpu", "nfd"⟩ NodeFeatureOperator.minimal

/-- A desired state with a configuration for the workers, the topology updater, and pruning. -/
def extended : Spec :=
  { configData := "core:\n  sleepInterval: 60s\n", topologyUpdater := true, pruneOnDelete := true }

/-- If the resource asks for that, then only the worker's configuration is another one. -/
theorem desired_extended {c : Component} (hc : c ≠ .workerConfig) :
    c.desired ((minimal.withVersion "1").asking extended) "gpu" =
      c.desired (minimal.withVersion "1") "gpu" := by
  have hsettings : c.SameSettings ((minimal.withVersion "1").asking extended).spec
      (minimal.withVersion "1").spec :=
    Component.sameSettings_of_ne_workerConfig hc {} extended.configData true true
  exact Component.built_of_sameSettings hsettings rfl _

/-- The digests tell the desired objects apart. -/
theorem toldApart_extended (c : Component) :
    c.ToldApart (minimal.withVersion "1") ((minimal.withVersion "1").asking extended) "gpu" := by
  by_cases hc : c = .workerConfig
  · subst hc
    have hbefore : Component.workerConfig.desired (minimal.withVersion "1") "gpu" = .ok _ := rfl
    have hafter : Component.workerConfig.desired ((minimal.withVersion "1").asking extended) "gpu" =
      .ok _ := rfl
    intro desired desired' hdesired hdesired' hsame
    obtain rfl := Except.ok.inj (hbefore.symm.trans hdesired)
    obtain rfl := Except.ok.inj (hafter.symm.trans hdesired')
    have hprefix := ManagedObject.hashOf_eq_iff_take_eq.mp hsame
    rw [ManagedObject.hashedBytes_eq, ManagedObject.hashedBytes_eq] at hprefix
    -- the hashes of the two configurations are computed here
    exact absurd hprefix (by decide +kernel)
  · exact Component.toldApart_of_desired_eq (desired_extended hc)

/-- After the first pass on that store the resource is edited to ask for that. The next pass
replaces the configuration once, by one with the edited text, and creates the topology updater once.
It writes no other object, since no other one has changed. -/
theorem spec_edit_rolled_out_minimal :
    ∃ s₁ t₁, (reconcile {} ⟨0, 0⟩ minimal.metadata).run Store.respond Store.minimal
        (Duration.ofSeconds 0) = (.ok (.requeue (Duration.ofSeconds 10)), s₁, t₁) ∧
      ∃ trace, trace = (reconcile {} ⟨60, 0⟩ minimal.metadata).exchanges Store.respond
          (s₁.editSpec ⟨"gpu", minimal.metadata.anyName⟩ extended) t₁ ∧
        (∃ o content, writesAt (Component.workerConfig.place "gpu") trace =
            [⟨.update o, .ok ()⟩] ∧ o.content = .configMap content ∧
          content.data = some [(Blueprint.configKey, extended.configData)]) ∧
        (∃ o, writesAt (Component.topologyUpdater.place "gpu") trace = [⟨.create o, .ok ()⟩]) ∧
        ∀ key, key ≠ Component.workerConfig.place "gpu" →
          key ≠ Component.topologyUpdater.place "gpu" → writesAt key trace = [] := by
  let n := minimal.withVersion "1"
  have hcoherent : Store.minimal.Coherent := Store.coherent_of_empty rfl
  have hns : minimal.metadata.ns = some "gpu" := rfl
  have hn : Store.minimal.resource? ⟨"gpu", minimal.metadata.anyName⟩ = some n := rfl
  have hfin : n.hasFinalizer = true := by decide
  have hdel : n.isDeleting = false := rfl
  have hfirst : ((reconcile {} ⟨0, 0⟩ minimal.metadata).run Store.respond Store.minimal
      (Duration.ofSeconds 0)).1.toOption = some (.requeue (Duration.ofSeconds 10)) := by
    decide +kernel
  have habsent : ((reconcile {} ⟨0, 0⟩ minimal.metadata).run Store.respond Store.minimal
      (Duration.ofSeconds 0)).2.1.object? (Component.topologyUpdater.place "gpu") = none := by
    decide +kernel
  generalize hrun : (reconcile {} ⟨0, 0⟩ minimal.metadata).run Store.respond Store.minimal
    (Duration.ofSeconds 0) = first at hfirst habsent
  obtain ⟨r, s₁, t₁⟩ := first
  cases r with
  | error f => cases hfirst
  | ok action =>
      obtain rfl := Option.some.inj hfirst
      obtain ⟨trace, htrace⟩ : ∃ trace, trace = (reconcile {} ⟨60, 0⟩ minimal.metadata).exchanges
          Store.respond (s₁.editSpec ⟨"gpu", minimal.metadata.anyName⟩ extended) t₁ := ⟨_, rfl⟩
      obtain ⟨hreplaced, hkept, hcreated, helsewhere, -⟩ := spec_edit_rolled_out hcoherent hns hn
        hfin hdel hrun (Eq.refl minimal.metadata.anyName) rfl (Eq.refl (n.asking extended))
        (fun c _ _ => toldApart_extended c) htrace
      refine ⟨s₁, t₁, rfl, trace, htrace, ?_, ?_, fun key hconfig htopology => ?_⟩
      · have hchanged : Component.workerConfig.desired (n.asking extended) "gpu" ≠
            Component.workerConfig.desired n "gpu" := fun heq =>
          absurd (congrArg Except.toOption heq) (by decide +kernel)
        obtain ⟨live, desired, built, -, -, hbuilt, hwrites⟩ :=
          hreplaced .workerConfig (by decide) (by decide) hchanged
        obtain ⟨content, _, hfill, -, -, rfl⟩ := Component.built_eq_ok_iff.mp hbuilt
        obtain ⟨config, hconfig, hdata⟩ := Component.exists_config_of_fill hfill
        exact ⟨_, config, hwrites, hconfig, hdata⟩
      · obtain ⟨desired, -, hwrites⟩ := hcreated .topologyUpdater (by decide) habsent
        exact ⟨_, hwrites⟩
      · by_cases hplace : ∃ c ∈ teardownComponents extended, c.place "gpu" = key
        · obtain ⟨c, hc, rfl⟩ := hplace
          have hne : c ≠ .workerConfig := fun heq => hconfig (heq ▸ rfl)
          have hne' : c ≠ .topologyUpdater := fun heq => htopology (heq ▸ rfl)
          have hbefore : c ∈ teardownComponents n.spec :=
            mem_teardownComponents.mpr ⟨(mem_teardownComponents.mp hc).1, fun h => absurd h hne'⟩
          exact hkept c hbefore hc (desired_extended hne)
        · exact helsewhere key fun c hc heq => hplace ⟨c, hc, heq⟩

end NodeFeatureOperator
