import NodeFeatureOperator.Proofs.Interference
import NodeFeatureOperator.Proofs.Residue

/-!
# The upkeep of a deployment over its upgrades

The desired state of a resource is edited time and again, and passes converge it in between, while
others write to the status of the objects at any time, also between the calls of a pass. At any time
each object of a component is the one that a fresh install creates for one of the desired states so
far, but for its version and its status, and after a pass that succeeds the one for the present
desired state.

## Main definitions

* `NodeFeatureDiscovery.asking`: the resource with another desired state.
* `Store.Touched`: what others do.
* `Upgrade`: a history of edits and passes.
* `Kept`: the invariant.

## Main results

* `Kept.attends`: what the convergence of one component leaves of the invariant.
* `Kept.converged`: what a pass leaves of it.
* `Upgrade.kept`: the invariant holds at any time.
-/

namespace NodeFeatureOperator

/-- What others may do between the calls: the objects of the components stay as they are but for
version and status, and the resource keeps its desired state and what identifies it as an owner. -/
structure Store.Touched (key : ResourceKey) (s s' : Store) : Prop where
  objects : ∀ c : Component, (s'.object? (c.place key.ns)).map ManagedObject.bare =
    (s.object? (c.place key.ns)).map ManagedObject.bare
  resource : ∀ m, s.resource? key = some m → ∃ m', s'.resource? key = some m' ∧
    m'.spec = m.spec ∧ m'.ownerReference? = m.ownerReference?

/-! ### Histories -/

/-- The history of an upgrade of the resource `n` up to a store: what is desired now, what was
desired before, the latest first, and whether a pass has succeeded since the last edit. It begins
without objects. Then the desired state is edited, others write to the status of objects and
resource, and passes converge the resource once it bears the finalizer, as long as it is not being
deleted; any call of a pass may fail. -/
inductive Upgrade (key : ResourceKey) (n : NodeFeatureDiscovery) :
    Spec → List Spec → Bool → Store → Prop
  | installed {s : Store} : s.resource? key = some n →
      (∀ c : Component, s.object? (c.place key.ns) = none) → Upgrade key n n.spec [] false s
  | edited {spec : Spec} {earlier : List Spec} {converged : Bool} {s : Store} (spec' : Spec) :
      Upgrade key n spec earlier converged s →
      Upgrade key n spec' (spec :: earlier) false (s.editSpec key spec')
  | touched {spec : Spec} {earlier : List Spec} {converged : Bool} {s s' : Store} :
      Upgrade key n spec earlier converged s → s.Touched key s' →
      Upgrade key n spec earlier converged s'
  | passed {spec : Spec} {earlier : List Spec} {converged : Bool} {s s' : Store} {config : Config}
      {time : Time} {trigger : Metadata} {m : NodeFeatureDiscovery} {t : List Exchange}
      {r : Except Failure Action} : Upgrade key n spec earlier converged s →
      (reconcile config time trigger).Ends
        (⟨.getResource key.name key.ns, .ok (some m)⟩ :: t) r →
      m.hasFinalizer = true → m.isDeleting = false →
      s.ServesAmid (Store.Touched key) (⟨.getResource key.name key.ns, .ok (some m)⟩ :: t) s' →
      Upgrade key n spec earlier (converged || r.isOk) s'

/-- Of the components that several desired states ask for, the objects of one digest are the
same. -/
def AllToldApart (n : NodeFeatureDiscovery) (ns : String) (specs : List Spec) : Prop :=
  ∀ spec ∈ specs, ∀ spec' ∈ specs, ∀ c ∈ teardownComponents spec, c ∈ teardownComponents spec' →
    c.ToldApart (n.asking spec) (n.asking spec') ns

/-- Fewer desired states are told apart if more are. -/
theorem AllToldApart.mono {n : NodeFeatureDiscovery} {ns : String} {specs specs' : List Spec}
    (h : AllToldApart n ns specs') (hspecs : ∀ spec ∈ specs, spec ∈ specs') :
    AllToldApart n ns specs := fun spec₁ h₁ spec₂ h₂ =>
  h spec₁ (hspecs spec₁ h₁) spec₂ (hspecs spec₂ h₂)

/-- What is kept over an upgrade: the resource asks for the present desired state, every object of a
component is installed for one of the desired states so far, and those of some components for the
present one. -/
structure Kept (key : ResourceKey) (n : NodeFeatureDiscovery) (spec : Spec) (earlier : List Spec)
    (finished : Component → Prop) (s : Store) : Prop where
  resource : ∃ m, s.resource? key = some m ∧ m.spec = spec ∧
    m.ownerReference? = n.ownerReference?
  objects : ∀ (c : Component) live, s.object? (c.place key.ns) = some live →
    ∃ spec' ∈ spec :: earlier, c ∈ teardownComponents spec' ∧
      c.Installed (n.asking spec') key.ns live
  current : ∀ c, finished c → ∃ live, s.object? (c.place key.ns) = some live ∧
    c.Installed (n.asking spec) key.ns live

namespace Kept

variable {key : ResourceKey} {n m : NodeFeatureDiscovery} {spec : Spec} {earlier : List Spec}
  {finished finished' : Component → Prop} {c : Component} {o : ManagedObject} {call : Call}
  {s s' : Store} {t : List Exchange}

/-! ### One step -/

/-- If more components are installed for the present desired state, then fewer are. -/
theorem mono (h : Kept key n spec earlier finished s) (hfinished : ∀ c, finished' c → finished c) :
    Kept key n spec earlier finished' s :=
  { h with current := fun c hc => h.current c (hfinished c hc) }

/-- Nothing more is installed where nothing was accomplished. -/
theorem unfinished {done : Bool} (h : Kept key n spec earlier finished s) (hdone : done = false) :
    Kept key n spec earlier (fun d => finished d ∨ d = c ∧ done = true) s :=
  h.mono fun d hd => hd.resolve_right fun hc => by simp [hdone] at hc

/-- An object that is found to be installed for the present desired state is one more. -/
theorem finish {live : ManagedObject} (h : Kept key n spec earlier finished s)
    (hlive : s.object? (c.place key.ns) = some live)
    (hinstalled : c.Installed (n.asking spec) key.ns live) :
    Kept key n spec earlier (fun d => finished d ∨ d = c) s where
  resource := h.resource
  objects := h.objects
  current d hd := by
    obtain hd | rfl := hd
    · exact h.current d hd
    · exact ⟨live, hlive, hinstalled⟩

/-- What others do keeps it. -/
theorem touched (h : Kept key n spec earlier finished s) (hs : s.Touched key s') :
    Kept key n spec earlier finished s' where
  resource := by
    obtain ⟨m, hm, hspec, howner⟩ := h.resource
    obtain ⟨m', hm', hspec', howner'⟩ := hs.resource m hm
    exact ⟨m', hm', hspec'.trans hspec, howner'.trans howner⟩
  objects c live' hlive' := by
    have hbare := hs.objects c
    rw [hlive', Option.map_some, eq_comm, Option.map_eq_some_iff] at hbare
    obtain ⟨live, hlive, hbare⟩ := hbare
    obtain ⟨spec', hspec', hc, hinstalled⟩ := h.objects c live hlive
    exact ⟨spec', hspec', hc, hinstalled.congr hbare.symm⟩
  current c hc := by
    obtain ⟨live, hlive, hinstalled⟩ := h.current c hc
    have hbare := hs.objects c
    rw [hlive, Option.map_some, Option.map_eq_some_iff] at hbare
    obtain ⟨live', hlive', hbare⟩ := hbare
    exact ⟨live', hlive', hinstalled.congr hbare⟩

/-- An object that is installed for the present desired state can be stored. -/
theorem putObject (h : Kept key n spec earlier finished s) (hc : c ∈ teardownComponents spec)
    (ho : c.Installed (n.asking spec) key.ns o) :
    Kept key n spec earlier (fun d => finished d ∨ d = c) (s.putObject (c.place key.ns) o) := by
  have hstored : c.Installed (n.asking spec) key.ns (o.withVersion s.nextVersion) :=
    ho.congr (ManagedObject.bare_withVersion _ _)
  have hother : ∀ d : Component, d ≠ c →
      (s.putObject (c.place key.ns) o).object? (d.place key.ns) =
        s.object? (d.place key.ns) := fun d hne =>
    Store.object?_putObject_of_ne o s fun hplace => hne (Component.place_injective hplace).1
  refine ⟨h.resource, fun d live hlive => ?_, fun d hd => ?_⟩
  · by_cases heq : d = c
    · subst heq
      rw [Store.object?_putObject_self] at hlive
      obtain rfl := Option.some.inj hlive
      exact ⟨spec, List.mem_cons_self, hc, hstored⟩
    · exact h.objects d live ((hother d heq).symm.trans hlive)
  · by_cases heq : d = c
    · subst heq
      exact ⟨_, Store.object?_putObject_self _ _ s, hstored⟩
    · obtain ⟨live, hlive, hinstalled⟩ := h.current d (hd.resolve_right heq)
      exact ⟨live, (hother d heq).trans hlive, hinstalled⟩

/-- A report keeps it. -/
theorem reported (h : Kept key n spec earlier finished s) (hcall : ReportCall call)
    {answer : Except Failure call.Answer} (hs : s.Serves call answer s') :
    Kept key n spec earlier finished s' := by
  obtain rfl | rfl := hs.after
  · exact h
  cases hcall with
  | get kind name ns => exact h
  | patchStatus name ns conditions =>
      refine h.touched ⟨fun c => congrArg _ (Store.object?_patchStatus _ conditions s _), ?_⟩
      intro m hm
      obtain hsame | ⟨stored, hstored, hafter⟩ :=
        Store.resource?_patchStatus ⟨ns, name⟩ conditions s key
      · exact ⟨m, hsame.trans hm, rfl, rfl⟩
      · obtain rfl := Option.some.inj (hstored.symm.trans hm)
        exact ⟨_, hafter, rfl, rfl⟩

/-- An object that is installed for the present desired state can be written; if that is accepted,
it is stored. -/
theorem written (h : Kept key n spec earlier finished s) (hc : c ∈ teardownComponents spec)
    (ho : c.Installed (n.asking spec) key.ns o)
    (hcall : call = .create o ∨ call = .update o) {answer : Except Failure call.Answer}
    (hs : s.Serves call answer s') :
    Kept key n spec earlier (fun d => finished d ∨ d = c ∧ answer.isOk = true) s' := by
  obtain rfl | ⟨rfl, hfailed⟩ := hs.stored hcall
  · rw [ho.key]
    exact (h.putObject hc ho).mono fun d hd => hd.imp_right And.left
  · exact h.unfinished hfailed

/-! ### One component -/

/-- While nothing is called, it is kept. -/
theorem idle (h : Kept key n spec earlier finished s)
    (hs : s.ServesAmid (Store.Touched key) [] s') : Kept key n spec earlier finished s' :=
  hs.keeps (fun _ _ hs h => h.touched hs) (by simp) h

/-- An object that is looked up is there at some time. -/
theorem found {live? : Option ManagedObject} (h : Kept key n spec earlier finished s)
    (hs : s.ServesAmid (Store.Touched key) (Component.found key.ns c live? :: t) s') :
    ∃ s₁, Kept key n spec earlier finished s₁ ∧ s₁.object? (c.place key.ns) = live? ∧
      s₁.ServesAmid (Store.Touched key) t s' := by
  obtain ⟨s₁, s₂, hidle, hserves, hrest⟩ := hs.of_cons
  obtain ⟨rfl, hread⟩ := hserves.object?_of_get
  exact ⟨s₂, h.idle hidle, hread, hrest⟩

/-- A single write of an object that is installed for the present desired state keeps it. -/
theorem wrote {answer : Except Failure call.Answer} (h : Kept key n spec earlier finished s)
    (hc : c ∈ teardownComponents spec) (ho : c.Installed (n.asking spec) key.ns o)
    (hcall : call = .create o ∨ call = .update o)
    (hs : s.ServesAmid (Store.Touched key) [⟨call, answer⟩] s') :
    Kept key n spec earlier (fun d => finished d ∨ d = c ∧ answer.isOk = true) s' := by
  obtain ⟨s₁, s₂, hbefore, hserves, hafter⟩ := hs.of_cons
  exact ((h.idle hbefore).written hc ho hcall hserves).idle hafter

/-- Convergence of a component keeps it, and if it ends without a failure, then the object of the
component is installed for the present desired state. -/
theorem attends {r : Except Failure Unit} (h : Kept key n spec earlier finished s)
    (hdigests : AllToldApart n key.ns (spec :: earlier)) (hspec : m.spec = spec)
    (howner : m.ownerReference? = n.ownerReference?) (hc : c ∈ teardownComponents spec)
    (hattends : c.Attends m key.ns t r) (hs : s.ServesAmid (Store.Touched key) t s') :
    Kept key n spec earlier (fun d => finished d ∨ d = c ∧ r.isOk = true) s' := by
  have hspec' : (n.asking spec).spec = m.spec := hspec.symm
  have howner' : (n.asking spec).ownerReference? = m.ownerReference? := howner.symm
  have hpresent : ∀ {o}, c.Installed m key.ns o → c.Installed (n.asking spec) key.ns o :=
    fun ho => ho.congr_owner hspec' howner'
  obtain ⟨outcome, hconverges, rfl⟩ := hattends
  cases hconverges with
  | unbuilt => exact (h.idle hs).unfinished rfl
  | unread f =>
      obtain ⟨s₁, s₂, hbefore, hserves, hafter⟩ := hs.of_cons
      have hsame : s₂ = s₁ := hserves.after.elim id id
      subst hsame
      exact ((h.idle hbefore).idle hafter).unfinished rfl
  | undecided =>
      obtain ⟨s₁, h₁, -, hrest⟩ := h.found hs
      exact (h₁.idle hrest).unfinished rfl
  | @left live? hleft =>
      obtain ⟨s₁, h₁, hread, hrest⟩ := h.found hs
      have hleft : c.amendment (n.asking spec) key.ns live? = .ok .leave :=
        (Component.amendment_congr hspec' howner' c key.ns live?).trans hleft
      have hfound : ∀ live, live? = some live → ∃ n₀,
          (n.asking spec).ownerReference? = n₀.ownerReference? ∧
            c.ToldApart n₀ (n.asking spec) key.ns ∧ c.Installed n₀ key.ns live := by
        intro live hlive
        obtain ⟨old, hold, hc', hinstalled⟩ := h₁.objects c live (hread.trans hlive)
        exact ⟨n.asking old, rfl, hdigests old hold spec List.mem_cons_self c hc' hc, hinstalled⟩
      obtain ⟨live, rfl, hinstalled⟩ := Component.exists_installed_of_leave hleft hfound
      exact ((h₁.finish hread hinstalled).idle hrest).mono fun d hd => hd.imp_right And.left
  | created answer hcreate =>
      obtain ⟨s₁, h₁, -, hrest⟩ := h.found hs
      obtain ⟨-, desired, hdesired, rfl⟩ := Component.exists_of_amendment_create hcreate
      have hwrote := h₁.wrote hc (hpresent (Component.installed_desired hdesired)) (.inl rfl) hrest
      cases answer <;> exact hwrote
  | updated answer hupdate =>
      obtain ⟨s₁, h₁, hread, hrest⟩ := h.found hs
      obtain ⟨desired, live, built, hdesired, heq, hbuilt, rfl⟩ :=
        Component.exists_of_amendment_update hupdate
      obtain rfl := Option.some.inj heq
      obtain ⟨spec', -, -, hinstalled⟩ := h₁.objects c _ hread
      have hwrote := h₁.wrote hc (hpresent (hinstalled.rebuilt howner hdesired hbuilt)) (.inr rfl)
        hrest
      cases answer <;> exact hwrote

/-! ### A whole pass -/

/-- So does the convergence of several components one after the other. -/
theorem parts {parts : Component → List Exchange}
    {ended : Component → Option (Except Failure Unit)} (hspec : m.spec = spec)
    (howner : m.ownerReference? = n.ownerReference?)
    (hdigests : AllToldApart n key.ns (spec :: earlier))
    (hparts : Attendance m key.ns parts ended) (cs : List Component)
    (h : Kept key n spec earlier finished s)
    (hs : s.ServesAmid (Store.Touched key) (cs.flatMap parts) s') :
    Kept key n spec earlier (fun d => finished d ∨ d ∈ cs ∧ ended d = some (.ok ())) s' := by
  induction cs generalizing finished s with
  | nil => exact (h.idle hs).mono fun d hd => hd.resolve_right fun hmem => nomatch hmem.1
  | cons c cs ih =>
      obtain ⟨s₁, hpart, hrest⟩ := hs.split
      obtain ⟨hnil, hskipped, -⟩ | ⟨r, hdue, hended, hattends⟩ := (hparts c).skipped_or_attended
      · rw [hnil] at hpart
        refine (ih (h.idle hpart) hrest).mono fun d hd => hd.imp_right fun hmem => ⟨?_, hmem.2⟩
        refine (List.mem_cons.mp hmem.1).resolve_left ?_
        rintro rfl
        cases hskipped.symm.trans hmem.2
      · have hc : c ∈ teardownComponents spec := hspec ▸ hdue.1
        refine (ih (h.attends hdigests hspec howner hc hattends hpart) hrest).mono fun d hd => ?_
        obtain hd | ⟨hmem, hok⟩ := hd
        · exact .inl (.inl hd)
        obtain rfl | hmem := List.mem_cons.mp hmem
        · obtain rfl := Option.some.inj (hended.symm.trans hok)
          exact .inl (.inr ⟨rfl, rfl⟩)
        · exact .inr ⟨hmem, hok⟩

/-- A pass that converges keeps it, and if it succeeds, then every component that is asked for is
installed for the present desired state. -/
theorem converged {config : Config} {time : Time} {r : Except Failure Action}
    (h : Kept key n spec earlier finished s)
    (hdigests : AllToldApart n key.ns (spec :: earlier)) (hspec : m.spec = spec)
    (howner : m.ownerReference? = n.ownerReference?)
    (hends : (convergePass config time m key.name key.ns).Ends t r)
    (hs : s.ServesAmid (Store.Touched key) t s') :
    Kept key n spec earlier
      (fun d => finished d ∨ d ∈ teardownComponents spec ∧ r.isOk = true) s' := by
  obtain ⟨parts, ended, report, status, rfl, hparts, hreport, hended⟩ := ends_convergePass hends
  obtain ⟨s₁, hconverged, hreported⟩ := hs.split
  have hcalls := (only_reportStatus time m key.name key.ns).of_ends hreport
  have h₁ := h.parts hspec howner hdigests hparts Component.passOrder hconverged
  have h₂ := hreported.keeps (fun _ _ hs h => h.touched hs)
    (fun e he _ _ hs h => h.reported (hcalls e he) hs) h₁
  refine h₂.mono fun d hd => hd.imp_right fun hdue => ?_
  obtain ⟨hmem, hr⟩ := hdue
  cases r with
  | error f => cases hr
  | ok action =>
      have hok := (List.append_eq_nil_iff.mp (conclude_eq_ok_iff.mp hended.symm).1).1
      exact ⟨Component.mem_passOrder.mpr (mem_teardownComponents.mp hmem).1,
        hparts.ended_ok hok (hspec ▸ hmem)⟩

end Kept

section Upgrades

variable {key : ResourceKey} {n m : NodeFeatureDiscovery} {spec : Spec} {earlier : List Spec}
  {converged : Bool} {c : Component} {desired : ManagedObject} {s s' : Store}
  {t : List Exchange}

/-! ### A whole history -/

/-- At any time of an upgrade the objects are installed for desired states that there have been, and
once a pass has succeeded since the last edit, for the present one. -/
theorem Upgrade.kept (h : Upgrade key n spec earlier converged s)
    (hdigests : AllToldApart n key.ns (spec :: earlier)) :
    Kept key n spec earlier (fun c => c ∈ teardownComponents spec ∧ converged = true) s := by
  induction h with
  | installed hn hempty =>
      refine ⟨⟨n, hn, rfl, rfl⟩, fun c live hlive => ?_, fun c hc => nomatch hc.2⟩
      cases (hempty c).symm.trans hlive
  | @edited spec earlier _ s spec' _ ih =>
      have hbefore := ih (hdigests.mono fun _ => List.mem_cons_of_mem _)
      obtain ⟨m, hm, hspec, howner⟩ := hbefore.resource
      obtain ⟨m', hm', hsame, hobjects⟩ := Store.resource?_editSpec hm spec'
      refine ⟨⟨m', hm', hsame.spec, hsame.owner.trans howner⟩, fun c live hlive => ?_,
        fun c hc => nomatch hc.2⟩
      obtain ⟨old, hold, hc, hinstalled⟩ :=
        hbefore.objects c live ((hobjects _).symm.trans hlive)
      exact ⟨old, List.mem_cons_of_mem _ hold, hc, hinstalled⟩
  | touched _ hs ih => exact (ih hdigests).touched hs
  | @passed spec earlier converged _ _ _ _ _ m t r _ hends hfin hdel hs ih =>
      obtain ⟨s₁, s₂, hbefore, hread, hafter⟩ := hs.of_cons
      obtain ⟨rfl, hm⟩ := hread.resource?_of_getResource
      have hkept := (ih hdigests).idle hbefore
      obtain ⟨m', hm', hspec, howner⟩ := hkept.resource
      obtain rfl := Option.some.inj (hm.symm.trans hm')
      have hconverged := hkept.converged hdigests hspec howner
        (ends_convergePass_of_read hends hfin hdel) hafter
      refine hconverged.mono fun c hc => ?_
      obtain ⟨hc, hdone⟩ := hc
      exact (Bool.or_eq_true_iff.mp hdone).imp (⟨hc, ·⟩) (⟨hc, ·⟩)

end Upgrades

end NodeFeatureOperator
