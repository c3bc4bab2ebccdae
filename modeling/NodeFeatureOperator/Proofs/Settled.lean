import NodeFeatureOperator.Proofs.Build
import NodeFeatureOperator.Proofs.Converge
import NodeFeatureOperator.Proofs.Quiet
import NodeFeatureOperator.Proofs.Store

/-!
# Settled components

A component is settled if convergence leaves it alone, for either of its two reasons: the object has
the recorded digest and carries what is desired, or a build onto it gives it back. On a store that
gives back what was written, each outcome of convergence leaves the component settled, and nothing
that happens to other components or to the resource's status unsettles it.

## Main definitions

* `Component.Settled`: convergence leaves the component alone.
* `Component.Converged`: what convergence makes of a store.

## Main results

* `Component.Settled.quiet`: convergence of a settled component only reads.
* `Component.converged_of_run`: convergence that succeeds settles its component.
-/

namespace NodeFeatureOperator

/-- Programs leave a coherent store coherent. -/
theorem Store.Coherent.run {α : Type} {p : Program α} {s s' : Store} (hs : s.Coherent) {r : α}
    {time time' : Duration} (h : p.run Store.respond s time = (r, s', time')) : s'.Coherent := by
  induction p generalizing s time with
  | done a =>
      obtain ⟨-, rfl, -⟩ := Program.run_done_eq_iff.mp h
      exact hs
  | call c next ih => exact ih _ (hs.respond c) h
  | sleep length next ih => exact ih hs h
  | clock next ih => exact ih time hs h

namespace Component

variable {c : Component} {n : NodeFeatureDiscovery} {ns : String} {s s' : Store}

/-! ### Settled components -/

/-- Convergence leaves the component alone: its object carries the digest and the content of the
desired one, or is what a build onto it gives. -/
def Settled (c : Component) (n : NodeFeatureDiscovery) (ns : String) (s : Store) : Prop :=
  ∃ desired live, c.desired n ns = .ok desired ∧ s.object? (c.place ns) = some live ∧
    ((live.recordedHash = some desired.contentHash ∧ live.carries desired = true) ∨
      ∃ built, c.built n live = .ok built ∧ built.recordHash desired.contentHash = live)

/-- Whether a component is settled can be seen from its object alone. -/
theorem Settled.congr (h : c.Settled n ns s)
    (hs : s'.object? (c.place ns) = s.object? (c.place ns)) : c.Settled n ns s' := by
  obtain ⟨desired, live, hdesired, hlive, hexit⟩ := h
  exact ⟨desired, live, hdesired, hs.trans hlive, hexit⟩

/-- Whether a component is settled depends on the desired state and on what identifies the owner. -/
theorem Settled.congr_owner {n' : NodeFeatureDiscovery} (h : c.Settled n ns s)
    (hspec : n'.spec = n.spec) (href : n'.ownerReference? = n.ownerReference?) :
    c.Settled n' ns s := by
  obtain ⟨desired, live, hdesired, hlive, hexit⟩ := h
  refine ⟨desired, live, (desired_congr hspec href c ns).trans hdesired, hlive, ?_⟩
  rwa [built_congr hspec href c live]

/-- An object that was written with its digest is what a build onto it gives. -/
theorem settled_putObject {desired b : ManagedObject} (hdesired : c.desired n ns = .ok desired)
    (hb : c.built n b = .ok b) :
    c.Settled n ns (s.putObject (c.place ns) (b.recordHash desired.contentHash)) := by
  have hbuilt := built_withVersion s.nextVersion (built_recordHash desired.contentHash hb)
  refine ⟨desired, _, hdesired, Store.object?_putObject_self _ _ s, .inr ⟨_, hbuilt, ?_⟩⟩
  simp only [ManagedObject.recordHash, ManagedObject.withVersion, Metadata.withVersion,
    Option.getD_some, Dict.insert_insert_self]

/-- Convergence of a settled component only reads. -/
theorem Settled.quiet (h : c.Settled n ns s) : (c.settle n ns).Quiet s (.ok ()) := by
  obtain ⟨desired, live, hdesired, hlive, hexit⟩ := h
  have hcore : (c.convergeCore n ns).Quiet s (.ok .unchanged) := by
    rw [convergeCore, hdesired]
    refine .call rfl ?_
    have hget : (s.respond (.get c.kind c.name ns)).1 = .ok (some live) := congrArg Except.ok hlive
    rw [hget]
    dsimp only [Program.bind]
    split
    · exact .done _
    next hstale =>
      obtain hfresh | ⟨built, hbuilt, hsame⟩ := hexit
      · exact absurd hfresh hstale
      · rw [rebuild, hbuilt]
        dsimp only
        rw [if_pos hsame]
        exact .done _
  have hconverge : (c.converge n ns).Quiet s (.ok .unchanged) := hcore.bind (.done _)
  exact hconverge.bind (.done _)

/-! ### Convergence settles -/

/-- What convergence makes of a store: the component is settled in it, and nothing was written but,
if anything, the object at the place of the component. -/
def Converged (c : Component) (n : NodeFeatureDiscovery) (ns : String) (s s' : Store) : Prop :=
  c.Settled n ns s' ∧ (s' = s ∨ ∃ o, o.key = c.place ns ∧ s' = s.putObject (c.place ns) o)

/-- A component that is rebuilt without a failure is settled. -/
theorem converged_of_rebuild {desired live : ManagedObject} {outcome : Outcome}
    {time time' : Duration} (hs : s.Coherent) (hdesired : c.desired n ns = .ok desired)
    (hlive : s.object? (c.place ns) = some live)
    (h : (c.rebuild n desired.contentHash live).run Store.respond s time =
      (.ok outcome, s', time')) : c.Converged n ns s s' := by
  rw [rebuild] at h
  cases hbuilt : c.built n live with
  | error f =>
      rw [hbuilt] at h
      cases (Prod.mk.inj h).1
  | ok built =>
      rw [hbuilt] at h
      dsimp only at h
      split at h
      next hsame =>
        obtain ⟨-, rfl, -⟩ := Program.run_done_eq_iff.mp h
        exact ⟨⟨desired, live, hdesired, hlive, .inr ⟨built, hbuilt, hsame⟩⟩, .inl rfl⟩
      next hchanged =>
        have hkey : (built.recordHash desired.contentHash).key = c.place ns :=
          (ManagedObject.key_recordHash _ _).trans (built_key hbuilt (hs _ _ hlive))
        have hcurrent : s.object? (built.recordHash desired.contentHash).key = some live := by
          rw [hkey, hlive]
        have hupdate := Store.update_of_current hcurrent (built_resourceVersion hbuilt).symm
        simp only [Program.bind_eq, Program.request, Program.bind, Program.run, Store.respond,
          hupdate] at h
        obtain ⟨-, rfl, -⟩ := Program.run_done_eq_iff.mp h
        rw [hkey]
        exact ⟨settled_putObject hdesired (built_built hbuilt), .inr ⟨_, hkey, rfl⟩⟩

/-- A component that is converged without a failure is settled. -/
theorem converged_of_core {outcome : Outcome} {time time' : Duration} (hs : s.Coherent)
    (h : (c.convergeCore n ns).run Store.respond s time = (.ok outcome, s', time')) :
    c.Converged n ns s s' := by
  rw [convergeCore] at h
  cases hdesired : c.desired n ns with
  | error f =>
      rw [hdesired] at h
      cases (Prod.mk.inj h).1
  | ok desired =>
      have hkey : (desired.recordHash desired.contentHash).key = c.place ns :=
        (ManagedObject.key_recordHash _ _).trans (desired_key hdesired)
      rw [hdesired] at h
      have hget : s.respond (.get c.kind c.name ns) = (.ok (s.object? (c.place ns)), s) := rfl
      simp only [Program.bind_eq, Program.request, Program.bind, Program.run, hget] at h
      cases hlive : s.object? (c.place ns) with
      | none =>
          rw [hlive] at h
          have hcreate := Store.create_of_absent (s := s) (hkey.symm ▸ hlive)
          simp only [createWith, Program.bind_eq, Program.request, Program.bind, Program.run,
            Store.respond, hcreate] at h
          obtain ⟨-, rfl, -⟩ := Program.run_done_eq_iff.mp h
          rw [hkey]
          exact ⟨settled_putObject hdesired (built_built hdesired), .inr ⟨_, hkey, rfl⟩⟩
      | some live =>
          rw [hlive] at h
          dsimp only at h
          split at h
          next hfresh =>
            obtain ⟨-, rfl, -⟩ := Program.run_done_eq_iff.mp h
            exact ⟨⟨desired, live, hdesired, hlive, .inl hfresh⟩, .inl rfl⟩
          · exact converged_of_rebuild hs hdesired hlive h

/-- A component that is converged without a failure on a coherent store is settled. -/
theorem converged_of_run {time time' : Duration} (hs : s.Coherent)
    (h : (c.settle n ns).run Store.respond s time = (.ok (), s', time')) :
    c.Converged n ns s s' := by
  obtain ⟨converged, s₂, time₂, hconverge, hsettle⟩ := Program.exists_run_of_bind h
  obtain ⟨outcome, s₁, time₁, hcore, hmap⟩ := Program.exists_run_of_bind hconverge
  obtain ⟨rfl, rfl, rfl⟩ := Program.run_done_eq_iff.mp hmap
  obtain ⟨hvalue, rfl, rfl⟩ := Program.run_done_eq_iff.mp hsettle
  cases outcome with
  | error f => cases hvalue
  | ok outcome => exact converged_of_core hs hcore

/-- Convergence touches no resource. -/
theorem Converged.resource? (h : c.Converged n ns s s') (k : ResourceKey) :
    s'.resource? k = s.resource? k := by
  obtain ⟨-, rfl | ⟨o, -, rfl⟩⟩ := h
  · rfl
  · exact Store.resource?_putObject _ o s k

/-- Convergence leaves a coherent store coherent. -/
theorem Converged.coherent (h : c.Converged n ns s s') (hs : s.Coherent) : s'.Coherent := by
  obtain ⟨-, rfl | ⟨o, ho, rfl⟩⟩ := h
  · exact hs
  · exact hs.putObject ho

/-- Convergence of one component leaves another one settled. -/
theorem Converged.settled {d : Component} (h : c.Converged n ns s s') (hd : d.Settled n ns s) :
    d.Settled n ns s' := by
  obtain ⟨hc, rfl | ⟨o, -, rfl⟩⟩ := h
  · exact hd
  · by_cases heq : d = c
    · subst heq
      exact hc
    · refine hd.congr (Store.object?_putObject_of_ne o s fun hplace => heq ?_)
      exact (place_injective hplace).1

end Component

end NodeFeatureOperator
