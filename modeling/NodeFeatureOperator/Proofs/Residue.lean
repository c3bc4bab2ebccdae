import NodeFeatureOperator.Proofs.Faults

/-!
# No residue of an earlier build

An object apart from its version and its status is bare. A build writes the same onto an object and
onto the bare one, and nothing is left of what an earlier build of the component wrote for the same
owner (`Component.built_of_built`). So an object that was installed, for whichever desired state,
becomes by the next write the object that a fresh install creates.

## Main definitions

* `ManagedObject.bare`: an object apart from its version and its status.
* `Component.Installed`: an object is the one that a fresh install creates, but for these.

## Main results

* `Component.built_bare`: a build onto an object, bared, is the build onto the bare object.
* `Component.Installed.rebuilt`, `Component.Installed.of_fresh`: an object that was installed is
  replaced by, or recognised as, one that is installed for the present desired state.
-/

namespace NodeFeatureOperator

/-- A content apart from its status. -/
def Content.bare : Content → Content
  | .configMap x => .configMap x
  | .daemonSet w => .daemonSet { w with status := none }
  | .deployment w => .deployment { w with status := none }
  | .job w => .job { w with status := none }

namespace ManagedObject

/-- An object apart from its version and its status. -/
def bare (o : ManagedObject) : ManagedObject :=
  { o.unversioned with content := o.content.bare }

@[simp] theorem bare_withVersion (version : String) (o : ManagedObject) :
    (o.withVersion version).bare = o.bare := rfl

/-- The digest recorded on an object stands on the bare object. -/
@[simp] theorem bare_recordHash (hash : String) (o : ManagedObject) :
    (o.recordHash hash).bare = o.bare.recordHash hash := rfl

@[simp] theorem recordedHash_bare (o : ManagedObject) : o.bare.recordedHash = o.recordedHash := rfl

/-- A digest recorded later replaces the one before. -/
@[simp] theorem recordHash_recordHash (hash hash' : String) (o : ManagedObject) :
    (o.recordHash hash).recordHash hash' = o.recordHash hash' := by
  simp only [recordHash, Option.getD_some, Dict.insert_insert_self]

/-- The key that an object names is that of the bare object. -/
@[simp] theorem key_bare (o : ManagedObject) : o.bare.key = o.key := by
  obtain ⟨m, content⟩ := o
  cases content <;> rfl

end ManagedObject

namespace Component

variable {c : Component} {n n' : NodeFeatureDiscovery} {ns : String}
  {o b desired live built : ManagedObject}

/-! ### Builds of bare objects -/

/-- What is filled into a content goes into the bare one. -/
theorem fill_bare (c : Component) (s : Spec) (x : Content) :
    c.fill s x.bare = (c.fill s x).map Content.bare := by
  cases c <;> cases x <;> rfl

/-- A build onto an object, bared, is the build onto the bare object. -/
theorem built_bare (h : c.built n o = .ok b) : c.built n o.bare = .ok b.bare := by
  obtain ⟨content, ref, hfill, href, hforeign, rfl⟩ := built_eq_ok_iff.mp h
  have hbare : c.fill n.spec o.bare.content = some content.bare := by
    rw [ManagedObject.bare, fill_bare, hfill]
    rfl
  exact built_eq_ok_iff.mpr ⟨content.bare, ref, hbare, href, hforeign, rfl⟩

/-- What can be built onto the bare object can be built onto the object. -/
theorem exists_built_of_bare (h : c.built n o.bare = .ok b) : ∃ b', c.built n o = .ok b' := by
  obtain ⟨content, ref, hfill, href, hforeign, -⟩ := built_eq_ok_iff.mp h
  obtain ⟨content', hfill', -⟩ := Option.map_eq_some_iff.mp ((fill_bare c _ _).symm.trans hfill)
  exact ⟨_, built_eq_ok_iff.mpr ⟨content', ref, hfill', href, hforeign, rfl⟩⟩

/-- Version and status do not stay on an object that is built from scratch. -/
theorem desired_bare (h : c.desired n ns = .ok desired) : desired.bare = desired := by
  have hempty : (c.emptyObject ns).bare = c.emptyObject ns := by cases c <;> rfl
  have hbare := built_bare h
  rw [hempty] at hbare
  exact Except.ok.inj (hbare.symm.trans h)

/-! ### Installed objects -/

/-- Apart from version and status an object is the one that a fresh install creates: built from
scratch, with the digest of that recorded on it. -/
def Installed (c : Component) (n : NodeFeatureDiscovery) (ns : String) (live : ManagedObject) :
    Prop :=
  ∃ desired, c.desired n ns = .ok desired ∧ live.bare = desired.recordHash desired.contentHash

/-- Whether an object is installed can be seen from the bare object. -/
theorem Installed.congr {live' : ManagedObject} (h : c.Installed n ns live)
    (hlive : live'.bare = live.bare) : c.Installed n ns live' := by
  obtain ⟨desired, hdesired, hbare⟩ := h
  exact ⟨desired, hdesired, hlive.trans hbare⟩

/-- Of the resource only the desired state and what identifies the owner count. -/
theorem Installed.congr_owner (h : c.Installed n ns live) (hspec : n'.spec = n.spec)
    (href : n'.ownerReference? = n.ownerReference?) : c.Installed n' ns live := by
  obtain ⟨desired, hdesired, hbare⟩ := h
  exact ⟨desired, (desired_congr hspec href c ns).trans hdesired, hbare⟩

/-- An installed object names the place of its component. -/
theorem Installed.key (h : c.Installed n ns live) : live.key = c.place ns := by
  obtain ⟨desired, hdesired, hbare⟩ := h
  rw [← ManagedObject.key_bare, hbare, ManagedObject.key_recordHash, desired_key hdesired]

/-- An object that is created is installed. -/
theorem installed_desired (h : c.desired n ns = .ok desired) :
    c.Installed n ns (desired.recordHash desired.contentHash) :=
  ⟨desired, h, by rw [ManagedObject.bare_recordHash, desired_bare h]⟩

/-- An object that was installed can be built onto, for whichever desired state. -/
theorem Installed.exists_built (h : c.Installed n ns live)
    (href : n'.ownerReference? = n.ownerReference?) (hdesired : c.desired n' ns = .ok desired) :
    ∃ built, c.built n' live = .ok built := by
  obtain ⟨old, hold, hlive⟩ := h
  have hbare := built_recordHash old.contentHash (built_of_built href hold hdesired)
  rw [← hlive] at hbare
  exact exists_built_of_bare hbare

/-- What is built onto an object that was installed, for whichever desired state, is installed once
its digest is recorded. -/
theorem Installed.rebuilt (h : c.Installed n ns live)
    (href : n'.ownerReference? = n.ownerReference?) (hdesired : c.desired n' ns = .ok desired)
    (hbuilt : c.built n' live = .ok built) :
    c.Installed n' ns (built.recordHash desired.contentHash) := by
  obtain ⟨old, hold, hlive⟩ := h
  have hagain := built_recordHash old.contentHash (built_of_built href hold hdesired)
  rw [← hlive] at hagain
  have hbare := Except.ok.inj ((built_bare hbuilt).symm.trans hagain)
  refine ⟨desired, hdesired, ?_⟩
  rw [ManagedObject.bare_recordHash, hbare, ManagedObject.recordHash_recordHash]

/-- An object that was installed and has the digest of the desired one is installed, if the digests
tell these apart. -/
theorem Installed.of_fresh (h : c.Installed n ns live) (hdigest : c.ToldApart n n' ns)
    (hdesired : c.desired n' ns = .ok desired)
    (hfresh : live.recordedHash = some desired.contentHash) : c.Installed n' ns live := by
  obtain ⟨old, hold, hlive⟩ := h
  have hrecorded : live.recordedHash = some old.contentHash := by
    rw [← ManagedObject.recordedHash_bare, hlive, ManagedObject.recordedHash_recordHash]
  obtain rfl := hdigest old desired hold hdesired
    (Option.some.inj (hrecorded.symm.trans hfresh))
  exact ⟨old, hdesired, hlive⟩

/-- An object that is left is installed, if what is found was, for whichever desired state, and if
the digests tell that one from the present one. -/
theorem exists_installed_of_leave {live? : Option ManagedObject}
    (h : c.amendment n ns live? = .ok .leave)
    (hlive : ∀ live, live? = some live → ∃ n₀, n.ownerReference? = n₀.ownerReference? ∧
      c.ToldApart n₀ n ns ∧ c.Installed n₀ ns live) :
    ∃ live, live? = some live ∧ c.Installed n ns live := by
  obtain ⟨desired, live, hdesired, rfl, hexit⟩ := exists_of_amendment_leave h
  obtain ⟨n₀, href, hdigest, hinstalled⟩ := hlive live rfl
  refine ⟨live, rfl, ?_⟩
  obtain hfresh | ⟨built, hbuilt, heq⟩ := hexit
  · exact hinstalled.of_fresh hdigest hdesired hfresh
  · exact heq ▸ hinstalled.rebuilt href hdesired hbuilt

/-- It can be told what to do about a component that is missing, or that was installed for whichever
desired state. -/
theorem exists_amendment {live? : Option ManagedObject} (hdesired : c.desired n ns = .ok desired)
    (hlive : ∀ live, live? = some live → ∃ n₀, n.ownerReference? = n₀.ownerReference? ∧
      c.Installed n₀ ns live) : ∃ a, c.amendment n ns live? = .ok a := by
  cases live? with
  | none => exact ⟨_, amendment_none hdesired⟩
  | some live =>
      obtain ⟨n₀, href, hinstalled⟩ := hlive live rfl
      obtain ⟨built, hbuilt⟩ := hinstalled.exists_built href hdesired
      rw [amendment, hdesired]
      dsimp only
      split
      · exact ⟨_, rfl⟩
      · rw [hbuilt]
        dsimp only
        split <;> exact ⟨_, rfl⟩

end Component

end NodeFeatureOperator
