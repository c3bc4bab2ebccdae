import NodeFeatureOperator.Cluster.Store
import NodeFeatureOperator.Component.Basic

/-!
# What the store shows after a write

Each write is described by the two look-ups, of objects and of resources. A store is coherent when
every object lies under the key that it names; no call takes that away, and neither does another
client who writes objects under their own keys. Where a client may store an object under another
kind, the name and the namespace are all that a key has in common with its object.

## Main definitions

* `Component.place`: the key of the object of a component.
* `Store.Coherent`: objects lie under their keys.
* `Store.Named`: objects lie under keys of their names.

## Main results

* `Store.Coherent.respond`: every call leaves a coherent store coherent.
* `Store.object?_respond_eq_none`: only a creation brings an object to a key without one.
* `Store.resource?_respond`: only writes of resources touch resources.
-/

namespace NodeFeatureOperator

/-- The key of the object of a component in a namespace. -/
def Component.place (c : Component) (ns : String) : ObjectKey := ⟨c.kind, ns, c.name⟩

/-- Components have places of their own. -/
theorem Component.place_injective {c d : Component} {ns ns' : String}
    (h : c.place ns = d.place ns') : c = d ∧ ns = ns' := by
  obtain ⟨hkind, hns, hname⟩ := ObjectKey.mk.inj h
  refine ⟨?_, hns⟩
  revert hkind hname
  cases c <;> cases d <;> decide

/-- An object has the name and the namespace of a key. -/
def ObjectKey.Names (key : ObjectKey) (o : ManagedObject) : Prop :=
  o.ns = key.ns ∧ o.name = key.name

namespace NodeFeatureDiscovery

/-- The version of a resource has nothing to do with its finalizers. -/
@[simp] theorem hasFinalizer_withVersion (version : String) (n : NodeFeatureDiscovery) :
    (n.withVersion version).hasFinalizer = n.hasFinalizer := rfl

end NodeFeatureDiscovery

namespace Store

variable {s : Store} {key key' : ObjectKey} {o : ManagedObject}

/-! ### Look-ups after writes -/

@[simp] theorem object?_putObject_self (key : ObjectKey) (o : ManagedObject) (s : Store) :
    (s.putObject key o).object? key = some (o.withVersion s.nextVersion) :=
  Table.find?_insert_self key _ s.objects

theorem object?_putObject_of_ne (o : ManagedObject) (s : Store) (h : key' ≠ key) :
    (s.putObject key o).object? key' = s.object? key' :=
  Table.find?_insert_of_ne _ s.objects h

@[simp] theorem object?_dropObject_self (key : ObjectKey) (s : Store) :
    (s.dropObject key).object? key = none :=
  Table.find?_erase_self key s.objects

theorem object?_dropObject_of_ne (s : Store) (h : key' ≠ key) :
    (s.dropObject key).object? key' = s.object? key' :=
  Table.find?_erase_of_ne s.objects h

@[simp] theorem resource?_putResource_self (key : ResourceKey) (n : NodeFeatureDiscovery)
    (s : Store) : (s.putResource key n).resource? key = some (n.withVersion s.nextVersion) :=
  Table.find?_insert_self key _ s.resources

theorem resource?_putResource_of_ne {key key' : ResourceKey} (n : NodeFeatureDiscovery)
    (s : Store) (h : key' ≠ key) : (s.putResource key n).resource? key' = s.resource? key' :=
  Table.find?_insert_of_ne _ s.resources h

@[simp] theorem resource?_putObject (key : ObjectKey) (o : ManagedObject) (s : Store)
    (k : ResourceKey) : (s.putObject key o).resource? k = s.resource? k := rfl

/-! ### Calls -/

/-- An object is created where there is none. -/
theorem create_of_absent (h : s.object? o.key = none) :
    s.create o = (.ok (), s.putObject o.key o) := by
  rw [create, h]

/-- An object is replaced by one that was made from its version. -/
theorem update_of_current {stored : ManagedObject} (h : s.object? o.key = some stored)
    (hversion : stored.metadata.resourceVersion = o.metadata.resourceVersion) :
    s.update o = (.ok (), s.putObject o.key o) := by
  rw [update, h]
  exact if_pos hversion

/-- An object is not replaced by one that was made from another version. -/
theorem update_of_outdated {stored : ManagedObject} (h : s.object? o.key = some stored)
    (hversion : stored.metadata.resourceVersion ≠ o.metadata.resourceVersion) :
    s.update o = (.error conflict, s) := by
  rw [update, h]
  exact if_neg hversion

/-- A creation that is accepted stores the object under its key. -/
theorem eq_of_create_ok {s' : Store} (h : s.create o = (.ok (), s')) :
    s' = s.putObject o.key o := by
  rw [create] at h
  split at h
  · cases h
  · exact (Prod.mk.inj h).2.symm

/-- An update that is accepted replaces an object of the version that it was made from. -/
theorem exists_of_update_ok {s' : Store} (h : s.update o = (.ok (), s')) :
    ∃ stored, s.object? o.key = some stored ∧
      stored.metadata.resourceVersion = o.metadata.resourceVersion ∧ s' = s.putObject o.key o := by
  rw [update] at h
  split at h
  · cases h
  next stored hstored =>
    split at h
    next hversion => exact ⟨stored, hstored, hversion, (Prod.mk.inj h).2.symm⟩
    · cases h

/-- An update of a resource that is accepted replaces one of the version that it was made from. -/
theorem exists_of_updateResource_ok {n n' : NodeFeatureDiscovery} {s' : Store}
    (h : s.updateResource n = (.ok n', s')) :
    ∃ stored, s.resource? n.key = some stored ∧
      stored.metadata.resourceVersion = n.metadata.resourceVersion := by
  rw [updateResource] at h
  split at h
  · cases h
  next stored hstored =>
    split at h
    next hversion => exact ⟨stored, hstored, hversion⟩
    · cases h

/-- A call that is rejected leaves the store as it is. -/
theorem respond_of_error {call : Call} {f : Failure} {s' : Store}
    (h : s.respond call = (.error f, s')) : s' = s := by
  cases call with
  | getResource name ns => cases h
  | updateResource n =>
      simp only [respond, updateResource] at h
      split at h
      · exact (Prod.mk.inj h).2.symm
      · split at h
        · split at h <;> cases h
        · exact (Prod.mk.inj h).2.symm
  | patchStatus name ns conditions =>
      simp only [respond, patchStatus] at h
      split at h
      · exact (Prod.mk.inj h).2.symm
      · cases h
  | get kind name ns => cases h
  | create o =>
      simp only [respond, create] at h
      split at h
      · exact (Prod.mk.inj h).2.symm
      · cases h
  | update o =>
      simp only [respond, update] at h
      split at h
      · exact (Prod.mk.inj h).2.symm
      · split at h
        · cases h
        · exact (Prod.mk.inj h).2.symm
  | delete kind name ns => cases h

/-- Writes of resources do not touch objects. -/
theorem object?_updateResource (n : NodeFeatureDiscovery) (s : Store) (k : ObjectKey) :
    (s.updateResource n).2.object? k = s.object? k := by
  rw [updateResource]
  split
  · rfl
  · split
    · dsimp only
      split <;> rfl
    · rfl

/-- Writes of conditions do not touch objects. -/
theorem object?_patchStatus (key : ResourceKey) (conditions : List Condition) (s : Store)
    (k : ObjectKey) : (s.patchStatus key conditions).2.object? k = s.object? k := by
  rw [patchStatus]
  split <;> rfl

/-- An object appears where there was none only by its creation. -/
theorem object?_respond_eq_none {call : Call} (h : s.object? key = none)
    (hc : ∀ o, call = .create o → o.key ≠ key) : (s.respond call).2.object? key = none := by
  cases call with
  | getResource name ns => exact h
  | updateResource n => exact (object?_updateResource n s key).trans h
  | patchStatus name ns conditions => exact (object?_patchStatus _ conditions s key).trans h
  | get kind name ns => exact h
  | create o =>
      have hne : key ≠ o.key := (hc o rfl).symm
      simp only [respond, create]
      split
      · exact h
      · exact (object?_putObject_of_ne o s hne).trans h
  | update o =>
      simp only [respond, update]
      split
      · exact h
      next stored hstored =>
        have hne : key ≠ o.key := by
          rintro rfl
          rw [h] at hstored
          cases hstored
        split
        · exact (object?_putObject_of_ne o s hne).trans h
        · exact h
  | delete kind name ns =>
      by_cases hk : key = ⟨kind, ns, name⟩
      · subst hk
        exact object?_dropObject_self _ s
      · exact (object?_dropObject_of_ne s hk).trans h

/-- An object that is there after a call that writes no object was there before. -/
theorem object?_of_respond {call : Call} (hc : call.written? = none)
    (h : (s.respond call).2.object? key = some o) : s.object? key = some o := by
  cases call with
  | getResource name ns => exact h
  | updateResource n => exact (object?_updateResource n s key).symm.trans h
  | patchStatus name ns conditions => exact (object?_patchStatus _ conditions s key).symm.trans h
  | get kind name ns => exact h
  | create o => cases hc
  | update o => cases hc
  | delete kind name ns =>
      by_cases hk : key = ⟨kind, ns, name⟩
      · subst hk
        cases (object?_dropObject_self _ s).symm.trans h
      · exact (object?_dropObject_of_ne s hk).symm.trans h

/-- A call that writes no resource leaves them all. -/
theorem resource?_respond {call : Call} (k : ResourceKey)
    (hu : ∀ n, call ≠ .updateResource n) (hp : ∀ name ns cs, call ≠ .patchStatus name ns cs) :
    (s.respond call).2.resource? k = s.resource? k := by
  cases call with
  | getResource name ns => rfl
  | updateResource n => exact absurd rfl (hu n)
  | patchStatus name ns conditions => exact absurd rfl (hp name ns conditions)
  | get kind name ns => rfl
  | create o =>
      simp only [respond, create]
      split <;> rfl
  | update o =>
      simp only [respond, update]
      split
      · rfl
      · split <;> rfl
  | delete kind name ns => rfl

/-- The stored resource once finalizers and desired state were replaced by those of another. -/
def replaced (m stored : NodeFeatureDiscovery) : NodeFeatureDiscovery :=
  { stored with
    metadata := { stored.metadata with finalizers := m.metadata.finalizers }
    spec := m.spec }

/-- After an update the stored resource is as it was, or it has the finalizers and the desired state
of the update, or it has gone because it was only waiting for its last finalizer. -/
theorem resource?_updateResource (m : NodeFeatureDiscovery) (s : Store) (k : ResourceKey) :
    (s.updateResource m).2.resource? k = s.resource? k ∨
      ∃ stored, s.resource? k = some stored ∧
        ((s.updateResource m).2.resource? k =
            some ((replaced m stored).withVersion s.nextVersion) ∨
          (isReleased (replaced m stored) = true ∧
            (s.updateResource m).2.resource? k = none)) := by
  rw [updateResource]
  split
  · exact .inl rfl
  next stored hstored =>
    split
    · dsimp only
      by_cases hk : k = m.key
      · subst hk
        refine .inr ⟨stored, hstored, ?_⟩
        split
        next hreleased => exact .inr ⟨hreleased, Table.find?_erase_self _ _⟩
        · exact .inl (resource?_putResource_self _ _ s)
      · refine .inl ?_
        split
        · exact (Table.find?_erase_of_ne _ hk).trans (resource?_putResource_of_ne _ s hk)
        · exact resource?_putResource_of_ne _ s hk
    · exact .inl rfl

/-- An update made from the stored version takes effect. -/
theorem resource?_updateResource_current {m stored : NodeFeatureDiscovery} {s : Store}
    (h : s.resource? m.key = some stored)
    (hversion : stored.metadata.resourceVersion = m.metadata.resourceVersion)
    (hkept : isReleased (replaced m stored) = false) :
    (s.updateResource m).2.resource? m.key =
      some ((replaced m stored).withVersion s.nextVersion) := by
  rw [replaced] at hkept
  rw [updateResource, h]
  simp only [if_pos hversion, hkept, Bool.false_eq_true, if_false]
  exact resource?_putResource_self _ _ s

/-- After a report the stored resource is as it was but for its status. -/
theorem resource?_patchStatus (key : ResourceKey) (conditions : List Condition) (s : Store)
    (k : ResourceKey) :
    (s.patchStatus key conditions).2.resource? k = s.resource? k ∨
      ∃ stored, s.resource? k = some stored ∧
        (s.patchStatus key conditions).2.resource? k =
          some ({ stored with status := some conditions }.withVersion s.nextVersion) := by
  rw [patchStatus]
  split
  · exact .inl rfl
  next stored hstored =>
    by_cases hk : k = key
    · subst hk
      exact .inr ⟨stored, hstored, resource?_putResource_self _ _ s⟩
    · exact .inl (resource?_putResource_of_ne _ s hk)

/-! ### Coherence -/

/-- Every object lies under the key that it names. -/
def Coherent (s : Store) : Prop := ∀ key o, s.object? key = some o → o.key = key

/-- An empty store is coherent. -/
theorem coherent_of_empty (h : s.objects = []) : s.Coherent := by
  intro key o ho
  rw [object?, h] at ho
  cases ho

/-- An object written under its own key leaves the store coherent. -/
theorem Coherent.putObject (hs : s.Coherent) (ho : o.key = key) :
    (s.putObject key o).Coherent := by
  intro key' o' h
  by_cases hk : key' = key
  · subst hk
    rw [object?_putObject_self] at h
    obtain rfl := Option.some.inj h
    exact ho
  · rw [object?_putObject_of_ne o s hk] at h
    exact hs key' o' h

/-- Removing an object leaves the store coherent. -/
theorem Coherent.dropObject (hs : s.Coherent) (key : ObjectKey) : (s.dropObject key).Coherent := by
  intro key' o' h
  by_cases hk : key' = key
  · subst hk
    rw [object?_dropObject_self] at h
    cases h
  · rw [object?_dropObject_of_ne s hk] at h
    exact hs key' o' h

/-- Every call leaves a coherent store coherent. -/
theorem Coherent.respond (hs : s.Coherent) (call : Call) : (s.respond call).2.Coherent := by
  cases call with
  | getResource name ns => exact hs
  | updateResource n =>
      intro key o h
      exact hs key o ((object?_updateResource n s key).symm.trans h)
  | patchStatus name ns conditions =>
      intro key o h
      exact hs key o ((object?_patchStatus _ conditions s key).symm.trans h)
  | get kind name ns => exact hs
  | create o =>
      simp only [Store.respond, create]
      split
      · exact hs
      · exact hs.putObject rfl
  | update o =>
      simp only [Store.respond, update]
      split
      · exact hs
      · split
        · exact hs.putObject rfl
        · exact hs
  | delete kind name ns => exact hs.dropObject _

/-! ### Names -/

/-- Every object lies under a key of its name and namespace, if perhaps under another kind. -/
def Named (s : Store) : Prop := ∀ key o, s.object? key = some o → key.Names o

/-- Objects that lie under their keys lie under keys of their names. -/
theorem Coherent.named (hs : s.Coherent) : s.Named := by
  intro key o h
  obtain rfl := hs key o h
  exact ⟨rfl, rfl⟩

/-- A look-up that gives the same in another store gives an object of the same names. -/
theorem Named.congr {s' : Store} (hs : s.Named) (h : ∀ key, s'.object? key = s.object? key) :
    s'.Named := fun key o ho => hs key o ((h key).symm.trans ho)

/-- An object written under a key of its names leaves the other names as they are. -/
theorem Named.putObject (hs : s.Named) (ho : key.Names o) : (s.putObject key o).Named := by
  intro key' o' h
  by_cases hk : key' = key
  · subst hk
    rw [object?_putObject_self] at h
    obtain rfl := Option.some.inj h
    exact ho
  · rw [object?_putObject_of_ne o s hk] at h
    exact hs key' o' h

/-- Every call leaves objects under keys of their names. -/
theorem Named.respond (hs : s.Named) (call : Call) : (s.respond call).2.Named := by
  cases call with
  | getResource name ns => exact hs
  | updateResource n => exact hs.congr (object?_updateResource n s)
  | patchStatus name ns conditions => exact hs.congr (object?_patchStatus _ conditions s)
  | get kind name ns => exact hs
  | create o =>
      simp only [Store.respond, create]
      split
      · exact hs
      · exact hs.putObject ⟨rfl, rfl⟩
  | update o =>
      simp only [Store.respond, update]
      split
      · exact hs
      · split
        · exact hs.putObject ⟨rfl, rfl⟩
        · exact hs
  | delete kind name ns =>
      intro key o h
      by_cases hk : key = ⟨kind, ns, name⟩
      · subst hk
        cases (object?_dropObject_self _ s).symm.trans h
      · exact hs key o ((object?_dropObject_of_ne s hk).symm.trans h)

end Store

end NodeFeatureOperator
