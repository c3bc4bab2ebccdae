import NodeFeatureOperator.Cluster.Store
import NodeFeatureOperator.Component.Build

/-!
# Building onto an object

When a build succeeds, what it gives, and why a second build adds nothing. A build reads labels and
owner references of the object and merges its own into them; everything else that it writes it
replaces. So it commutes with notes on the object that it does not read, its version and the digest
recorded on it, and building again onto a built object gives that object back.

## Main results

* `Component.built_eq_ok_iff`: exactly when a build succeeds, and with what.
* `Component.built_of_built`: of an earlier build for the same owner nothing is left.
* `Component.built_built`: a second build changes nothing.
* `Component.built_recordHash`, `Component.built_withVersion`: digest and version play no part.
* `Component.built_congr`: of the resource, a build reads identity and desired state only.
-/

namespace NodeFeatureOperator

/-! ### Merging labels and references -/

/-- Of two keys in order, the smaller can be put in again after the larger. -/
theorem Dict.insert_insert_of_lt {α : Type} {a b : String} (hab : a < b) (x x' y : α)
    (d : Dict α) :
    Dict.insert a x (Dict.insert b y (Dict.insert a x' d)) =
      Dict.insert b y (Dict.insert a x d) := by
  have hne : a ≠ b := String.ne_of_lt hab
  have hlt : ¬ b < a := String.lt_asymm hab
  induction d with
  | nil => simp [Dict.insert, hne, hlt]
  | cons e rest ih =>
      obtain ⟨k, v⟩ := e
      by_cases hk : k = a
      · subst hk
        simp [Dict.insert, hne, hlt]
      by_cases hak : a < k
      · simp [Dict.insert, hk, hak, hne, hlt]
      · have hkb : k ≠ b := by
          rintro rfl
          exact hak hab
        have hbk : ¬ b < k := fun h => hak (String.lt_trans hab h)
        simp [Dict.insert, hk, hak, hkb, hbk, ih]

namespace OwnerReference

/-- A reference that was placed is found where it would be placed again. -/
theorem place_place (ref : OwnerReference) (refs : List OwnerReference) :
    ref.place (ref.place refs) = ref.place refs := by
  induction refs with
  | nil => simp [place]
  | cons r rest ih =>
      by_cases h : r.uid = ref.uid
      · simp [place, h]
      · simp [place, h, ih]

/-- A placed reference is the given one, or was there before. -/
theorem eq_or_mem_of_mem_place {ref r : OwnerReference} {refs : List OwnerReference}
    (h : r ∈ ref.place refs) : r = ref ∨ r ∈ refs := by
  induction refs with
  | nil => exact .inl (List.mem_singleton.mp h)
  | cons r' rest ih =>
      by_cases hu : r'.uid = ref.uid
      · rw [place, if_pos hu] at h
        exact (List.mem_cons.mp h).imp_right (List.mem_cons_of_mem r')
      · rw [place, if_neg hu] at h
        obtain rfl | h := List.mem_cons.mp h
        · exact .inr List.mem_cons_self
        · exact (ih h).imp_right (List.mem_cons_of_mem r')

end OwnerReference

namespace Metadata

/-- The metadata with a reference placed among those of the owners. -/
def withOwner (ref : OwnerReference) (m : Metadata) : Metadata :=
  { m with ownerReferences := some (ref.place (m.ownerReferences.getD [])) }

/-- Placing the reference of an owner brings in no foreign controller. -/
theorem foreignController?_withOwner {ref : OwnerReference} {m : Metadata}
    (h : m.foreignController? ref.uid = none) :
    (m.withOwner ref).foreignController? ref.uid = none := by
  simp only [foreignController?, List.find?_eq_none] at h ⊢
  intro r hr
  obtain rfl | hr := OwnerReference.eq_or_mem_of_mem_place hr
  · simp
  · exact h r hr

/-- Labels that were set can be set again without effect. -/
theorem withLabels_withLabels (app : String) (m : Metadata) :
    (m.withLabels app).withLabels app = m.withLabels app := by
  have hlabels : appLabel < managedByLabel := by decide
  simp only [withLabels, Option.getD_some, Dict.insert_insert_of_lt hlabels,
    Dict.insert_insert_self]

/-- An owner that was set can be set again without effect. -/
theorem withOwner_withOwner (ref : OwnerReference) (m : Metadata) :
    (m.withOwner ref).withOwner ref = m.withOwner ref := by
  simp only [withOwner, Option.getD_some, OwnerReference.place_place]

/-- Labels and owner of a built object can be set again without effect. -/
theorem withOwner_withLabels_built (app : String) (ref : OwnerReference) (m : Metadata) :
    (((m.withLabels app).withOwner ref).withLabels app).withOwner ref =
      (m.withLabels app).withOwner ref := by
  -- labels and owner are set independently of each other
  change (((m.withLabels app).withLabels app).withOwner ref).withOwner ref = _
  rw [withLabels_withLabels, withOwner_withOwner]

end Metadata

namespace Component

/-! ### What a build gives -/

/-- A build succeeds exactly if the object is of the component's kind, the owner is identified, and
no other owner controls the object. It sets labels, owner and the operator's part of the content. -/
theorem built_eq_ok_iff {c : Component} {n : NodeFeatureDiscovery} {o b : ManagedObject} :
    c.built n o = .ok b ↔
      ∃ content ref, c.fill n.spec o.content = some content ∧ n.ownerReference? = some ref ∧
        o.metadata.foreignController? ref.uid = none ∧
        b = ⟨(o.metadata.withLabels c.name).withOwner ref, content⟩ := by
  have hlabels : ∀ uid, (o.metadata.withLabels c.name).foreignController? uid =
      o.metadata.foreignController? uid := fun _ => rfl
  simp only [built, buildOnto, Metadata.controlledBy]
  cases hfill : c.fill n.spec o.content with
  | none => simp [Except.map]
  | some content =>
      cases href : n.ownerReference? with
      | none => simp [Except.map]
      | some ref =>
          cases hf : o.metadata.foreignController? ref.uid with
          | some other => simp [hlabels, hf, Except.map]
          | none => simp [hlabels, hf, Except.map, Metadata.withOwner, eq_comm]

/-- What a component fills is of its kind, and stays of that kind. -/
theorem fill_kind {c : Component} {s : Spec} {x y : Content} (h : c.fill s x = some y) :
    x.kind = c.kind ∧ y.kind = c.kind := by
  cases c <;> cases x <;> simp [fill] at h <;> subst h <;> exact ⟨rfl, rfl⟩

/-- The worker's configuration is filled with the text of the desired state, and no other data. -/
theorem exists_config_of_fill {s : Spec} {x y : Content} (h : workerConfig.fill s x = some y) :
    ∃ config, y = .configMap config ∧
      config.data = some [(Blueprint.configKey, s.configData)] := by
  cases x with
  | configMap x => exact ⟨_, (Option.some.inj h).symm, rfl⟩
  | _ => cases h

/-- Filling again replaces what was filled before. -/
theorem fill_fill {c : Component} {s s' : Spec} {x y : Content} (h : c.fill s x = some y) :
    c.fill s' y = c.fill s' x := by
  cases c <;> cases x <;> simp [fill] at h <;> subst h <;> rfl

/-- A built object is of the component's kind, under the name and namespace that it had. -/
theorem built_identity {c : Component} {n : NodeFeatureDiscovery} {o b : ManagedObject}
    (h : c.built n o = .ok b) : b.kind = c.kind ∧ b.name = o.name ∧ b.ns = o.ns := by
  obtain ⟨content, ref, hfill, -, -, rfl⟩ := built_eq_ok_iff.mp h
  exact ⟨(fill_kind hfill).2, rfl, rfl⟩

/-- A build starts from the version of the object that it builds onto. -/
theorem built_resourceVersion {c : Component} {n : NodeFeatureDiscovery} {o b : ManagedObject}
    (h : c.built n o = .ok b) : b.metadata.resourceVersion = o.metadata.resourceVersion := by
  obtain ⟨content, ref, -, -, -, rfl⟩ := built_eq_ok_iff.mp h
  rfl

/-! ### Building again -/

/-- **Nothing is left of an earlier build.** What is built for one desired state and then, for the
same owner, for another one is what is built for the other one alone. -/
theorem built_of_built {c : Component} {n n' : NodeFeatureDiscovery} {o b b' : ManagedObject}
    (href : n'.ownerReference? = n.ownerReference?) (h : c.built n o = .ok b)
    (h' : c.built n' o = .ok b') : c.built n' b = .ok b' := by
  obtain ⟨content, ref, hfill, hn, hforeign, rfl⟩ := built_eq_ok_iff.mp h
  obtain ⟨content', ref', hfill', hn', -, rfl⟩ := built_eq_ok_iff.mp h'
  obtain rfl : ref = ref' := Option.some.inj (hn.symm.trans (href.symm.trans hn'))
  refine built_eq_ok_iff.mpr ⟨content', ref, (fill_fill hfill).trans hfill', hn', ?_, ?_⟩
  · exact Metadata.foreignController?_withOwner hforeign
  · rw [Metadata.withOwner_withLabels_built]

/-- Building again onto a built object gives it back. -/
theorem built_built {c : Component} {n : NodeFeatureDiscovery} {o b : ManagedObject}
    (h : c.built n o = .ok b) : c.built n b = .ok b :=
  built_of_built rfl h h

/-- A digest recorded on the object plays no part in a build, and stays. -/
theorem built_recordHash {c : Component} {n : NodeFeatureDiscovery} {o b : ManagedObject}
    (hash : String) (h : c.built n o = .ok b) :
    c.built n (o.recordHash hash) = .ok (b.recordHash hash) := by
  obtain ⟨content, ref, hfill, href, hforeign, rfl⟩ := built_eq_ok_iff.mp h
  exact built_eq_ok_iff.mpr ⟨content, ref, hfill, href, hforeign, rfl⟩

/-- A version set on the object plays no part in a build, and stays. -/
theorem built_withVersion {c : Component} {n : NodeFeatureDiscovery} {o b : ManagedObject}
    (version : String) (h : c.built n o = .ok b) :
    c.built n (o.withVersion version) = .ok (b.withVersion version) := by
  obtain ⟨content, ref, hfill, href, hforeign, rfl⟩ := built_eq_ok_iff.mp h
  exact built_eq_ok_iff.mpr ⟨content, ref, hfill, href, hforeign, rfl⟩

/-! ### What a build depends on -/

/-- Of the resource a build reads the desired state and what identifies the owner. -/
theorem built_congr {n n' : NodeFeatureDiscovery} (hspec : n'.spec = n.spec)
    (href : n'.ownerReference? = n.ownerReference?) (c : Component) (o : ManagedObject) :
    c.built n' o = c.built n o := by
  simp only [built, buildOnto, Metadata.controlledBy, hspec, href]

/-- Of the resource a build from scratch reads the desired state and what identifies the owner. -/
theorem desired_congr {n n' : NodeFeatureDiscovery} (hspec : n'.spec = n.spec)
    (href : n'.ownerReference? = n.ownerReference?) (c : Component) (ns : String) :
    c.desired n' ns = c.desired n ns :=
  built_congr hspec href c (c.emptyObject ns)

/-- An identified owner can have every component built from scratch. -/
theorem exists_desired {n : NodeFeatureDiscovery} {ref : OwnerReference}
    (h : n.ownerReference? = some ref) (c : Component) (ns : String) :
    ∃ o, c.desired n ns = .ok o := by
  obtain ⟨content, hfill⟩ : ∃ content, c.fill n.spec (c.emptyObject ns).content = some content := by
    cases c <;> exact ⟨_, rfl⟩
  exact ⟨_, built_eq_ok_iff.mpr ⟨content, ref, hfill, h, rfl, rfl⟩⟩

end Component

end NodeFeatureOperator
