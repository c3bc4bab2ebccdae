import NodeFeatureOperator.Proofs.Controller

/-!
# What a build touches

A build is made in place, on whatever object it is given: it sets two labels, replaces the
component's part of the content, and puts the reference to the owner in its place. It can fail after
the labels and the content have been written, but what it fails on is nothing of that: the kind of
the object, the identity of the owner, and the controllers among the references. So success can be
told from the object before, and nothing outside these places shows that there was a build.

The same places are written whatever the desired state is, and each of them anew. A build leaves no
trace, then, in what a later build for the same owner gives, whether or not either of them succeeds.

## Main definitions

* `OwnerReference.Enters`: a reference has come in among others.
* `Component.Footprint`: two objects differ no more than a build makes them.
* `Component.builtOver`: an object after builds for several desired states.

## Main results

* `Component.buildOnto_ok_iff`: the objects that a component can be built onto.
* `Component.build_footprint`: when a build fails, and what it changes when it does not.
* `Component.buildOnto_builtOver`: of several builds only the last one counts.
* `Component.rebuild_absorbs`: a build leaves nothing for a later one to see.
-/

namespace NodeFeatureOperator

/-! ### Labels -/

/-- Whether a label is one of the two that the operator sets. -/
def isOperatorLabel (key : String) : Bool := key == appLabel || key == managedByLabel

/-- An insertion leaves the entries under other keys as they are, in their order. -/
theorem Dict.filter_insert {α : Type} {p : String → Bool} {key : String} (hp : p key = false)
    (value : α) (d : Dict α) :
    (Dict.insert key value d).filter (fun e => p e.1) = d.filter (fun e => p e.1) := by
  have hskip : ∀ (v : α) (rest : Dict α),
      List.filter (fun e => p e.1) ((key, v) :: rest) = rest.filter (fun e => p e.1) :=
    fun v rest => List.filter_cons_of_neg (by simp [hp])
  induction d with
  | nil => exact hskip value []
  | cons e rest ih =>
      obtain ⟨k, v⟩ := e
      rw [Dict.insert]
      split
      next heq =>
        subst heq
        rw [hskip, hskip]
      · split
        · exact hskip value _
        · rw [List.filter_cons, List.filter_cons, ih]

/-- The labels that are set find their values, and the others are as they were. -/
theorem Metadata.labels_withLabels (app : String) (m : Metadata) :
    ∃ labels, (m.withLabels app).labels = some labels ∧
      Dict.find? appLabel labels = some app ∧
      Dict.find? managedByLabel labels = some managedByValue ∧
      labels.filter (fun e => !isOperatorLabel e.1) =
        (m.labels.getD []).filter (fun e => !isOperatorLabel e.1) := by
  refine ⟨_, rfl, ?_, Dict.find?_insert_self _ _ _, ?_⟩
  · rw [Dict.find?_insert_of_ne _ _ (by decide), Dict.find?_insert_self]
  · rw [Dict.filter_insert (p := fun key => !isOperatorLabel key) (by decide),
      Dict.filter_insert (p := fun key => !isOperatorLabel key) (by decide)]

/-! ### References -/

/-- `ref.Enters refs refs'`: the reference has come in for the first one with its uid, or after all
others if none has its uid. -/
inductive OwnerReference.Enters (ref : OwnerReference) :
    List OwnerReference → List OwnerReference → Prop
  | replacing {before after : List OwnerReference} {own : OwnerReference} :
      (∀ r ∈ before, r.uid ≠ ref.uid) → own.uid = ref.uid →
      Enters ref (before ++ own :: after) (before ++ ref :: after)
  | joining {refs : List OwnerReference} :
      (∀ r ∈ refs, r.uid ≠ ref.uid) → Enters ref refs (refs ++ [ref])

/-- A reference that is placed comes in. -/
theorem OwnerReference.enters_place (ref : OwnerReference) (refs : List OwnerReference) :
    ref.Enters refs (ref.place refs) := by
  induction refs with
  | nil => exact .joining (by simp)
  | cons r rest ih =>
      by_cases h : r.uid = ref.uid
      · rw [place, if_pos h]
        exact @Enters.replacing ref [] rest r (by simp) h
      · rw [place, if_neg h]
        generalize ref.place rest = placed at ih
        cases ih with
        | @replacing before after own hbefore hown =>
            exact @Enters.replacing ref (r :: before) after own (by simpa [h] using hbefore) hown
        | joining hrest => exact .joining (by simpa [h] using hrest)

/-- The reference to a resource takes a name and a uid. -/
theorem NodeFeatureDiscovery.ownerReference?_eq_none_iff {n : NodeFeatureDiscovery} :
    n.ownerReference? = none ↔ n.metadata.name = none ∨ n.metadata.uid = none := by
  cases hname : n.metadata.name <;> cases huid : n.metadata.uid <;>
    simp [ownerReference?, hname, huid]

/-- A resource of the same name and uid is referred to in the same way. -/
theorem NodeFeatureDiscovery.ownerReference?_congr {n n' : NodeFeatureDiscovery}
    (hname : n'.metadata.name = n.metadata.name) (huid : n'.metadata.uid = n.metadata.uid) :
    n'.ownerReference? = n.ownerReference? := by
  rw [ownerReference?, ownerReference?, hname, huid]

/-- Metadata that were claimed for an owner, if only in vain, are claimed for the owner again as if
they had not been. -/
theorem Metadata.claimed_again {n n' : NodeFeatureDiscovery}
    (href : n'.ownerReference? = n.ownerReference?) (app kind : String) (m : Metadata) :
    ((((m.withLabels app).controlledBy n kind).2).withLabels app).controlledBy n' kind =
      (m.withLabels app).controlledBy n' kind := by
  cases hn : n.ownerReference? with
  | none =>
      have hunclaimed : ((m.withLabels app).controlledBy n kind).2 = m.withLabels app := by
        rw [controlledBy, hn]
      rw [hunclaimed, withLabels_withLabels]
  | some ref =>
      have hn' := href.trans hn
      cases hforeign : (m.withLabels app).foreignController? ref.uid with
      | some other => rw [controlledBy_of_foreign hn hforeign, withLabels_withLabels]
      | none =>
          have hfree : (((m.withLabels app).withOwner ref).withLabels app).foreignController?
              ref.uid = none := foreignController?_withOwner hforeign
          rw [controlledBy_of_free hn hforeign, controlledBy_of_free hn' hforeign,
            controlledBy_of_free hn' hfree, withOwner_withLabels_built]

/-! ### Footprints -/

/-- What a content holds outside the part that the operator owns: a configuration apart from its
data, a workload apart from its specification. -/
def Content.unowned : Content → Content
  | .configMap x => .configMap { x with data := none }
  | .daemonSet w => .daemonSet { w with spec := none }
  | .deployment w => .deployment { w with spec := none }
  | .job w => .job { w with spec := none }

namespace Component

variable {c : Component} {n n' : NodeFeatureDiscovery} {o b : ManagedObject}

/-- The second object is the first one apart from what a build of the component for a resource
writes: two labels, the component's part of the content, and the reference to the resource. -/
structure Footprint (c : Component) (n : NodeFeatureDiscovery) (o b : ManagedObject) : Prop where
  /-- Of the metadata only labels and references differ. -/
  metadata : b.metadata = { o.metadata with
    labels := b.metadata.labels
    ownerReferences := b.metadata.ownerReferences }
  /-- Of the labels only the operator's differ. -/
  labels : ∃ labels, b.metadata.labels = some labels ∧
    Dict.find? appLabel labels = some c.name ∧
    Dict.find? managedByLabel labels = some managedByValue ∧
    labels.filter (fun e => !isOperatorLabel e.1) =
      (o.metadata.labels.getD []).filter (fun e => !isOperatorLabel e.1)
  /-- Of the references only that to the resource differs. -/
  references : ∃ ref refs, n.ownerReference? = some ref ∧
    b.metadata.ownerReferences = some refs ∧
    ref.Enters (o.metadata.ownerReferences.getD []) refs
  /-- Of the content only the component's part differs. -/
  content : b.content.unowned = o.content.unowned

/-- Filling replaces the operator's part of a content. -/
theorem unowned_of_fill {s : Spec} {x y : Content} (h : c.fill s x = some y) :
    y.unowned = x.unowned := by
  cases c <;> cases x <;> simp [fill] at h <;> subst h <;> rfl

/-- A build succeeds if it is made without a failure. -/
theorem built_eq_ok_iff_buildOnto : c.built n o = .ok b ↔ c.buildOnto n o = (.ok (), b) := by
  rw [built]
  rcases c.buildOnto n o with ⟨f | _, built⟩ <;> simp [Except.map]

/-- A component can be built onto the objects of its kind that no one but the owner controls, if the
owner is identified. -/
theorem buildOnto_ok_iff :
    (c.buildOnto n o).1 = .ok () ↔ o.kind = c.kind ∧ ∃ ref, n.ownerReference? = some ref ∧
      o.metadata.foreignController? ref.uid = none := by
  constructor
  · intro h
    obtain ⟨content, ref, hfill, href, hfree, -⟩ :=
      built_eq_ok_iff.mp (built_eq_ok_iff_buildOnto.mpr (Prod.ext h rfl))
    exact ⟨(fill_kind hfill).1, ref, href, hfree⟩
  · rintro ⟨hkind, ref, href, hfree⟩
    obtain ⟨content, hfill⟩ := exists_fill hkind n.spec
    have hbuilt := built_eq_ok_iff.mpr ⟨content, ref, hfill, href, hfree, rfl⟩
    exact congrArg Prod.fst (built_eq_ok_iff_buildOnto.mp hbuilt)

/-- A build onto an object of another kind leaves it. -/
theorem buildOnto_of_unfilled (h : c.fill n.spec o.content = none) :
    (c.buildOnto n o).2 = o := by
  rw [buildOnto, h]

/-- A build onto an object of the component's kind claims it, and fills it in either case. -/
theorem buildOnto_of_filled {content : Content} (h : c.fill n.spec o.content = some content) :
    c.buildOnto n o =
      (((o.metadata.withLabels c.name).controlledBy n c.kind.text).1,
        ⟨((o.metadata.withLabels c.name).controlledBy n c.kind.text).2, content⟩) := by
  have hkind : o.kind = c.kind := (fill_kind h).1
  rw [buildOnto, h, hkind]

/-- A build that succeeds leaves its footprint and nothing else. -/
theorem footprint_of_built (h : c.built n o = .ok b) : c.Footprint n o b := by
  obtain ⟨content, ref, hfill, href, -, rfl⟩ := built_eq_ok_iff.mp h
  exact ⟨rfl, o.metadata.labels_withLabels c.name, ⟨ref, _, href, rfl, ref.enters_place _⟩,
    unowned_of_fill hfill⟩

/-- **When a build fails, and what it changes.** A build of a component onto an object fails exactly
if the object is of another kind, the resource has no name or no uid, or one of the object's
references is that of a controller with another uid. If it does not fail, then the object is what it
was apart from the footprint of the build. -/
theorem build_footprint (c : Component) (n : NodeFeatureDiscovery) (o : ManagedObject) :
    ((∃ f, (c.buildOnto n o).1 = .error f) ↔
      o.kind ≠ c.kind ∨ n.metadata.name = none ∨ n.metadata.uid = none ∨
        ∃ r ∈ o.metadata.ownerReferences.getD [],
          r.isController = true ∧ some r.uid ≠ n.metadata.uid) ∧
    ((c.buildOnto n o).1 = .ok () → c.Footprint n o (c.buildOnto n o).2) := by
  refine ⟨?_, fun h => footprint_of_built (built_eq_ok_iff_buildOnto.mpr (Prod.ext h rfl))⟩
  have hfails : (∃ f, (c.buildOnto n o).1 = .error f) ↔ ¬ (c.buildOnto n o).1 = .ok () := by
    cases (c.buildOnto n o).1 <;> simp
  rw [hfails, buildOnto_ok_iff, ← or_assoc (a := n.metadata.name = none),
    ← NodeFeatureDiscovery.ownerReference?_eq_none_iff]
  cases href : n.ownerReference? with
  | none => simp
  | some ref =>
      have huid := (NodeFeatureDiscovery.controller_of_ownerReference? href).2
      have hforeign : (∃ r ∈ o.metadata.ownerReferences.getD [],
          r.isController = true ∧ some r.uid ≠ n.metadata.uid) ↔
            ¬ o.metadata.foreignController? ref.uid = none := by
        rw [Metadata.foreignController?_eq_none_iff, ← huid]
        simp
      rw [hforeign]
      simp [Classical.or_iff_not_imp_left]

/-! ### Building again -/

/-- A build onto an object that was built for another state of the resource, if only as far as that
came, does what a build onto the object itself does. -/
theorem buildOnto_buildOnto (href : n'.ownerReference? = n.ownerReference?) (c : Component)
    (o : ManagedObject) : c.buildOnto n' (c.buildOnto n o).2 = c.buildOnto n' o := by
  cases hfill : c.fill n.spec o.content with
  | none => rw [buildOnto_of_unfilled hfill]
  | some content =>
      obtain ⟨content', hfill'⟩ := exists_fill (fill_kind hfill).1 n'.spec
      have hrefill : c.fill n'.spec content = some content' := (fill_fill hfill).trans hfill'
      rw [buildOnto_of_filled hfill', buildOnto_of_filled hfill, buildOnto_of_filled hrefill,
        Metadata.claimed_again href]

/-- An object after builds for several states, one after the other, each as far as it came. -/
def builtOver (c : Component) (states : List NodeFeatureDiscovery) (o : ManagedObject) :
    ManagedObject :=
  states.foldl (fun o n => (c.buildOnto n o).2) o

/-- Of several builds for one owner only the last one counts. -/
theorem buildOnto_builtOver {states : List NodeFeatureDiscovery}
    (h : ∀ m ∈ states, m.ownerReference? = n.ownerReference?) (c : Component) (o : ManagedObject) :
    c.buildOnto n (c.builtOver states o) = c.buildOnto n o := by
  induction states generalizing o with
  | nil => rfl
  | cons m rest ih =>
      have hrest := ih (fun m' hm' => h m' (List.mem_cons_of_mem m hm')) (c.buildOnto m o).2
      exact hrest.trans (buildOnto_buildOnto (h m List.mem_cons_self).symm c o)

/-- **Nothing is left of an earlier build.** What a build makes of an object, and whether it fails,
is the same if another build was made onto the object before, for whatever state of the same
resource; and the other one succeeds on the same objects. For a state itself this says that nothing
is changed by building twice. -/
theorem rebuild_absorbs (hname : n'.metadata.name = n.metadata.name)
    (huid : n'.metadata.uid = n.metadata.uid) (c : Component) (o : ManagedObject) :
    c.buildOnto n' (c.buildOnto n o).2 = c.buildOnto n' o ∧
      ((c.buildOnto n' o).1 = .ok () ↔ (c.buildOnto n o).1 = .ok ()) := by
  have href := NodeFeatureDiscovery.ownerReference?_congr hname huid
  refine ⟨buildOnto_buildOnto href c o, ?_⟩
  rw [buildOnto_ok_iff, buildOnto_ok_iff, href]

end Component

/-- The installed resource after its image was changed. -/
def reconfigured : NodeFeatureDiscovery where
  metadata := installed.metadata
  spec := { installed.spec with operand := { image := some "nfd:next" } }

/-- A master with labels and owners of others, which the installed resource owns without being its
controller. -/
def sharedMaster : ManagedObject where
  metadata := { name := some Component.master.name, ns := some "gpu",
                labels := some [(appLabel, "legacy"), ("team", "hardware")],
                ownerReferences := some [{ apiVersion := "v1", kind := "Node", name := "a",
                                           uid := "9" }, installedReference none] }
  content := .deployment {}

/-- Built for both states in turn, the master is what it is if built for the later one at once. -/
theorem rebuild_absorbs_shared :
    reconfigured.metadata.name = installed.metadata.name ∧
      reconfigured.metadata.uid = installed.metadata.uid ∧
      (Component.master.buildOnto reconfigured
          (Component.master.buildOnto installed sharedMaster).2 =
        Component.master.buildOnto reconfigured sharedMaster ∧
      ((Component.master.buildOnto reconfigured sharedMaster).1 = .ok () ↔
        (Component.master.buildOnto installed sharedMaster).1 = .ok ())) ∧
      (Component.master.buildOnto installed sharedMaster).1 = .ok () := by
  have hname : reconfigured.metadata.name = installed.metadata.name := rfl
  have huid : reconfigured.metadata.uid = installed.metadata.uid := rfl
  exact ⟨hname, huid, Component.rebuild_absorbs hname huid .master sharedMaster, rfl⟩

end NodeFeatureOperator
