import NodeFeatureOperator.Proofs.Amendment
import NodeFeatureOperator.Proofs.Coverage
import NodeFeatureOperator.Proofs.Ownership
import NodeFeatureOperator.Proofs.SteadyState

/-!
# The controller of an object

An object has one controller. A resource is made the controller by a reference that takes the place
of the first reference to the resource, or comes last if there is none; the other references stay as
they are. That includes further references to the resource itself, so that one of these which claims
to be the controller remains beside the new one.

Where another owner controls the object, no reference is set. Convergence then finds neither of its
two ways on: what carries the desired object has no other controller, and a build onto the object
fails. So it leaves the object alone.

## Main definitions

* `OwnerReference.past`: the references behind the first one to an owner.

## Main results

* `sole_controller_iff`: what becomes of the references of an object, and when one controller is
  left.
* `Component.amendment_of_unbuilt`: nothing is decided on about another's object.
* `Component.foreign_object_left`: convergence of a component only looks at another's object, and
  fails.
-/

namespace NodeFeatureOperator

open Component (found)

/-! ### References of an owner -/

namespace OwnerReference

variable {ref : OwnerReference} {refs : List OwnerReference}

/-- The references behind the first one with a uid. -/
def past (uid : String) : List OwnerReference → List OwnerReference
  | [] => []
  | r :: rest => if r.uid = uid then rest else past uid rest

/-- Placing a reference keeps those to other owners, in their order. -/
theorem filter_place_of_ne (ref : OwnerReference) (refs : List OwnerReference) :
    (ref.place refs).filter (fun r => r.uid ≠ ref.uid) =
      refs.filter (fun r => r.uid ≠ ref.uid) := by
  induction refs with
  | nil => simp [place]
  | cons r rest ih =>
      by_cases h : r.uid = ref.uid
      · rw [place, if_pos h]
        simp [h]
      · rw [place, if_neg h, List.filter_cons_of_pos (by simpa using h),
          List.filter_cons_of_pos (by simpa using h), ih]

/-- If no other owner is the controller, then a controller that is placed comes before all others
that are left. -/
theorem controllers_place (href : ref.isController = true)
    (hrefs : ∀ r ∈ refs, r.isController = true → r.uid = ref.uid) :
    (ref.place refs).filter isController = ref :: (past ref.uid refs).filter isController := by
  induction refs with
  | nil => simp [place, past, href]
  | cons r rest ih =>
      by_cases h : r.uid = ref.uid
      · rw [place, past, if_pos h, if_pos h, List.filter_cons_of_pos href]
      · have hr : ¬ r.isController = true := fun hr => h (hrefs r List.mem_cons_self hr)
        rw [place, past, if_neg h, if_neg h, List.filter_cons_of_neg hr]
        exact ih fun r' hr' => hrefs r' (List.mem_cons_of_mem r hr')

/-- It is the only one that is left exactly if none is behind the reference whose place it takes. -/
theorem controllers_place_eq_singleton_iff (href : ref.isController = true)
    (hrefs : ∀ r ∈ refs, r.isController = true → r.uid = ref.uid) :
    (ref.place refs).filter isController = [ref] ↔
      ∀ r ∈ past ref.uid refs, r.isController = false := by
  rw [controllers_place href hrefs, List.cons_eq_cons, List.filter_eq_nil_iff]
  simp

end OwnerReference

/-! ### The controller reference in the metadata -/

section Metadata

variable {n : NodeFeatureDiscovery} {ref : OwnerReference} {m : Metadata} {kind : String}

/-- There is no foreign controller exactly if every controller is the owner. -/
theorem Metadata.foreignController?_eq_none_iff {uid : String} :
    m.foreignController? uid = none ↔
      ∀ r ∈ m.ownerReferences.getD [], r.isController = true → r.uid = uid := by
  simp [foreignController?, List.find?_eq_none]

/-- The reference to a resource bears its name. -/
theorem NodeFeatureDiscovery.name_of_ownerReference? (h : n.ownerReference? = some ref) :
    some ref.name = n.metadata.name := by
  rw [ownerReference?] at h
  split at h
  next hname huid =>
    obtain rfl := Option.some.inj h
    exact hname.symm
  · cases h

/-- An object that another owner controls is not claimed, and its metadata stay as they are. -/
theorem Metadata.controlledBy_of_foreign (href : n.ownerReference? = some ref)
    {other : OwnerReference} (hother : m.foreignController? ref.uid = some other) :
    m.controlledBy n kind = (.error (.ownerReference kind (m.name.getD "")
      ("already controlled by " ++ other.kind ++ " " ++ other.name)), m) := by
  -- the foreign controller is one of the references, so that there is a list of them already
  have hrefs : some (m.ownerReferences.getD []) = m.ownerReferences := by
    cases h : m.ownerReferences with
    | none => simp [foreignController?, h] at hother
    | some refs => rfl
  simp only [controlledBy, href, hother, hrefs]

/-- An object that no other owner controls is claimed. -/
theorem Metadata.controlledBy_of_free (href : n.ownerReference? = some ref)
    (hfree : m.foreignController? ref.uid = none) :
    m.controlledBy n kind = (.ok (), m.withOwner ref) := by
  simp only [controlledBy, href, hfree, withOwner]

/-- **The controller of an object.** A resource with a name and a uid is made the controller of an
object exactly if no other owner controls it; if this fails, then the metadata are unchanged. If it
succeeds, then only the references have changed: those to other owners are kept in their order, and
the reference to the resource is the only one of a controller exactly if none of the references
behind the one whose place it has taken claims to be one. -/
theorem sole_controller_iff {name uid : String} (hname : n.metadata.name = some name)
    (huid : n.metadata.uid = some uid) (kind : String) (m : Metadata) :
    ∃ ref, n.ownerReference? = some ref ∧ ref.isController = true ∧ ref.name = name ∧
      ref.uid = uid ∧
      ((∃ r ∈ m.ownerReferences.getD [], r.isController = true ∧ r.uid ≠ uid) →
        ∃ f, m.controlledBy n kind = (.error f, m)) ∧
      ((∀ r ∈ m.ownerReferences.getD [], r.isController = true → r.uid = uid) →
        ∃ refs, m.controlledBy n kind = (.ok (), { m with ownerReferences := some refs }) ∧
          refs.filter (fun r => r.uid ≠ uid) =
            (m.ownerReferences.getD []).filter (fun r => r.uid ≠ uid) ∧
          (refs.filter OwnerReference.isController = [ref] ↔
            ∀ r ∈ OwnerReference.past uid (m.ownerReferences.getD []),
              r.isController = false)) := by
  obtain ⟨ref, href⟩ : ∃ ref, n.ownerReference? = some ref := by
    simp [NodeFeatureDiscovery.ownerReference?, hname, huid]
  obtain ⟨hcontroller, hrefuid⟩ := NodeFeatureDiscovery.controller_of_ownerReference? href
  have hrefname := NodeFeatureDiscovery.name_of_ownerReference? href
  obtain rfl : ref.uid = uid := Option.some.inj (hrefuid.trans huid)
  obtain rfl : ref.name = name := Option.some.inj (hrefname.trans hname)
  refine ⟨ref, href, hcontroller, rfl, rfl, ?_, fun hown => ?_⟩
  · rintro ⟨r, hr, hcontrols, hother⟩
    cases hforeign : m.foreignController? ref.uid with
    | none =>
        have hown := Metadata.foreignController?_eq_none_iff.mp hforeign
        exact absurd (hown r hr hcontrols) hother
    | some other => exact ⟨_, Metadata.controlledBy_of_foreign href hforeign⟩
  · have hfree := Metadata.foreignController?_eq_none_iff.mpr hown
    exact ⟨_, Metadata.controlledBy_of_free href hfree, OwnerReference.filter_place_of_ne ref _,
      OwnerReference.controllers_place_eq_singleton_iff hcontroller hown⟩

end Metadata

/-- A reference to the installed resource, as its controller or not. -/
def installedReference (controller : Option Bool) : OwnerReference where
  apiVersion := NodeFeatureDiscovery.apiVersion
  kind := NodeFeatureDiscovery.kind
  name := "nfd"
  uid := "7"
  controller := controller

/-- A reference of another controller. -/
def replicaSetReference : OwnerReference where
  apiVersion := "apps/v1"
  kind := "ReplicaSet"
  name := "other"
  uid := "9"
  controller := some true

/-- An object that refers to the resource once is controlled by it, and by no one else, after the
reference was set. -/
theorem sole_controller_iff_installed :
    ∃ ref refs m, installed.metadata.name = some "nfd" ∧ installed.metadata.uid = some "7" ∧
      ({ ownerReferences := some [installedReference none] } : Metadata).controlledBy installed
        "ConfigMap" = (.ok (), m) ∧ m.ownerReferences = some refs ∧
      installed.ownerReference? = some ref ∧ refs.filter OwnerReference.isController = [ref] := by
  obtain ⟨ref, href, -, -, -, -, hclaimed⟩ := sole_controller_iff (n := installed) rfl rfl
    "ConfigMap" { ownerReferences := some [installedReference none] }
  obtain ⟨refs, hrefs, -, hsole⟩ := hclaimed (by decide)
  exact ⟨ref, refs, _, rfl, rfl, hrefs, rfl, href, hsole.mpr (by decide)⟩

/-- An object that refers to the resource twice, the second time as its controller, has two
controller references after the reference was set. -/
theorem two_controllers :
    ∃ refs m refs', refs = [installedReference none, installedReference (some true)] ∧
      refs.countP OwnerReference.isController = 1 ∧
      ({ ownerReferences := some refs } : Metadata).controlledBy installed "Deployment" =
        (.ok (), m) ∧
      m.ownerReferences = some refs' ∧ refs'.countP OwnerReference.isController = 2 :=
  ⟨_, _, _, rfl, by decide, rfl, rfl, by decide⟩

/-! ### Objects of another owner -/

namespace Component

variable {c : Component} {n : NodeFeatureDiscovery} {ns : String} {ref other : OwnerReference}
  {desired live : ManagedObject}

/-- Nothing can be built onto an object that another owner controls. -/
theorem exists_built_error_of_foreign (href : n.ownerReference? = some ref)
    (hother : live.metadata.foreignController? ref.uid = some other) :
    ∃ f, c.built n live = .error f := by
  cases hbuilt : c.built n live with
  | error f => exact ⟨f, rfl⟩
  | ok built =>
      obtain ⟨_, ref', -, href', hfree, -⟩ := built_eq_ok_iff.mp hbuilt
      obtain rfl := Option.some.inj (href.symm.trans href')
      rw [hfree] at hother
      cases hother

/-- If the object is of the component's kind, then that fails because of the other owner. -/
theorem built_of_foreign (hkind : live.kind = c.kind) (href : n.ownerReference? = some ref)
    (hother : live.metadata.foreignController? ref.uid = some other) :
    c.built n live = .error (.ownerReference c.kind.text live.name
      ("already controlled by " ++ other.kind ++ " " ++ other.name)) := by
  obtain ⟨content, hfill⟩ := exists_fill hkind n.spec
  have hclaim : (live.metadata.withLabels c.name).controlledBy n live.kind.text = _ :=
    Metadata.controlledBy_of_foreign href hother
  rw [built, buildOnto, hfill]
  dsimp only
  rw [hclaim, hkind]
  rfl

/-- Such an object does not carry what is desired, whose only reference is to the resource. -/
theorem not_carries_of_foreign (hdesired : c.desired n ns = .ok desired)
    (href : n.ownerReference? = some ref)
    (hother : live.metadata.foreignController? ref.uid = some other) :
    ¬ live.carries desired = true := by
  intro hcarries
  obtain ⟨_, ref', -, href', -, rfl⟩ := built_eq_ok_iff.mp hdesired
  obtain rfl := Option.some.inj (href.symm.trans href')
  rw [ManagedObject.foreignController?_of_carries rfl hcarries] at hother
  cases hother

/-- So it is not left by its digest, and the build onto it fails. -/
theorem amendment_of_unbuilt (href : n.ownerReference? = some ref)
    (hother : live.metadata.foreignController? ref.uid = some other) {f : Failure}
    (hbuilt : c.built n live = .error f) : c.amendment n ns (some live) = .error f := by
  obtain ⟨desired, hdesired⟩ := exists_desired href c ns
  rw [amendment, hdesired]
  dsimp only
  rw [if_neg fun hfresh => not_carries_of_foreign hdesired href hother hfresh.2, hbuilt]

/-- A resource that is not identified yet can have nothing built. -/
theorem desired_of_unidentified (h : n.ownerReference? = none) :
    c.desired n ns = .error (.ownerReference c.kind.text c.name
      "owner has no name or uid yet") := by
  obtain ⟨content, hfill⟩ := exists_fill (c := c) (x := (c.emptyObject ns).content)
    (by cases c <;> rfl) n.spec
  have hkind : (c.emptyObject ns).kind = c.kind := by cases c <;> rfl
  rw [desired, built, buildOnto, hfill]
  dsimp only
  rw [Metadata.controlledBy, h, hkind]
  rfl

/-- Where nothing can be built, convergence makes no call. -/
theorem converge_of_unbuilt {f : Failure} (h : c.desired n ns = .error f) :
    c.converge n ns = .done (.error (c.failure ns f)) := by
  rw [converge, convergeCore, h]
  rfl

/-- Where nothing can be decided on about the object that was found, convergence only looks it up,
whatever the cluster is. -/
theorem run_converge_of_undecided {σ : Type} {respond : Program.Responder σ} {st : σ}
    {f : Failure} (hdesired : c.desired n ns = .ok desired)
    (hfound : (respond (.get c.kind c.name ns) st).1 = .ok (some live))
    (hundecided : c.amendment n ns (some live) = .error f) (time : Duration) :
    (c.converge n ns).exchanges respond st time = [found ns c (some live)] ∧
      ((c.converge n ns).run respond st time).1 = .error (c.failure ns f) := by
  rw [converge, convergeCore_eq hdesired]
  simp only [Program.bind_eq, Program.bind, Program.exchanges, Program.run, hfound, Except.bind,
    hundecided, Program.pure_eq]
  exact ⟨rfl, rfl⟩

/-- **Another's object is left alone.** Convergence of a component for a resource with a uid, on any
cluster that answers the look-up with an object one of whose references is that of a controller with
another uid, makes no call but that look-up, and fails on the component. If the object is of the
component's kind, as a cluster answers, then what failed is to set its owner reference, on which no
retry is made: the failure names the first such controller, or says that the resource has no name
yet. -/
theorem foreign_object_left {σ : Type} {respond : Program.Responder σ} {st : σ} {uid : String}
    {r : OwnerReference} (huid : n.metadata.uid = some uid)
    (hfound : (respond (.get c.kind c.name ns) st).1 = .ok (some live))
    (hr : r ∈ live.metadata.ownerReferences.getD []) (hcontroller : r.isController = true)
    (hother : r.uid ≠ uid) (time : Duration) :
    (∀ e ∈ (c.converge n ns).exchanges respond st time, e.call = .get c.kind c.name ns) ∧
      ∃ f, ((c.converge n ns).run respond st time).1 = .error (.component c.label c.name ns f) ∧
        (live.kind = c.kind → ∃ target reason, f = .ownerReference c.kind.text target reason ∧
          (Failure.component c.label c.name ns f).isRetryable = false ∧
          ((n.metadata.name = none ∧ target = c.name ∧ reason = "owner has no name or uid yet") ∨
            ∃ other, live.metadata.foreignController? uid = some other ∧ target = live.name ∧
              reason = "already controlled by " ++ other.kind ++ " " ++ other.name)) := by
  obtain ⟨other, hforeign⟩ : ∃ other, live.metadata.foreignController? uid = some other := by
    refine Option.ne_none_iff_exists'.mp fun hnone => hother ?_
    exact Metadata.foreignController?_eq_none_iff.mp hnone r hr hcontroller
  cases hname : n.metadata.name with
  | none =>
      have href : n.ownerReference? = none := by
        simp [NodeFeatureDiscovery.ownerReference?, hname]
      rw [converge_of_unbuilt (desired_of_unidentified href)]
      refine ⟨fun e he => ?_, _, rfl, fun _ => ⟨_, _, rfl, rfl, .inl ⟨rfl, rfl, rfl⟩⟩⟩
      cases he
  | some name =>
      obtain ⟨ref, href⟩ : ∃ ref, n.ownerReference? = some ref := by
        simp [NodeFeatureDiscovery.ownerReference?, hname, huid]
      obtain rfl : ref.uid = uid := Option.some.inj
        ((NodeFeatureDiscovery.controller_of_ownerReference? href).2.trans huid)
      obtain ⟨desired, hdesired⟩ := exists_desired href c ns
      obtain ⟨f, hbuilt⟩ := exists_built_error_of_foreign (c := c) href hforeign
      obtain ⟨hexchanges, hrun⟩ := run_converge_of_undecided hdesired hfound
        (amendment_of_unbuilt href hforeign hbuilt) time
      refine ⟨fun e he => ?_, f, hrun, fun hkind => ?_⟩
      · rw [hexchanges] at he
        rw [List.mem_singleton.mp he]
        rfl
      · have hrefused := built_of_foreign hkind href hforeign
        obtain rfl := Except.error.inj (hbuilt.symm.trans hrefused)
        exact ⟨_, _, rfl, rfl, .inr ⟨other, hforeign, rfl, rfl⟩⟩

end Component

/-- A master that another controller has, and that the installed resource merely owns as well. -/
def foreignMaster : ManagedObject where
  metadata := { name := some Component.master.name, ns := some "gpu",
                ownerReferences := some [installedReference none, replicaSetReference] }
  content := .deployment {}

/-- It is not taken over. -/
theorem foreign_object_left_master :
    ∃ s : Store, s.object? (Component.master.place "gpu") = some (foreignMaster.withVersion "1") ∧
      installed.metadata.uid = some "7" ∧ replicaSetReference.isController = true ∧
      replicaSetReference.uid ≠ "7" ∧
      (∀ e ∈ (Component.master.converge installed "gpu").exchanges Store.respond s
        (Duration.ofSeconds 0), e.call = .get .deployment "nfd-master" "gpu") ∧
      ∃ reason f, ((Component.master.converge installed "gpu").run Store.respond s
        (Duration.ofSeconds 0)).1 = .error f ∧
        f = .component "master Deployment" "nfd-master" "gpu"
          (.ownerReference "Deployment" "nfd-master" reason) ∧ f.isRetryable = false := by
  let s := ({} : Store).putObject (Component.master.place "gpu") foreignMaster
  have huid : installed.metadata.uid = some "7" := rfl
  have hfound : (s.respond (.get Component.master.kind Component.master.name "gpu")).1 =
      .ok (some (foreignMaster.withVersion "1")) := rfl
  have hr : replicaSetReference ∈
      (foreignMaster.withVersion "1").metadata.ownerReferences.getD [] := by decide
  obtain ⟨hreads, f, hrun, hrefused⟩ :=
    Component.foreign_object_left huid hfound hr (by decide) (by decide) (Duration.ofSeconds 0)
  obtain ⟨target, reason, rfl, hretry, ⟨hname, -⟩ | ⟨other, -, rfl, -⟩⟩ := hrefused rfl
  · cases hname
  · exact ⟨s, rfl, huid, by decide, by decide, hreads, reason, _, hrun, rfl, hretry⟩

end NodeFeatureOperator
