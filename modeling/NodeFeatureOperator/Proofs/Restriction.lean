import NodeFeatureOperator.Json.Pointer
import NodeFeatureOperator.Proofs.Repair
import NodeFeatureOperator.Proofs.Rollout

/-!
# The restrictions of containers

The containers of worker, master and collector are under five restrictions, which their blueprints
spell out in the security context. Four of them have a value that is not the zero of its type, so
that a live object is recognised only if it has that value at the same place, however deep. The
fifth, that privileges are not escalated, is a `false`. The comparison lets a field that is missing
pass for it, although a cluster takes it for the opposite. So an object from which that field was
removed is recognised, and stays as it is.

## Main definitions

* `Restriction`: the restrictions, each with its place and its value.
* `ManagedObject.containers`: the containers of a workload.
* `Component.LeftOpen`: the live object is recognised although a restriction of its container is
  missing.

## Main results

* `Restriction.imposed_or_missing`: the restrictions of a container that covers a restricted one.
* `restrictions_imposed_iff`: when all restrictions are imposed on the stored object.
-/

namespace NodeFeatureOperator

/-! ### Restrictions -/

/-- What a container is not allowed, or must not do without. -/
inductive Restriction where
  | nonRoot
  | readOnlyRoot
  | noEscalation
  | noCapabilities
  | defaultSeccomp
deriving DecidableEq, Repr, Inhabited

namespace Restriction

/-- The place of a restriction in a security context. -/
def place : Restriction → List String
  | nonRoot => ["runAsNonRoot"]
  | readOnlyRoot => ["readOnlyRootFilesystem"]
  | noEscalation => ["allowPrivilegeEscalation"]
  | noCapabilities => ["capabilities", "drop"]
  | defaultSeccomp => ["seccompProfile", "type"]

/-- What has to lie there. -/
def value : Restriction → Json
  | nonRoot => .bool true
  | readOnlyRoot => .bool true
  | noEscalation => .bool false
  | noCapabilities => .texts ["ALL"]
  | defaultSeccomp => .str "RuntimeDefault"

/-- A container is explicitly under a restriction. -/
def Imposed (r : Restriction) (container : Json) : Prop :=
  container.at? ("securityContext" :: r.place) = some r.value

/-- A container says nothing on a restriction. -/
def Missing (r : Restriction) (container : Json) : Prop :=
  container.at? ("securityContext" :: r.place) = none ∨
    container.at? ("securityContext" :: r.place) = some .null

variable {r : Restriction} {container : Json}

/-- What is missing is not imposed. -/
theorem Missing.not_imposed (h : r.Missing container) : ¬ r.Imposed container := by
  intro himposed
  obtain hnone | hnull := h
  · rw [Imposed, hnone] at himposed
    cases himposed
  · rw [Imposed, hnull] at himposed
    cases r <;> cases himposed

/-- The one restriction with a value that is zero. -/
theorem isZero_value_iff : r.value.isZero = true ↔ r = .noEscalation := by
  cases r <;> decide

/-- The value of a restriction is covered by itself, and by nothing else but perhaps null. -/
theorem eq_value_of_covers {l : Json} (h : l.covers r.value = true) (hnull : l ≠ .null) :
    l = r.value := by
  cases r with
  | nonRoot => exact Json.eq_of_covers_scalar h trivial rfl
  | readOnlyRoot => exact Json.eq_of_covers_scalar h trivial rfl
  | noEscalation =>
      cases l with
      | null => exact absurd rfl hnull
      | bool b => simpa [value, Json.covers, Json.sameScalar] using h
      | _ => simp [value, Json.covers, Json.sameScalar] at h
  | noCapabilities =>
      obtain ⟨items, rfl, -⟩ := Json.exists_items_of_covers h (List.cons_ne_nil _ _)
      obtain ⟨l, rfl, hl⟩ := Json.exists_of_covers_singleton h
      obtain rfl : l = .str "ALL" := Json.eq_of_covers_scalar hl trivial rfl
      rfl
  | defaultSeccomp => exact Json.eq_of_covers_scalar h trivial rfl

/-- A container with the restricted security context is under all restrictions. -/
theorem imposed_of_restricted (h : container.field? "securityContext" = some Pod.restrictedSecurity)
    (r : Restriction) : r.Imposed container := by
  rw [Imposed, Json.at?, h]
  cases r <;> rfl

/-- A container that covers a restricted one is under each restriction as well, except that one with
a value that is zero may be missing. -/
theorem imposed_or_missing {want : Json}
    (hwant : want.field? "securityContext" = some Pod.restrictedSecurity)
    (h : container.covers want = true) (r : Restriction) :
    r.Imposed container ∨ (r.Missing container ∧ r = .noEscalation) := by
  obtain ⟨l, hl, hcovers⟩ | ⟨hnone, hzero⟩ :=
    Json.fieldCovers_at h (imposed_of_restricted hwant r)
  · by_cases hnull : l = .null
    · rw [hnull, Json.covers_null] at hcovers
      exact .inr ⟨.inr (hnull ▸ hl), isZero_value_iff.mp hcovers⟩
    · left
      rw [Imposed, hl, eq_value_of_covers hcovers hnull]
  · exact .inr ⟨.inl hnone, isZero_value_iff.mp hzero⟩

end Restriction

/-! ### Containers of workloads -/

/-- The containers of a workload. -/
def ManagedObject.containers (o : ManagedObject) : List Json :=
  ((o.toJson.at? ["spec", "template", "spec", "containers"]).bind Json.items?).getD []

/-- The containers are told by the content. -/
theorem ManagedObject.containers_congr {o o' : ManagedObject} (h : o.content = o'.content) :
    o.containers = o'.containers := by
  obtain ⟨m, content⟩ := o
  obtain ⟨m', content'⟩ := o'
  obtain rfl : content = content' := h
  cases content with
  | configMap x => rcases x with ⟨_ | _, _ | _, _ | _⟩ <;> rfl
  | _ => rfl

/-- The containers of an object are those at their place. -/
theorem ManagedObject.containers_of_at {o : ManagedObject} {items : List Json}
    (h : o.toJson.at? ["spec", "template", "spec", "containers"] = some (.arr items)) :
    o.containers = items := by
  rw [containers, h]
  rfl

namespace Component

variable {c : Component} {n : NodeFeatureDiscovery} {ns : String} {s s' : Store}

/-- The components with restricted containers. -/
def restricted : List Component := [.worker, .master, .collector, .prune]

/-- A restricted component that is filled in has one container, with the restricted security
context. -/
theorem exists_container_of_fill (hc : c ∈ restricted) {spec : Spec} {o : ManagedObject}
    (h : c.fill spec o.content = some o.content) :
    ∃ container, o.toJson.at? ["spec", "template", "spec", "containers"] =
        some (.arr [container]) ∧
      container.field? "securityContext" = some Pod.restrictedSecurity := by
  obtain ⟨m, content⟩ := o
  simp only [restricted, List.mem_cons, List.not_mem_nil, or_false] at hc
  obtain rfl | rfl | rfl | rfl := hc <;>
    rcases content with _ | ⟨_, status⟩ | ⟨_, status⟩ | ⟨_, status⟩ <;> cases h <;>
    exact ⟨_, rfl, rfl⟩

/-- A recognised object has one container, which covers a restricted one. -/
theorem exists_container_of_recognises (hc : c ∈ restricted) {live : ManagedObject}
    (h : c.Recognises n ns live) :
    ∃ container want, live.containers = [container] ∧ container.covers want = true ∧
      want.field? "securityContext" = some Pod.restrictedSecurity := by
  obtain ⟨desired, hdesired, -, hcarries⟩ := h
  obtain ⟨content, _, hfill, -, -, rfl⟩ := built_eq_ok_iff.mp hdesired
  have hfilled : c.fill n.spec content = some content := (fill_fill hfill).trans hfill
  obtain ⟨want, hwant, hsecurity⟩ := exists_container_of_fill (o := ⟨_, content⟩) hc hfilled
  obtain ⟨l, hl, hcovers⟩ | ⟨-, hzero⟩ := Json.fieldCovers_at hcarries hwant
  · cases l with
    | arr items =>
        obtain ⟨container, rfl, hcontainer⟩ := Json.exists_of_covers_singleton hcovers
        exact ⟨container, want, ManagedObject.containers_of_at hl, hcontainer, hsecurity⟩
    | _ => simp [Json.covers] at hcovers
  · cases hzero

end Component

/-! ### What is stored -/

section Stored

variable {c : Component} {n : NodeFeatureDiscovery} {ns : String} {s s' : Store}

/-- The live object of a component is recognised although a restriction of its container is
missing. -/
def Component.LeftOpen (c : Component) (n : NodeFeatureDiscovery) (ns : String) (s : Store) :
    Prop :=
  ∃ live container, s.object? (c.place ns) = some live ∧ c.Recognises n ns live ∧
    live.containers = [container] ∧ Restriction.noEscalation.Missing container

/-- **The restrictions of a container are imposed**, exactly if none was left open. On a store that
gives back what was written, after a restricted component was ensured without a failure, on its own
or in a pass, and however its object had been edited before: the stored object has one container,
which is explicitly under each restriction. The one exception is that the field which keeps it from
escalating its privileges may have been removed from an object that was recognised nevertheless. -/
theorem restrictions_imposed_iff (hc : c ∈ Component.restricted) (h : c.Ensured n ns s s')
    (hs : s.Coherent) :
    ∃ o container, s'.object? (c.place ns) = some o ∧ o.containers = [container] ∧
      (∀ r : Restriction, r ≠ .noEscalation → r.Imposed container) ∧
      ((∀ r : Restriction, r.Imposed container) ↔ ¬ c.LeftOpen n ns s) := by
  obtain ⟨o, ho, ⟨live, hlive, hrecognises, hsame⟩ | ⟨hstale, hfill⟩⟩ := h.exists_object hs
  · obtain ⟨container, want, hcontainer, hcovers, hwant⟩ :=
      Component.exists_container_of_recognises hc hrecognises
    have himposed := Restriction.imposed_or_missing hwant hcovers
    have hcontent : o.content = live.content := by
      simpa using congrArg ManagedObject.content hsame
    have hcontainers : o.containers = [container] :=
      (ManagedObject.containers_congr hcontent).trans hcontainer
    refine ⟨o, container, ho, hcontainers, fun r hr => ?_, ?_⟩
    · exact (himposed r).resolve_right fun hmissing => hr hmissing.2
    constructor
    · rintro hall ⟨live', container', hlive', -, hcontainer', hmissing⟩
      obtain rfl := Option.some.inj (hlive.symm.trans hlive')
      obtain rfl := List.singleton_inj.mp (hcontainer.symm.trans hcontainer')
      exact hmissing.not_imposed (hall .noEscalation)
    · intro hnot r
      refine (himposed r).resolve_right ?_
      rintro ⟨hmissing, rfl⟩
      exact hnot ⟨live, container, hlive, hrecognises, hcontainer, hmissing⟩
  · obtain ⟨container, hcontainer, hsecurity⟩ := Component.exists_container_of_fill hc hfill
    have himposed := Restriction.imposed_of_restricted hsecurity
    refine ⟨o, container, ho, ManagedObject.containers_of_at hcontainer, fun r _ => himposed r,
      iff_of_true himposed ?_⟩
    rintro ⟨live, -, hlive, hrecognises, -⟩
    exact hstale live hlive hrecognises

end Stored

/-! ### Edits of the security context -/

/-- A master from which everything that the operator sets was removed. -/
def strippedMaster : ManagedObject where
  metadata := { name := some Component.master.name, ns := some "gpu" }
  content := .deployment { spec := some (.obj []) }

/-- A store with a resource that bears the finalizer, and with that master. -/
def Store.stripped : Store :=
  NodeFeatureOperator.Store.minimal.putObject (Component.master.place "gpu") strippedMaster

/-- A pass puts it under all restrictions. -/
theorem restrictions_imposed_iff_stripped :
    ∃ s' t' o container, Component.master ∈ Component.restricted ∧ Store.stripped.Coherent ∧
      Store.stripped.object? (Component.master.place "gpu") =
        some (strippedMaster.withVersion "2") ∧
      (reconcile {} ⟨0, 0⟩ minimal.metadata).run Store.respond Store.stripped
        (Duration.ofSeconds 0) = (.ok (.requeue (Duration.ofSeconds 10)), s', t') ∧
      s'.object? (Component.master.place "gpu") = some o ∧ o.containers = [container] ∧
      ∀ r : Restriction, r.Imposed container := by
  have hrestricted : Component.master ∈ Component.restricted := by decide
  have hs : Store.stripped.Coherent := (Store.coherent_of_empty rfl).putObject rfl
  have hlive : Store.stripped.object? (Component.master.place "gpu") =
      some (strippedMaster.withVersion "2") := rfl
  have hn : Store.stripped.resource? ⟨"gpu", minimal.metadata.anyName⟩ =
      some (minimal.withVersion "1") := rfl
  have hasked : Component.master ∈ teardownComponents (minimal.withVersion "1").spec := by decide
  have hfirst : ((reconcile {} ⟨0, 0⟩ minimal.metadata).run Store.respond Store.stripped
      (Duration.ofSeconds 0)).1.toOption = some (.requeue (Duration.ofSeconds 10)) := by
    decide +kernel
  generalize hrun : (reconcile {} ⟨0, 0⟩ minimal.metadata).run Store.respond Store.stripped
    (Duration.ofSeconds 0) = first at hfirst
  obtain ⟨r, s', t'⟩ := first
  cases r with
  | error f => cases hfirst
  | ok action =>
      obtain rfl := Option.some.inj hfirst
      have hensured := Component.Ensured.inPass hasked rfl hn (by decide) rfl hrun
      obtain ⟨o, container, ho, hcontainer, -, hall⟩ :=
        restrictions_imposed_iff hrestricted hensured hs
      refine ⟨s', t', o, container, hrestricted, hs, hlive, rfl, ho, hcontainer, hall.mpr ?_⟩
      -- no digest is recorded on the live object
      rintro ⟨live, -, h, ⟨_, -, hhash, -⟩, -⟩
      obtain rfl := Option.some.inj (hlive.symm.trans h)
      cases hhash

/-- The removal of the field that keeps the container of the collector from escalating its
privileges. -/
def escalationEdit : Json.Edit where
  place := ["template", "spec", "containers", "0", "securityContext", "allowPrivilegeEscalation"]
  value := none

/-- After the collector was written, that field is removed. Convergence leaves that. -/
theorem removed_restriction_left :
    ∃ desired spec s live container,
      Component.collector.desired minimal "gpu" = .ok desired ∧
      escalationEdit.edited? (Blueprint.collector minimal.spec) = some spec ∧
      s = ({} : Store).putObject (Component.collector.place "gpu")
        { desired.recordHash desired.contentHash with
          content := .deployment { spec := some spec } } ∧
      s.Coherent ∧
      (Component.collector.converge minimal "gpu").run Store.respond s (Duration.ofSeconds 0) =
        (.ok .unchanged, s, Duration.ofSeconds 0) ∧
      s.object? (Component.collector.place "gpu") = some live ∧ live.containers = [container] ∧
      ¬ Restriction.noEscalation.Imposed container := by
  let desired : ManagedObject :=
    ⟨(((Component.collector.emptyObject "gpu").metadata.withLabels "nfd-gc").withOwner
      (installedReference (some true))),
      .deployment { spec := some (Blueprint.collector minimal.spec) }⟩
  have hdesired : Component.collector.desired minimal "gpu" = .ok desired := rfl
  obtain ⟨spec, hspec⟩ : ∃ spec,
      escalationEdit.edited? (Blueprint.collector minimal.spec) = some spec := ⟨_, rfl⟩
  let edited : ManagedObject :=
    { desired.recordHash desired.contentHash with content := .deployment { spec := some spec } }
  have hs : (({} : Store).putObject (Component.collector.place "gpu") edited).Coherent :=
    (Store.coherent_of_empty rfl).putObject rfl
  have hcarries : (edited.withVersion "1").carries desired = true := by
    obtain rfl := Option.some.inj hspec
    decide +kernel
  have hrecognises : Component.collector.Recognises minimal "gpu" (edited.withVersion "1") :=
    ⟨desired, hdesired, ManagedObject.recordedHash_recordHash _ _, hcarries⟩
  have hrun := Component.run_converge_of_recognises hs rfl hrecognises (Duration.ofSeconds 0)
  obtain rfl := Option.some.inj hspec
  refine ⟨desired, _, _, _, _, hdesired, rfl, rfl, hs, hrun, rfl, rfl, ?_⟩
  exact Restriction.Missing.not_imposed (.inl rfl)

end NodeFeatureOperator
