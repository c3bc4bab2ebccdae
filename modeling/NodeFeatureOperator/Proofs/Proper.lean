import NodeFeatureOperator.Component.Blueprint
import NodeFeatureOperator.Proofs.Extension
import NodeFeatureOperator.Proofs.Unambiguous

/-!
# What blueprints are written with

The blueprints of the components, and the references and tolerations in them, are written with
texts, flags, integers, lists, and objects whose keys are different, whatever the desired state is.
Such a value extends itself, and no other one has its text.

## Main definitions

* `Json.Proper`: a well-formed value in which every number is an integer.

## Main results

* `Json.proper_record_iff`: when a record is proper.
* `Blueprint.proper_worker` and its like: the blueprints are proper.
-/

namespace NodeFeatureOperator

namespace Json

/-- The value is well formed, and every number in it is an integer. -/
def Proper (j : Json) : Prop := j.WellFormed ∧ j.Integral

/-- Items are integral if each of them is. -/
theorem integralItems_iff {items : List Json} :
    IntegralItems items ↔ ∀ j ∈ items, j.Integral := by
  induction items with
  | nil => simp [IntegralItems]
  | cons j rest ih => simp [IntegralItems, ih]

/-- The values of fields are integral if each of them is. -/
theorem integralFields_iff {fields : List (String × Json)} :
    IntegralFields fields ↔ ∀ e ∈ fields, e.2.Integral := by
  induction fields with
  | nil => simp [IntegralFields]
  | cons e rest ih => simp [IntegralFields, ih]

@[simp] theorem proper_bool (b : Bool) : (bool b).Proper := ⟨trivial, trivial⟩

@[simp] theorem proper_int (i : Int) : (int i).Proper := ⟨trivial, trivial⟩

@[simp] theorem proper_str (s : String) : (str s).Proper := ⟨trivial, trivial⟩

/-- A list is proper if its items are. -/
@[simp] theorem proper_arr_iff {items : List Json} :
    (arr items).Proper ↔ ∀ j ∈ items, j.Proper := by
  change WellFormedItems items ∧ IntegralItems items ↔ _
  rw [wellFormedItems_iff, integralItems_iff]
  exact forall₂_and.symm

/-- An object is proper if its keys are different and its values are proper. -/
@[simp] theorem proper_obj_iff {fields : List (String × Json)} :
    (obj fields).Proper ↔ (fields.map Prod.fst).Nodup ∧ ∀ e ∈ fields, e.2.Proper := by
  change ((fields.map Prod.fst).Nodup ∧ WellFormedFields fields) ∧ IntegralFields fields ↔ _
  rw [wellFormedFields_iff, integralFields_iff, and_assoc]
  exact and_congr_right fun _ => forall₂_and.symm

/-- A list of texts is proper. -/
@[simp] theorem proper_texts (l : List String) : (texts l).Proper := by simp [texts]

/-- A record of different keys is proper if the fields that it has are. -/
@[simp] theorem proper_record_iff {fields : List (String × Option Json)}
    (hkeys : (fields.map Prod.fst).Nodup) :
    (record fields).Proper ↔ ∀ e ∈ fields, ∀ j, e.2 = some j → j.Proper := by
  refine proper_obj_iff.trans ⟨fun h e he j hj => ?_, fun h => ⟨?_, fun e he => ?_⟩⟩
  · exact h.2 (e.1, j) (Dict.mem_present_iff.mpr (hj ▸ he))
  · exact hkeys.sublist (Dict.keys_present_sublist fields)
  · exact h _ (Dict.mem_present_iff.mp he) _ rfl

end Json

/-- A toleration is written with texts and integers. -/
@[simp] theorem Toleration.proper_toJson (t : Toleration) : t.toJson.Proper := by
  simp [toJson]

/-- A reference to an owner is written with texts and flags. -/
@[simp] theorem OwnerReference.proper_toJson (r : OwnerReference) : r.toJson.Proper := by
  have hflag : ∀ (flag : Option Bool) j, flag.map Json.bool = some j → j.Proper := by
    rintro (_ | b) j ⟨⟩
    exact Json.proper_bool b
  refine (Json.proper_record_iff (by simp)).mpr ?_
  simpa using And.intro (hflag r.blockOwnerDeletion) (hflag r.controller)

namespace Pod

/-- A template is proper if its pod is. -/
@[simp] theorem proper_template_iff {app : String} {pod : Json} :
    (template app pod).Proper ↔ pod.Proper := by
  simp [template, Json.textDict, Dict.mapValues, selectorLabels]

/-- A selector is proper. -/
@[simp] theorem proper_selector (app : String) : (selector app).Proper := by
  simp [selector, Json.textDict, Dict.mapValues, selectorLabels]

/-- The security context of most pods is proper. -/
@[simp] theorem proper_restrictedSecurity : restrictedSecurity.Proper := by
  simp [restrictedSecurity, noCapabilities]

/-- So is that of the topology updater. -/
@[simp] theorem proper_privilegedSecurity : privilegedSecurity.Proper := by
  simp [privilegedSecurity, noCapabilities]

/-- The preference for control-plane nodes is proper. -/
@[simp] theorem proper_controlPlaneAffinity : controlPlaneAffinity.Proper := by
  simp [controlPlaneAffinity, rolePreference]

/-- A mount is proper. -/
@[simp] theorem proper_readOnlyMount (name path : String) : (readOnlyMount name path).Proper := by
  simp [readOnlyMount]

/-- The volume of a host path is proper. -/
@[simp] theorem proper_volume (m : HostMount) : m.volume.Proper := by
  simp [HostMount.volume]

end Pod

namespace Blueprint

/-- A container is proper if its parts are. -/
@[simp] theorem proper_container_iff {s : Spec} {name program : String}
    {arguments : Option (List String)} {ports mounts : Option Json} {security : Json} :
    (container s name program arguments ports security mounts).Proper ↔
      (∀ j, ports = some j → j.Proper) ∧ security.Proper ∧
        ∀ j, mounts = some j → j.Proper := by
  simp [container, Pod.environment]

/-- A pod is proper if its parts are. -/
@[simp] theorem proper_pod_iff {account : String} {container : Json}
    {affinity volumes : Option Json} {restartPolicy : Option String}
    {tolerations : Option (List Toleration)} :
    (pod account container affinity restartPolicy tolerations volumes).Proper ↔
      (∀ j, affinity = some j → j.Proper) ∧ container.Proper ∧
        ∀ j, volumes = some j → j.Proper := by
  simp [pod, Pod.tolerationsJson]

/-- The blueprint of the worker is proper. -/
theorem proper_worker (s : Spec) : (worker s).Proper := by
  simp [worker, workerMounts, Pod.HostMount.mount, configVolume]

/-- The blueprint of the master is proper. -/
theorem proper_master (s : Spec) : (master s).Proper := by
  simp [master]

/-- The blueprint of the collector is proper. -/
theorem proper_collector (s : Spec) : (collector s).Proper := by
  simp [collector]

/-- The blueprint of the topology updater is proper. -/
theorem proper_topologyUpdater (s : Spec) : (topologyUpdater s).Proper := by
  simp [topologyUpdater, Pod.HostMount.mount]

/-- The blueprint of the prune Job is proper. -/
theorem proper_prune (s : Spec) : (prune s).Proper := by
  simp [prune]

end Blueprint

end NodeFeatureOperator
