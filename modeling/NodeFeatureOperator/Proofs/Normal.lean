import NodeFeatureOperator.Proofs.ReadBack
import NodeFeatureOperator.Proofs.TimeText
import NodeFeatureOperator.Resource.NodeFeatureDiscovery

/-!
# Normal documents of the resource

A resource that was read, in whatever form, is written in one normal form, and that form reads as
the same resource. Only the times of its metadata, which are written to the second, lose their
fraction. So a write that replaces the resource by what was read of it changes nothing that a user
asked for, and a normal document is its own normal form.

## Main definitions

* `NodeFeatureDiscovery.cut`: a resource whose metadata has no fractions of a second.
* `NodeFeatureDiscovery.normal?`: the normal form of a document.

## Main results

* `Spec.readsBack`, `Metadata.readsBack` and their like: each record reads back.
* `NodeFeatureDiscovery.toJson_reads_back`: so does the resource, and normal forms are normal.
-/

namespace NodeFeatureOperator

open Json (Written)

/-- A step that gives a value hands it on. -/
theorem bind_of_eq_some {α β : Type} {step : Option α} {a : α} (h : step = some a)
    (next : α → Option β) : step >>= next = next a := by
  rw [h]
  rfl

/-! ### The desired state -/

/-- Tolerations read back. -/
theorem Toleration.readsBack : ReadsBack id ofWritten? toJson := by
  intro w t h
  obtain ⟨fields, -, h⟩ := Option.bind_eq_some_iff.mp h
  obtain ⟨key, -, h⟩ := Option.bind_eq_some_iff.mp h
  obtain ⟨operator, -, h⟩ := Option.bind_eq_some_iff.mp h
  obtain ⟨value, -, h⟩ := Option.bind_eq_some_iff.mp h
  obtain ⟨effect, -, h⟩ := Option.bind_eq_some_iff.mp h
  obtain ⟨seconds, hseconds, h⟩ := Option.bind_eq_some_iff.mp h
  obtain rfl := Option.some.inj h
  obtain ⟨written, hfields, -, hvalues⟩ := Field.exists_written
    (j := toJson ⟨key, operator, value, effect, seconds⟩) rfl (by simp)
  simp only [List.forall_mem_cons] at hvalues
  obtain ⟨heffect, hkey, hoperator, hseconds', hvalue, -⟩ := hvalues
  have hseconds := ((ReadsBack.signed 64).orNull rfl).optional hseconds hseconds'
  rw [ofWritten?, bind_of_eq_some hfields, bind_of_eq_some (Field.optionalText_written hkey),
    bind_of_eq_some (Field.optionalText_written hoperator),
    bind_of_eq_some (Field.optionalText_written hvalue),
    bind_of_eq_some (Field.optionalText_written heffect), bind_of_eq_some hseconds]
  simp

/-- Operand parameters read back. -/
theorem Operand.readsBack : ReadsBack id ofWritten? toJson := by
  intro w o h
  obtain ⟨fields, -, h⟩ := Option.bind_eq_some_iff.mp h
  obtain ⟨image, -, h⟩ := Option.bind_eq_some_iff.mp h
  obtain ⟨policy, -, h⟩ := Option.bind_eq_some_iff.mp h
  obtain ⟨port, hport, h⟩ := Option.bind_eq_some_iff.mp h
  obtain rfl := Option.some.inj h
  obtain ⟨written, -, hfields, hvalues⟩ := Field.exists_written
    (j := toJson ⟨image, policy, port⟩) rfl (by simp)
  simp only [List.forall_mem_cons] at hvalues
  obtain ⟨himage, hpolicy, hport', -⟩ := hvalues
  have hport := ((ReadsBack.signed 32).orNull rfl).optional hport hport'
  rw [ofWritten?, bind_of_eq_some (hfields _ _),
    bind_of_eq_some (Field.optionalText_written himage),
    bind_of_eq_some (Field.optionalText_written hpolicy), bind_of_eq_some hport]
  simp

/-- The worker's configuration reads back. -/
theorem Spec.readsBack_configData :
    ReadsBack id configDataOfWritten? fun s => .obj [("configData", .str s)] :=
  fun _ _ _ => rfl

/-- A desired state reads back: every default that is left out is the one that is read. -/
theorem Spec.readsBack : ReadsBack id ofWritten? toJson := by
  intro w s h
  obtain ⟨fields, -, h⟩ := Option.bind_eq_some_iff.mp h
  obtain ⟨operand, hoperand, h⟩ := Option.bind_eq_some_iff.mp h
  obtain ⟨config, hconfig, h⟩ := Option.bind_eq_some_iff.mp h
  obtain ⟨topology, htopology, h⟩ := Option.bind_eq_some_iff.mp h
  obtain ⟨prune, hprune, h⟩ := Option.bind_eq_some_iff.mp h
  obtain ⟨labelNs, hlabelNs, h⟩ := Option.bind_eq_some_iff.mp h
  obtain ⟨resources, hresources, h⟩ := Option.bind_eq_some_iff.mp h
  obtain ⟨whiteList, -, h⟩ := Option.bind_eq_some_iff.mp h
  obtain ⟨taints, htaints, h⟩ := Option.bind_eq_some_iff.mp h
  obtain ⟨tolerations, htolerations, h⟩ := Option.bind_eq_some_iff.mp h
  obtain ⟨workerTolerations, hworkerTolerations, h⟩ := Option.bind_eq_some_iff.mp h
  obtain rfl := Option.some.inj h
  obtain ⟨written, -, hfields, hvalues⟩ := Field.exists_written
    (j := toJson ⟨operand, config, topology, prune, labelNs, resources, whiteList, taints,
      tolerations, workerTolerations⟩) rfl (by simp)
  simp only [List.forall_mem_cons] at hvalues
  obtain ⟨htaints', hlabelNs', hwhiteList, hoperand', hprune', hresources', htolerations',
    htopology', hconfig', hworkerTolerations', -⟩ := hvalues
  have hoperand := Operand.readsBack.defaulted hoperand hoperand' ⟨.obj [], rfl⟩
  have hconfig := readsBack_configData.defaulted hconfig hconfig' ⟨.obj [], rfl⟩
  have htopology := ReadsBack.bool.defaulted htopology htopology' ⟨.bool false, rfl⟩
  have hprune := ReadsBack.bool.defaulted hprune hprune' ⟨.bool false, rfl⟩
  have hlabelNs := ReadsBack.text.list hlabelNs hlabelNs'
  have hresources := ReadsBack.text.list hresources hresources'
  have htaints := ReadsBack.bool.defaulted htaints htaints' ⟨.bool false, rfl⟩
  have htolerations := Toleration.readsBack.list htolerations htolerations'
  have hworkerTolerations := Toleration.readsBack.list hworkerTolerations hworkerTolerations'
  rw [ofWritten?, Written.texts?, bind_of_eq_some (hfields _ _), bind_of_eq_some hoperand,
    bind_of_eq_some hconfig, bind_of_eq_some htopology, bind_of_eq_some hprune,
    bind_of_eq_some hlabelNs, bind_of_eq_some hresources,
    bind_of_eq_some (Field.optionalText_written hwhiteList), bind_of_eq_some htaints,
    bind_of_eq_some htolerations, bind_of_eq_some hworkerTolerations]
  simp

/-! ### The status -/

/-- The status of a condition reads back. -/
theorem ConditionStatus.readsBack : ReadsBack id ofWritten? fun s => .str s.text :=
  fun _ s _ => by cases s <;> rfl

/-- Times that are written to the last place read back. -/
theorem Time.readsBack : ReadsBack id ofWritten? fun t => .str t.text := by
  intro w t h
  obtain ⟨text, -, htext⟩ := Option.bind_eq_some_iff.mp h
  rw [Json.written, ofWritten?, Written.text?, Option.bind_some,
    ofText?_text (isKept_of_ofText? htext), id]

/-- Conditions are records of fields that are all there. -/
theorem Condition.toJson_eq (c : Condition) :
    c.toJson = .record [
      ("lastTransitionTime", some (.str c.lastTransition.text)),
      ("message", some (.str c.message)),
      ("reason", some (.str c.reason)),
      ("status", some (.str c.status.text)),
      ("type", some (.str c.type))] :=
  rfl

/-- Conditions read back. -/
theorem Condition.readsBack : ReadsBack id ofWritten? toJson := by
  intro w c h
  obtain ⟨fields, -, h⟩ := Option.bind_eq_some_iff.mp h
  obtain ⟨type, htype, h⟩ := Option.bind_eq_some_iff.mp h
  obtain ⟨status, hstatus, h⟩ := Option.bind_eq_some_iff.mp h
  obtain ⟨reason, hreason, h⟩ := Option.bind_eq_some_iff.mp h
  obtain ⟨message, hmessage, h⟩ := Option.bind_eq_some_iff.mp h
  obtain ⟨time, htime, h⟩ := Option.bind_eq_some_iff.mp h
  obtain rfl := Option.some.inj h
  obtain ⟨written, -, hfields, hvalues⟩ := Field.exists_written
    (toJson_eq ⟨type, status, reason, message, time⟩) (by simp)
  simp only [List.forall_mem_cons] at hvalues
  obtain ⟨htime', hmessage', hreason', hstatus', htype', -⟩ := hvalues
  have htype := ReadsBack.text.required htype htype'
  have hstatus := ConditionStatus.readsBack.required hstatus hstatus'
  have hreason := ReadsBack.text.required hreason hreason'
  have hmessage := ReadsBack.text.required hmessage hmessage'
  have htime := Time.readsBack.required htime htime'
  rw [ofWritten?, bind_of_eq_some (hfields _ _), bind_of_eq_some htype, bind_of_eq_some hstatus,
    bind_of_eq_some hreason, bind_of_eq_some hmessage, bind_of_eq_some htime]
  simp

/-- A status reads back. -/
theorem NodeFeatureDiscovery.readsBack_status :
    ReadsBack id statusOfWritten? statusToJson := by
  intro w conditions h
  obtain ⟨fields, -, hconditions⟩ := Option.bind_eq_some_iff.mp h
  obtain ⟨written, -, hfields, hvalues⟩ := Field.exists_written
    (j := statusToJson conditions) rfl (by simp)
  have hconditions := Condition.readsBack.list hconditions (hvalues _ List.mem_cons_self)
  simp [statusOfWritten?, hfields, hconditions]

/-! ### Metadata -/

/-- Times that are written to the second read back without their fraction. -/
theorem Time.readsBack_cut : ReadsBack cut ofWritten? toSecondJson := by
  intro w t h
  obtain ⟨text, -, htext⟩ := Option.bind_eq_some_iff.mp h
  rw [toSecondJson, Json.written, ofWritten?, Written.text?, Option.bind_some,
    ofText?_wholeSeconds (isKept_of_ofText? htext)]

/-- Owner references read back. -/
theorem OwnerReference.readsBack : ReadsBack id ofWritten? toJson := by
  intro w r h
  obtain ⟨fields, -, h⟩ := Option.bind_eq_some_iff.mp h
  obtain ⟨apiVersion, -, h⟩ := Option.bind_eq_some_iff.mp h
  obtain ⟨block, hblock, h⟩ := Option.bind_eq_some_iff.mp h
  obtain ⟨controller, hcontroller, h⟩ := Option.bind_eq_some_iff.mp h
  obtain ⟨kind, -, h⟩ := Option.bind_eq_some_iff.mp h
  obtain ⟨name, -, h⟩ := Option.bind_eq_some_iff.mp h
  obtain ⟨uid, -, h⟩ := Option.bind_eq_some_iff.mp h
  obtain rfl := Option.some.inj h
  obtain ⟨written, hfields, -, hvalues⟩ := Field.exists_written
    (j := toJson ⟨apiVersion, kind, name, uid, controller, block⟩) rfl (by simp)
  simp only [List.forall_mem_cons] at hvalues
  obtain ⟨hapiVersion, hblock', hcontroller', hkind, hname, huid, -⟩ := hvalues
  have hblock := (ReadsBack.bool.orNull rfl).optional hblock hblock'
  have hcontroller := (ReadsBack.bool.orNull rfl).optional hcontroller hcontroller'
  rw [ofWritten?, bind_of_eq_some hfields, bind_of_eq_some (Field.text_written hapiVersion),
    bind_of_eq_some hblock, bind_of_eq_some hcontroller, bind_of_eq_some (Field.text_written hkind),
    bind_of_eq_some (Field.text_written hname), bind_of_eq_some (Field.text_written huid)]
  simp

/-- A record of managed fields without a fraction of a second. -/
def ManagedFields.cut (m : ManagedFields) : ManagedFields := { m with time := m.time.map Time.cut }

/-- Records of managed fields read back without a fraction of a second. -/
theorem ManagedFields.readsBack : ReadsBack cut ofWritten? toJson := by
  intro w m h
  obtain ⟨fields, -, h⟩ := Option.bind_eq_some_iff.mp h
  obtain ⟨apiVersion, -, h⟩ := Option.bind_eq_some_iff.mp h
  obtain ⟨fieldsType, -, h⟩ := Option.bind_eq_some_iff.mp h
  obtain ⟨fieldsV1, hfieldsV1, h⟩ := Option.bind_eq_some_iff.mp h
  obtain ⟨manager, -, h⟩ := Option.bind_eq_some_iff.mp h
  obtain ⟨operation, -, h⟩ := Option.bind_eq_some_iff.mp h
  obtain ⟨subresource, -, h⟩ := Option.bind_eq_some_iff.mp h
  obtain ⟨time, htime, h⟩ := Option.bind_eq_some_iff.mp h
  obtain rfl := Option.some.inj h
  obtain ⟨written, hfields, -, hvalues⟩ := Field.exists_written
    (j := toJson ⟨apiVersion, fieldsType, fieldsV1, manager, operation, subresource, time⟩) rfl
    (by simp)
  simp only [List.forall_mem_cons] at hvalues
  obtain ⟨hapiVersion, hfieldsType, hfieldsV1', hmanager, hoperation, hsubresource, htime', -⟩ :=
    hvalues
  have hfieldsV1 := ReadsBack.value.optional hfieldsV1 (by simpa using hfieldsV1')
  have htime := (Time.readsBack_cut.orNull rfl).optional htime htime'
  rw [ofWritten?, bind_of_eq_some hfields, bind_of_eq_some (Field.optionalText_written hapiVersion),
    bind_of_eq_some (Field.optionalText_written hfieldsType), bind_of_eq_some hfieldsV1,
    bind_of_eq_some (Field.optionalText_written hmanager),
    bind_of_eq_some (Field.optionalText_written hoperation),
    bind_of_eq_some (Field.optionalText_written hsubresource), bind_of_eq_some htime]
  simp [cut]

/-- Metadata without fractions of a second. -/
def Metadata.cut (m : Metadata) : Metadata :=
  { m with
    creationTimestamp := m.creationTimestamp.map Time.cut
    deletionTimestamp := m.deletionTimestamp.map Time.cut
    managedFields := m.managedFields.map (List.map ManagedFields.cut) }

/-- Metadata reads back without fractions of a second. -/
theorem Metadata.readsBack : ReadsBack cut ofWritten? toJson := by
  intro w m h
  obtain ⟨fields, -, h⟩ := Option.bind_eq_some_iff.mp h
  obtain ⟨name, -, h⟩ := Option.bind_eq_some_iff.mp h
  obtain ⟨generateName, -, h⟩ := Option.bind_eq_some_iff.mp h
  obtain ⟨ns, -, h⟩ := Option.bind_eq_some_iff.mp h
  obtain ⟨uid, -, h⟩ := Option.bind_eq_some_iff.mp h
  obtain ⟨version, -, h⟩ := Option.bind_eq_some_iff.mp h
  obtain ⟨selfLink, -, h⟩ := Option.bind_eq_some_iff.mp h
  obtain ⟨labels, hlabels, h⟩ := Option.bind_eq_some_iff.mp h
  obtain ⟨annotations, hannotations, h⟩ := Option.bind_eq_some_iff.mp h
  obtain ⟨finalizers, hfinalizers, h⟩ := Option.bind_eq_some_iff.mp h
  obtain ⟨owners, howners, h⟩ := Option.bind_eq_some_iff.mp h
  obtain ⟨creation, hcreation, h⟩ := Option.bind_eq_some_iff.mp h
  obtain ⟨deletion, hdeletion, h⟩ := Option.bind_eq_some_iff.mp h
  obtain ⟨grace, hgrace, h⟩ := Option.bind_eq_some_iff.mp h
  obtain ⟨generation, hgeneration, h⟩ := Option.bind_eq_some_iff.mp h
  obtain ⟨managed, hmanaged, h⟩ := Option.bind_eq_some_iff.mp h
  obtain rfl := Option.some.inj h
  obtain ⟨written, hfields, -, hvalues⟩ := Field.exists_written
    (j := toJson ⟨name, generateName, ns, uid, version, selfLink, labels, annotations, finalizers,
      owners, creation, deletion, grace, generation, managed⟩) rfl (by simp)
  simp only [List.forall_mem_cons] at hvalues
  obtain ⟨hannotations', hcreation', hgrace', hdeletion', hfinalizers', hgenerateName, hgeneration',
    hlabels', hmanaged', hname, hns, howners', hversion, hselfLink, huid, -⟩ := hvalues
  have hlabels := (ReadsBack.textDict.orNull rfl).optional hlabels hlabels'
  have hannotations := (ReadsBack.textDict.orNull rfl).optional hannotations hannotations'
  have hfinalizers := (ReadsBack.text.listOf.orNull rfl).optional hfinalizers hfinalizers'
  have howners := (OwnerReference.readsBack.listOf.orNull rfl).optional howners howners'
  have hcreation := (Time.readsBack_cut.orNull rfl).optional hcreation hcreation'
  have hdeletion := (Time.readsBack_cut.orNull rfl).optional hdeletion hdeletion'
  have hgrace := ((ReadsBack.signed 64).orNull rfl).optional hgrace hgrace'
  have hgeneration := ((ReadsBack.signed 64).orNull rfl).optional hgeneration hgeneration'
  have hmanaged := (ManagedFields.readsBack.listOf.orNull rfl).optional hmanaged hmanaged'
  rw [ofWritten?, Written.texts?, bind_of_eq_some hfields,
    bind_of_eq_some (Field.optionalText_written hname),
    bind_of_eq_some (Field.optionalText_written hgenerateName),
    bind_of_eq_some (Field.optionalText_written hns),
    bind_of_eq_some (Field.optionalText_written huid),
    bind_of_eq_some (Field.optionalText_written hversion),
    bind_of_eq_some (Field.optionalText_written hselfLink), bind_of_eq_some hlabels,
    bind_of_eq_some hannotations, bind_of_eq_some hfinalizers, bind_of_eq_some howners,
    bind_of_eq_some hcreation, bind_of_eq_some hdeletion, bind_of_eq_some hgrace,
    bind_of_eq_some hgeneration, bind_of_eq_some hmanaged]
  simp [cut]

/-! ### The resource -/

/-- A resource whose metadata has no fractions of a second. -/
def NodeFeatureDiscovery.cut (n : NodeFeatureDiscovery) : NodeFeatureDiscovery :=
  { n with metadata := n.metadata.cut }

/-- The normal form of a document: what is read of it, written. -/
def NodeFeatureDiscovery.normal? (w : Written) : Option Json := (ofWritten? w).map toJson

/-- A resource reads back without the fractions of a second in its metadata. -/
theorem NodeFeatureDiscovery.readsBack : ReadsBack cut ofWritten? toJson := by
  intro w n h
  obtain ⟨fields, -, h⟩ := Option.bind_eq_some_iff.mp h
  obtain ⟨metadata, hmetadata, h⟩ := Option.bind_eq_some_iff.mp h
  obtain ⟨spec, hspec, h⟩ := Option.bind_eq_some_iff.mp h
  obtain ⟨status, hstatus, h⟩ := Option.bind_eq_some_iff.mp h
  obtain rfl := Option.some.inj h
  obtain ⟨written, -, hfields, hvalues⟩ := Field.exists_written
    (j := toJson ⟨metadata, spec, status⟩) rfl (by simp)
  simp only [List.forall_mem_cons] at hvalues
  obtain ⟨-, -, hmetadata', hspec', hstatus', -⟩ := hvalues
  have hmetadata := Metadata.readsBack.required hmetadata hmetadata'
  have hspec := Spec.readsBack.required hspec hspec'
  have hstatus := (readsBack_status.orNull rfl).optional hstatus hstatus'
  rw [ofWritten?, bind_of_eq_some (hfields _ _), bind_of_eq_some hmetadata, bind_of_eq_some hspec,
    bind_of_eq_some hstatus]
  simp [cut]

/-- What is written to the second has no fraction. -/
@[simp] theorem Time.toSecondJson_cut (t : Time) : t.cut.toSecondJson = t.toSecondJson := by
  rw [toSecondJson, toSecondJson, wholeSeconds_eq, wholeSeconds_eq, cut_cut]

/-- A record of managed fields is written without a fraction of a second. -/
@[simp] theorem ManagedFields.toJson_cut (m : ManagedFields) : m.cut.toJson = m.toJson := by
  simp [toJson, cut, Function.comp_def]

/-- Metadata is written without fractions of a second. -/
@[simp] theorem Metadata.toJson_cut (m : Metadata) : m.cut.toJson = m.toJson := by
  simp [toJson, cut, Function.comp_def]

/-- **The normal form reads as the same resource, without the fractions of a second in its
metadata; it is its own normal form.** -/
theorem NodeFeatureDiscovery.toJson_reads_back {w : Written} {n : NodeFeatureDiscovery}
    (h : ofWritten? w = some n) :
    ofJson? n.toJson = some n.cut ∧ normal? n.toJson.written = some n.toJson := by
  have hback : ofWritten? n.toJson.written = some n.cut := readsBack w n h
  have hwritten : n.cut.toJson = n.toJson := by simp [toJson, cut]
  refine ⟨hback, ?_⟩
  rw [normal?, hback, Option.map_some, hwritten]

/-- The list form of a resource reads back, here one with a null, a fraction of a second and a field
that no reader looks at. -/
theorem NodeFeatureDiscovery.toJson_reads_back_listForm :
    ofWritten? (.arr [
        .obj [("name", .str "nfd"), ("namespace", .null),
          ("creationTimestamp", .str "2024-02-29T23:59:59.5+01:00"), ("other", .unreadable)],
        .arr [.obj [("servicePort", .num (.int 8080))], .arr []],
        .obj []]) =
      some ⟨{ name := some "nfd", creationTimestamp := some ⟨1709247599, 500000000⟩ },
        { operand := { servicePort := some 8080 } }, some []⟩ ∧
    ofJson? (toJson ⟨{ name := some "nfd", creationTimestamp := some ⟨1709247599, 500000000⟩ },
        { operand := { servicePort := some 8080 } }, some []⟩) =
      some ⟨{ name := some "nfd", creationTimestamp := some ⟨1709247599, 0⟩ },
        { operand := { servicePort := some 8080 } }, some []⟩ := by
  refine ⟨?read, (toJson_reads_back ?read).1⟩
  decide +kernel

end NodeFeatureOperator
