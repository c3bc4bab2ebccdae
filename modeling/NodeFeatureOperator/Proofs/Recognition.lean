import NodeFeatureOperator.Proofs.Ownership
import NodeFeatureOperator.Proofs.Proper
import NodeFeatureOperator.Proofs.SteadyState

/-!
# Recognition of what was built

An object that was written is left alone afterwards if it bears the digest of the desired object and
carries its content. A build sets all that the desired object sets, whatever was on the object it
was built onto, with one exception: it keeps references to other owners, whereas the desired object
has a single one, and lists have to agree item by item. So a build is recognised exactly if the
object had no other owner, and fields added to it later do not change that.

## Main definitions

* `ManagedObject.SolelyOwned`: an object refers to no owner but one.

## Main results

* `Component.extends_desired`: what a build on a solely owned object extends.
* `recognised_iff_solelyOwned`: when an object is recognised after a build onto it.
-/

namespace NodeFeatureOperator

/-- An object refers to no owner, or else to the resource, and once only. -/
def ManagedObject.SolelyOwned (n : NodeFeatureDiscovery) (o : ManagedObject) : Prop :=
  (o.metadata.ownerReferences.getD []).length ≤ 1 ∧
    ∀ r ∈ o.metadata.ownerReferences.getD [], some r.uid = n.metadata.uid

/-! ### Owners -/

/-- After an owner is placed there is one reference only if there was none, or one to that owner. -/
theorem OwnerReference.length_place_eq_one_iff {ref : OwnerReference}
    {refs : List OwnerReference} :
    (ref.place refs).length = 1 ↔ refs.length ≤ 1 ∧ ∀ r ∈ refs, r.uid = ref.uid := by
  rcases refs with _ | ⟨r, _ | ⟨r', rest⟩⟩
  · simp [place]
  · by_cases h : r.uid = ref.uid <;> simp [place, h]
  · by_cases h : r.uid = ref.uid
    · simp [place, h]
    · by_cases h' : r'.uid = ref.uid <;> simp [place, h, h']

/-- An only reference after an owner is placed is to that owner. -/
theorem OwnerReference.place_eq_singleton {ref : OwnerReference} {refs : List OwnerReference}
    (h : (ref.place refs).length = 1) : ref.place refs = [ref] := by
  obtain ⟨r, hr⟩ := List.length_eq_one_iff.mp h
  have hmem := ref.mem_place_self refs
  rw [hr] at hmem
  rw [hr, List.mem_singleton.mp hmem]

/-- A resource is the sole owner exactly if its reference is the only one after it is placed. -/
theorem solelyOwned_iff {n : NodeFeatureDiscovery} {o : ManagedObject} {ref : OwnerReference}
    (href : n.ownerReference? = some ref) :
    o.SolelyOwned n ↔ (ref.place (o.metadata.ownerReferences.getD [])).length = 1 := by
  rw [OwnerReference.length_place_eq_one_iff, ManagedObject.SolelyOwned,
    ← (NodeFeatureDiscovery.controller_of_ownerReference? href).2]
  simp only [Option.some.injEq]

/-! ### What extends metadata -/

section Extension

variable {m m' : Metadata}

/-- Metadata of an extension have as many references. -/
theorem Metadata.exists_references_of_extends (h : m.toJson.Extends m'.toJson)
    {refs' : List OwnerReference} (hrefs' : m'.ownerReferences = some refs') :
    ∃ refs, m.ownerReferences = some refs ∧ refs.length = refs'.length := by
  obtain ⟨l, hl, items, rfl, hitems⟩ := Json.Extends.field "ownerReferences"
    (m.ownerReferences.map fun l => .arr (l.map OwnerReference.toJson))
    (.arr (refs'.map OwnerReference.toJson)) h (by simp) (by simp) (by simp [hrefs'])
  obtain ⟨refs, hrefs, heq⟩ := Option.map_eq_some_iff.mp hl
  obtain rfl := Json.arr.inj heq
  exact ⟨refs, hrefs, by simpa using Json.length_of_extendsItems hitems⟩

/-- Metadata of an extension have the same annotations, and perhaps more. -/
theorem Metadata.exists_annotation_of_extends (h : m.toJson.Extends m'.toJson)
    {annotations' : Dict String} (hannotations' : m'.annotations = some annotations')
    {key value : String} (hkey : Dict.find? key annotations' = some value) :
    ∃ annotations, m.annotations = some annotations ∧
      Dict.find? key annotations = some value := by
  obtain ⟨l, hl, fields, rfl, hfields⟩ := Json.Extends.field "annotations"
    (m.annotations.map .textDict) (.textDict annotations') h (by simp) (by simp)
    (by simp [hannotations'])
  obtain ⟨annotations, hannotations, heq⟩ := Option.map_eq_some_iff.mp hl
  obtain rfl := Json.obj.inj heq
  have hmem : (key, Json.str value) ∈ Dict.mapValues .str annotations' :=
    Dict.mem_of_find? (by rw [Dict.find?_mapValues, hkey]; rfl)
  obtain ⟨l, hfound, rfl⟩ := Json.extendsFields_iff.mp hfields _ _ hmem
  rw [Dict.find?_mapValues] at hfound
  obtain ⟨value', hvalue, heq⟩ := Option.map_eq_some_iff.mp hfound
  obtain rfl := Json.str.inj heq
  exact ⟨annotations, hannotations, hvalue⟩

/-- The metadata of an extension extend the metadata. -/
theorem ManagedObject.extends_metadata {live o : ManagedObject} (h : live.toJson.Extends o.toJson) :
    live.metadata.toJson.Extends o.metadata.toJson := by
  obtain ⟨lives, hlive, hnodup, hl⟩ := live.exists_fields
  obtain ⟨fields, hfields, -, hw⟩ := o.exists_fields
  rw [hlive, hfields] at h
  obtain ⟨l, heq, hextends⟩ := Json.Extends.field _ _ _ h hnodup hl hw
  obtain rfl := Option.some.inj heq
  exact hextends

end Extension

/-! ### What a build extends -/

/-- The metadata of a build from scratch. -/
def Metadata.fresh (app ns : String) (ref : OwnerReference) : Metadata where
  name := some app
  ns := some ns
  labels := some [(appLabel, app), (managedByLabel, managedByValue)]
  ownerReferences := some [ref]

/-- A reference is written as a well-formed value. -/
theorem OwnerReference.wellFormed_toJson (ref : OwnerReference) : ref.toJson.WellFormed :=
  ref.proper_toJson.1

/-- Metadata with the name, the namespace, the labels and the single owner of fresh ones extend
them. -/
theorem Metadata.extends_fresh {m : Metadata} {app ns : String} {ref : OwnerReference}
    {labels : Dict String} (hname : m.name = some app) (hns : m.ns = some ns)
    (hlabels : m.labels = some labels) (happ : Dict.find? appLabel labels = some app)
    (hmanaged : Dict.find? managedByLabel labels = some managedByValue)
    (hrefs : m.ownerReferences = some [ref]) : m.toJson.Extends (fresh app ns ref).toJson := by
  refine Json.extends_record (by simp) fun key w hw => ?_
  simp only [fresh, Option.map_none, Option.map_some, List.mem_cons, Prod.mk.injEq, reduceCtorEq,
    and_false, Option.some.injEq, List.not_mem_nil, or_false, false_or] at hw
  obtain ⟨rfl, rfl⟩ | ⟨rfl, rfl⟩ | ⟨rfl, rfl⟩ | ⟨rfl, rfl⟩ := hw
  · refine ⟨.textDict labels, by simp [hlabels], _, rfl, ⟨_, ?_, rfl⟩, ⟨_, ?_, rfl⟩, trivial⟩
    · rw [Dict.find?_mapValues, happ]
      rfl
    · rw [Dict.find?_mapValues, hmanaged]
      rfl
  · exact ⟨.str app, by simp [hname], rfl⟩
  · exact ⟨.str ns, by simp [hns], rfl⟩
  · refine ⟨.arr [ref.toJson], by simp [hrefs], Json.extends_self _ ⟨?_, trivial⟩⟩
    exact ref.wellFormed_toJson

/-- A configuration with metadata and data of an extension extends one that has nothing else. -/
theorem ManagedObject.extends_config {m m' : Metadata} (h : m.toJson.Extends m'.toJson)
    (content : ConfigContent) (key value : String) :
    (ManagedObject.mk m (.configMap { content with data := some [(key, value)] })).toJson.Extends
      (ManagedObject.mk m' (.configMap { data := some [(key, value)] })).toJson := by
  refine Json.extends_record (by simp) fun field w hw => ?_
  simp only [Option.map_none, Option.map_some, List.mem_cons, Prod.mk.injEq, reduceCtorEq,
    and_false, Option.some.injEq, List.not_mem_nil, or_false, false_or] at hw
  obtain ⟨rfl, rfl⟩ | ⟨rfl, rfl⟩ | ⟨rfl, rfl⟩ | ⟨rfl, rfl⟩ := hw
  · exact ⟨_, List.mem_cons_self, rfl⟩
  · exact ⟨_, by simp, Json.extends_self _ ⟨List.nodup_singleton _, trivial, trivial⟩⟩
  · exact ⟨.str ResourceKind.configMap.text, by simp [kind, Content.kind], rfl⟩
  · exact ⟨m.toJson, by simp, h⟩

/-- A workload with metadata and specification of an extension extends one that has nothing else. -/
theorem ManagedObject.extends_workload {m m' : Metadata} (h : m.toJson.Extends m'.toJson)
    (version kind : String) (w : Workload) {spec : Json} (hspec : spec.WellFormed) :
    (Json.record ([("apiVersion", some (.str version)), ("kind", some (.str kind)),
      ("metadata", some m.toJson)] ++ workloadFields { w with spec := some spec })).Extends
      (.record ([("apiVersion", some (.str version)), ("kind", some (.str kind)),
        ("metadata", some m'.toJson)] ++ workloadFields { spec := some spec })) := by
  refine Json.extends_record (by simp [workloadFields]) fun field w hw => ?_
  simp only [workloadFields, List.cons_append, List.nil_append, List.mem_cons, Prod.mk.injEq,
    reduceCtorEq, and_false, Option.some.injEq, List.not_mem_nil, or_false] at hw
  obtain ⟨rfl, rfl⟩ | ⟨rfl, rfl⟩ | ⟨rfl, rfl⟩ | ⟨rfl, rfl⟩ := hw
  · exact ⟨_, by simp, rfl⟩
  · exact ⟨_, by simp, rfl⟩
  · exact ⟨m.toJson, by simp, h⟩
  · exact ⟨_, by simp [workloadFields], Json.extends_self _ hspec⟩

namespace Component

variable {c : Component} {n : NodeFeatureDiscovery} {ns : String} {o b d : ManagedObject}

/-- What a component fills extends what it fills of an empty content, if the metadata do. -/
theorem extends_of_fill {s : Spec} {m m' : Metadata} {x y y' : Content} (hy : c.fill s x = some y)
    (hy' : c.fill s (ManagedObject.emptyContent c.kind) = some y')
    (h : m.toJson.Extends m'.toJson) :
    (ManagedObject.mk m y).toJson.Extends (ManagedObject.mk m' y').toJson := by
  have hworkload := ManagedObject.extends_workload h
  cases c <;> cases x <;> simp only [fill, Option.some.injEq, reduceCtorEq] at hy <;>
    simp only [fill, kind, ManagedObject.emptyContent, Option.some.injEq] at hy' <;>
    subst hy hy'
  · exact ManagedObject.extends_config h _ _ _
  · exact hworkload _ _ _ (Blueprint.proper_worker s).1
  · exact hworkload _ _ _ (Blueprint.proper_master s).1
  · exact hworkload _ _ _ (Blueprint.proper_collector s).1
  · exact hworkload _ _ _ (Blueprint.proper_topologyUpdater s).1
  · exact hworkload _ _ _ (Blueprint.proper_prune s).1

/-- A build onto an object without other owners extends the desired object, also after a digest and
a version were set on it. -/
theorem extends_desired (hname : o.metadata.name = some c.name) (hns : o.metadata.ns = some ns)
    (hb : c.built n o = .ok b) (hd : c.desired n ns = .ok d) (hsole : o.SolelyOwned n)
    {m : Metadata} (hm : m.name = b.metadata.name ∧ m.ns = b.metadata.ns ∧
      m.labels = b.metadata.labels ∧ m.ownerReferences = b.metadata.ownerReferences) :
    (ManagedObject.mk m b.content).toJson.Extends d.toJson := by
  obtain ⟨content, ref, hfill, href, -, rfl⟩ := built_eq_ok_iff.mp hb
  obtain ⟨content', ref', hfill', href', -, rfl⟩ := built_eq_ok_iff.mp hd
  obtain rfl := Option.some.inj (href.symm.trans href')
  have hplace := OwnerReference.place_eq_singleton ((solelyOwned_iff href).mp hsole)
  have hne : appLabel ≠ managedByLabel := by decide
  refine extends_of_fill hfill hfill' ?_
  change m.toJson.Extends (Metadata.fresh c.name ns ref).toJson
  obtain ⟨hmname, hmns, hmlabels, hmrefs⟩ := hm
  refine Metadata.extends_fresh (hmname.trans hname) (hmns.trans hns) hmlabels ?_ ?_ ?_
  · rw [Dict.find?_insert_of_ne _ _ hne, Dict.find?_insert_self]
  · rw [Dict.find?_insert_self]
  · exact hmrefs.trans (congrArg some hplace)

end Component

/-- **A build is recognised unless there are other owners.** What is built onto an object carries
the desired object exactly if the object had no other owner. After it was written, with its digest
and a version of its own, whatever fields a server adds to it, it is recognised by digest and
content in the same cases. -/
theorem recognised_iff_solelyOwned {c : Component} {n : NodeFeatureDiscovery} {ns : String}
    {o b d : ManagedObject} (hname : o.metadata.name = some c.name)
    (hns : o.metadata.ns = some ns) (hb : c.built n o = .ok b) (hd : c.desired n ns = .ok d) :
    (b.carries d = true ↔ o.SolelyOwned n) ∧
    ∀ (version : String) (live : ManagedObject),
      live.toJson.Extends ((b.recordHash d.contentHash).withVersion version).toJson →
      ((live.recordedHash = some d.contentHash ∧ live.carries d = true) ↔ o.SolelyOwned n) := by
  obtain ⟨ref, href, hrefs, hdesired⟩ : ∃ ref, n.ownerReference? = some ref ∧
      b.metadata.ownerReferences = some (ref.place (o.metadata.ownerReferences.getD [])) ∧
      d.metadata.ownerReferences = some [ref] := by
    obtain ⟨_, ref, -, href, -, rfl⟩ := Component.built_eq_ok_iff.mp hb
    obtain ⟨_, ref', -, href', -, rfl⟩ := Component.built_eq_ok_iff.mp hd
    obtain rfl := Option.some.inj (href.symm.trans href')
    exact ⟨ref, href, rfl, rfl⟩
  constructor
  · constructor
    · intro hcarries
      obtain ⟨r, hr, -⟩ := ManagedObject.exists_reference_of_carries hdesired hcarries
      rw [solelyOwned_iff href, Option.some.inj (hrefs.symm.trans hr)]
      rfl
    · intro hsole
      exact Json.Extends.covers _
        (Component.extends_desired hname hns hb hd hsole ⟨rfl, rfl, rfl, rfl⟩)
  · intro version live hlive
    have hmetadata := ManagedObject.extends_metadata hlive
    constructor
    · rintro ⟨-, hcarries⟩
      obtain ⟨r, hr, -⟩ := ManagedObject.exists_reference_of_carries hdesired hcarries
      obtain ⟨refs, hlives, hlength⟩ := Metadata.exists_references_of_extends hmetadata hrefs
      rw [solelyOwned_iff href, ← hlength, Option.some.inj (hlives.symm.trans hr)]
      rfl
    · intro hsole
      obtain ⟨annotations, hannotations, hhash⟩ := Metadata.exists_annotation_of_extends hmetadata
        rfl (Dict.find?_insert_self ManagedObject.hashAnnotation d.contentHash _)
      refine ⟨?_, Json.Extends.covers _ (hlive.trans _
        (Component.extends_desired hname hns hb hd hsole ⟨rfl, rfl, rfl, rfl⟩))⟩
      rw [ManagedObject.recordedHash, hannotations]
      exact hhash

/-- A reference to a node. -/
def nodeReference : OwnerReference where
  apiVersion := "v1"
  kind := "Node"
  name := "a"
  uid := "9"

/-- A configuration at the worker's place that others have labelled, with references of theirs. -/
def labelled (refs : List OwnerReference) : ManagedObject where
  metadata := { name := some Component.workerConfig.name, ns := some "gpu",
                labels := some [("team", "hardware")], ownerReferences := some refs }
  content := .configMap { data := some [("other", "x")] }

/-- What is built for the installed resource onto the labelled configuration without references. -/
def labelledBuilt : ManagedObject where
  metadata := { name := some Component.workerConfig.name, ns := some "gpu",
                labels := some [(appLabel, "nfd-worker"), (managedByLabel, managedByValue),
                                ("team", "hardware")],
                ownerReferences := installed.ownerReference?.map fun ref => [ref] }
  content := .configMap { data := some [(Blueprint.configKey, installed.spec.configData)] }

/-- It is recognised after it was written, also by a server that adds a default. -/
theorem recognised_iff_solelyOwned_labelled :
    ∃ d live : ManagedObject,
      Component.workerConfig.built installed (labelled []) = .ok labelledBuilt ∧
      Component.workerConfig.desired installed "gpu" = .ok d ∧
      live.content = .configMap { data := some [(Blueprint.configKey, installed.spec.configData)],
                                  immutable := some false } ∧
      live.toJson.Extends ((labelledBuilt.recordHash d.contentHash).withVersion "2").toJson ∧
      (labelledBuilt.carries d = true ↔ (labelled []).SolelyOwned installed) ∧
      ((live.recordedHash = some d.contentHash ∧ live.carries d = true) ↔
        (labelled []).SolelyOwned installed) := by
  have hb : Component.workerConfig.built installed (labelled []) = .ok labelledBuilt := rfl
  obtain ⟨d, hd⟩ := Component.exists_desired (n := installed) rfl .workerConfig "gpu"
  let m := ((labelledBuilt.recordHash d.contentHash).withVersion "2").metadata
  have hm : m.toJson.WellFormed := by
    refine Json.wellFormed_record (by simp) ?_
    simp [m, labelledBuilt, ManagedObject.recordHash, ManagedObject.withVersion,
      Metadata.withVersion, Dict.insert, Dict.mapValues, Json.textDict, Json.WellFormed,
      Json.WellFormedFields, Json.WellFormedItems, OwnerReference.wellFormed_toJson, appLabel,
      managedByLabel, installed, NodeFeatureDiscovery.ownerReference?]
  let live : ManagedObject := ⟨m, .configMap
    { data := some [(Blueprint.configKey, installed.spec.configData)], immutable := some false }⟩
  have hlive := ManagedObject.extends_config (Json.extends_self _ hm) { immutable := some false }
    Blueprint.configKey installed.spec.configData
  obtain ⟨hbuilt, hwritten⟩ := recognised_iff_solelyOwned rfl rfl hb hd
  exact ⟨d, live, hb, hd, rfl, hlive, hbuilt, hwritten "2" live hlive⟩

/-- With a reference to another owner, which the build keeps, it is not. -/
theorem built_not_recognised :
    ∃ b d, Component.workerConfig.built installed (labelled [nodeReference]) = .ok b ∧
      Component.workerConfig.desired installed "gpu" = .ok d ∧ b.carries d = false :=
  ⟨_, _, rfl, rfl, by decide +kernel⟩

end NodeFeatureOperator
