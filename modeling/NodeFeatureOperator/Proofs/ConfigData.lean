import NodeFeatureOperator.Proofs.Repair
import NodeFeatureOperator.Proofs.Rollout

/-!
# The data of the worker's configuration

A build replaces the data of the worker's configuration: they have one key, under which lies what
the desired state says. The comparison with a live configuration is more lenient. Further keys do
not count, and a key that is missing stands for an empty text. So data edited in one of these two
ways are let pass while digest and metadata are as they were, and what convergence leaves is exactly
what the desired state says unless they were.

## Main definitions

* `DataPass`: data that are let pass.
* `ConfigOverlooked`: the live configuration has such data, and not those of the desired state.

## Main results

* `ManagedObject.carries_config_iff`: when a live configuration carries the desired one.
* `config_data_exact_iff`: when the stored data are those of the desired state.
-/

namespace NodeFeatureOperator

/-- Data that are let pass for a configuration with a value: the value lies under its key, or
nothing does and the value is empty. -/
def DataPass (value : String) (data : Dict String) : Prop :=
  Dict.find? Blueprint.configKey data = some value ∨
    (Dict.find? Blueprint.configKey data = none ∧ value = "")

/-! ### Live configurations -/

section Coverage

variable {live desired : ManagedObject} {x : ConfigContent} {value : String}

/-- Data cover those of one entry exactly if they are let pass. -/
theorem covers_data_iff {data : Dict String} :
    (Json.textDict data).covers (.textDict [(Blueprint.configKey, value)]) = true ↔
      DataPass value data := by
  have hfields : (Json.textDict data).covers (.textDict [(Blueprint.configKey, value)]) =
      Json.coversFields (Dict.mapValues .str data) [(Blueprint.configKey, .str value)] := by
    simp only [Json.textDict, Dict.mapValues, List.map_cons, List.map_nil, Json.covers]
  rw [hfields, Json.coversFields_iff, List.forall_mem_singleton, Dict.find?_mapValues, DataPass]
  cases Dict.find? Blueprint.configKey data with
  | none => simp [Json.isZero]
  | some l => simp [Json.covers, Json.sameScalar]

/-- A live configuration carries the desired one exactly if it has data that are let pass, and its
metadata cover the desired ones. -/
theorem ManagedObject.carries_config_iff (hlive : live.content = .configMap x)
    (hdesired : desired.content = .configMap { data := some [(Blueprint.configKey, value)] }) :
    live.carries desired = true ↔
      (∃ data, x.data = some data ∧ DataPass value data) ∧
        live.metadata.toJson.covers desired.metadata.toJson = true := by
  obtain ⟨m, content⟩ := live
  obtain ⟨m', content'⟩ := desired
  obtain rfl : content = .configMap x := hlive
  obtain rfl : content' = .configMap { data := some [(Blueprint.configKey, value)] } := hdesired
  have hdata : Json.FieldCovers (x.data.map .textDict) (.textDict [(Blueprint.configKey, value)]) ↔
      ∃ data, x.data = some data ∧ DataPass value data := by
    cases x.data with
    | none => simp [Json.textDict, Dict.mapValues, Json.isZero]
    | some data => simp [covers_data_iff]
  rw [carries, toJson, toJson]
  dsimp only [kind, Content.kind]
  rw [Json.covers_record_iff_forall₂ (by simp) (by simp)]
  simp [hdata, Json.covers, Json.sameScalar]

end Coverage

/-! ### What is stored -/

section Stored

variable {n : NodeFeatureDiscovery} {ns : String} {s s' : Store}

/-- The live configuration bears the digest and the metadata of the desired one, and other data than
that, which are let pass. -/
def ConfigOverlooked (n : NodeFeatureDiscovery) (ns : String) (s : Store) : Prop :=
  ∃ desired live x data, Component.workerConfig.desired n ns = .ok desired ∧
    s.object? (Component.workerConfig.place ns) = some live ∧
    live.recordedHash = some desired.contentHash ∧
    live.metadata.toJson.covers desired.metadata.toJson = true ∧
    live.content = .configMap x ∧ x.data = some data ∧ DataPass n.spec.configData data ∧
    data ≠ [(Blueprint.configKey, n.spec.configData)]

/-- The desired configuration has the data of the desired state. -/
theorem content_of_desired_config {desired : ManagedObject}
    (h : Component.workerConfig.desired n ns = .ok desired) :
    desired.content =
      .configMap { data := some [(Blueprint.configKey, n.spec.configData)] } := by
  obtain ⟨content, ref, hfill, -, -, rfl⟩ := Component.built_eq_ok_iff.mp h
  exact (Option.some.inj hfill).symm

/-- **The worker's configuration is what the desired state says**, exactly if it was not overlooked.
On a store that gives back what was written, after the configuration was ensured without a failure,
whatever lay at its place before, the stored data have one key, with the text of the desired state
under it. The one exception are data with further keys, or without the key where the text is empty,
on an object that bears digest and metadata of the desired one: these stay. -/
theorem config_data_exact_iff (h : Component.workerConfig.Ensured n ns s s') (hs : s.Coherent) :
    ∃ o x, s'.object? (Component.workerConfig.place ns) = some o ∧ o.content = .configMap x ∧
      (x.data = some [(Blueprint.configKey, n.spec.configData)] ↔ ¬ ConfigOverlooked n ns s) := by
  obtain ⟨o, ho, ⟨live, hlive, hrecognises, hsame⟩ | ⟨hstale, hfill⟩⟩ := h.exists_object hs
  · have hcontent : o.content = live.content := by
      simpa using congrArg ManagedObject.content hsame
    obtain ⟨x, hx⟩ : ∃ x, live.content = .configMap x := by
      have hkind : live.content.kind = .configMap := (ObjectKey.mk.inj (hs _ _ hlive)).1
      cases hx : live.content with
      | configMap x => exact ⟨x, rfl⟩
      | _ =>
          rw [hx] at hkind
          cases hkind
    obtain ⟨desired, hdesired, hhash, hcarries⟩ := hrecognises
    obtain ⟨⟨data, hdata, hpass⟩, hmetadata⟩ :=
      (ManagedObject.carries_config_iff hx (content_of_desired_config hdesired)).mp hcarries
    refine ⟨o, x, ho, hcontent.trans hx, ?_⟩
    constructor
    · rintro hexact ⟨_, live', x', data', -, hlive', -, -, hx', hdata', -, hne⟩
      obtain rfl := Option.some.inj (hlive.symm.trans hlive')
      obtain rfl := Content.configMap.inj (hx.symm.trans hx')
      exact hne (Option.some.inj (hdata'.symm.trans hexact))
    · intro hnot
      by_contra hne
      refine hnot ⟨desired, live, x, data, hdesired, hlive, hhash, hmetadata, hx, hdata, hpass, ?_⟩
      rintro rfl
      exact hne hdata
  · obtain ⟨x, hx, hdata⟩ := Component.exists_config_of_fill hfill
    refine ⟨o, x, ho, hx, iff_of_true hdata ?_⟩
    rintro ⟨desired, live, x', data, hdesired, hlive, hhash, hmetadata, hx', hdata', hpass, -⟩
    have hcarries :=
      (ManagedObject.carries_config_iff hx' (content_of_desired_config hdesired)).mpr
        ⟨⟨data, hdata', hpass⟩, hmetadata⟩
    exact hstale live hlive ⟨desired, hdesired, hhash, hcarries⟩

end Stored

/-! ### Edits of the data -/

/-- A configuration of others, with data of their own, is given the data of the desired state. -/
theorem config_data_exact_iff_occupied :
    ∃ outcome s' o x, Store.occupied.Coherent ∧
      (Component.workerConfig.converge installed "gpu").run Store.respond Store.occupied
        (Duration.ofSeconds 0) = (.ok outcome, s', Duration.ofSeconds 0) ∧
      s'.object? (Component.workerConfig.place "gpu") = some o ∧ o.content = .configMap x ∧
      x.data = some [(Blueprint.configKey, installed.spec.configData)] := by
  have hs : Store.occupied.Coherent := Store.coherent_occupied
  have hclaimable : Component.workerConfig.Claimable installed "gpu" Store.occupied := by
    refine ⟨_, rfl, fun live hlive => ?_⟩
    obtain rfl := Option.some.inj hlive
    decide
  obtain ⟨outcome, s', hrun⟩ := (Component.exists_ensured_iff hs (Duration.ofSeconds 0)).mpr
    hclaimable
  obtain ⟨o, x, ho, hx, hexact⟩ := config_data_exact_iff (.alone hrun) hs
  refine ⟨outcome, s', o, x, hs, hrun, ho, hx, hexact.mpr ?_⟩
  -- no digest is recorded on the live object
  rintro ⟨desired, live, -, -, -, hlive, hhash, -⟩
  obtain rfl := Option.some.inj hlive
  cases hhash

/-- For a resource without a configuration text, the configuration is written and then edited: its
key is removed, and another one is added. Convergence leaves that. -/
theorem edited_config_left :
    ∃ desired s live, Component.workerConfig.desired minimal "gpu" = .ok desired ∧
      s = ({} : Store).putObject (Component.workerConfig.place "gpu")
        { desired.recordHash desired.contentHash with
          content := .configMap { data := some [("other", "x")] } } ∧
      s.Coherent ∧
      (Component.workerConfig.converge minimal "gpu").run Store.respond s
        (Duration.ofSeconds 0) = (.ok .unchanged, s, Duration.ofSeconds 0) ∧
      s.object? (Component.workerConfig.place "gpu") = some live ∧
      live.content = .configMap { data := some [("other", "x")] } ∧
      some [("other", "x")] ≠ some [(Blueprint.configKey, minimal.spec.configData)] := by
  let desired : ManagedObject :=
    ⟨(((Component.workerConfig.emptyObject "gpu").metadata.withLabels "nfd-worker").withOwner
      (installedReference (some true))),
      .configMap { data := some [(Blueprint.configKey, "")] }⟩
  let edited : ManagedObject := { desired.recordHash desired.contentHash with
    content := .configMap { data := some [("other", "x")] } }
  have hdesired : Component.workerConfig.desired minimal "gpu" = .ok desired := rfl
  have hs : (({} : Store).putObject (Component.workerConfig.place "gpu") edited).Coherent :=
    (Store.coherent_of_empty rfl).putObject rfl
  have hcarries : (edited.withVersion "1").carries desired = true :=
    (ManagedObject.carries_config_iff rfl rfl).mpr
      ⟨⟨[("other", "x")], rfl, .inr ⟨by decide, rfl⟩⟩, by decide⟩
  have hrecognises : Component.workerConfig.Recognises minimal "gpu" (edited.withVersion "1") :=
    ⟨desired, hdesired, ManagedObject.recordedHash_recordHash _ _, hcarries⟩
  exact ⟨desired, _, _, hdesired, rfl, hs,
    Component.run_converge_of_recognises hs rfl hrecognises _, rfl, rfl, by decide⟩

end NodeFeatureOperator
