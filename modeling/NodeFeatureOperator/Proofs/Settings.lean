import NodeFeatureOperator.Proofs.Settled

/-!
# What each component depends on

A component reads some settings of the desired state and no others, and a build writes the same
wherever these agree. Conversely, if two desired states give the same object from scratch, then they
give the same when built onto any object, since what is written does not depend on the object.

## Main definitions

* `Component.SameSettings`: two desired states agree on what a component reads.

## Main results

* `Component.built_of_sameSettings`: a component is built the same where its settings are the same.
* `Component.built_of_desired_eq`: so it is where the same is built from scratch.
* `Component.Settled.of_desired_eq`: and then it stays settled.
-/

namespace NodeFeatureOperator

/-- The settings of every container: the image, with its default, and how it is pulled. -/
def Spec.SameImage (s s' : Spec) : Prop :=
  s.operand.effectiveImage = s'.operand.effectiveImage ∧
    s.operand.pullPolicy = s'.operand.pullPolicy

/-- The filter of labels, where it is not blank. -/
def Spec.whiteList? (s : Spec) : Option String := s.labelWhiteList.filter fun f => !Text.isBlank f

namespace Component

/-- Two desired states agree on the settings that a component reads. -/
def SameSettings : Component → Spec → Spec → Prop
  | .workerConfig, s, s' => s.configData = s'.configData
  | .worker, s, s' => s.SameImage s' ∧ s.workerTolerations = s'.workerTolerations
  | .master, s, s' =>
    s.SameImage s' ∧ s.operand.port = s'.operand.port ∧ s.extraLabelNs = s'.extraLabelNs ∧
      s.resourceLabels = s'.resourceLabels ∧ s.whiteList? = s'.whiteList? ∧
      s.enableTaints = s'.enableTaints ∧ s.tolerations = s'.tolerations
  | .collector, s, s' => s.SameImage s'
  | .topologyUpdater, s, s' => s.SameImage s'
  | .prune, s, s' => s.SameImage s' ∧ s.tolerations = s'.tolerations

/-- Only the worker's configuration reads its text, and no component whether the topology updater or
pruning is asked for. -/
theorem sameSettings_of_ne_workerConfig {c : Component} (hc : c ≠ .workerConfig) (s : Spec)
    (text : String) (topology prune : Bool) :
    c.SameSettings
      { s with configData := text, topologyUpdater := topology, pruneOnDelete := prune } s := by
  cases c with
  | workerConfig => exact absurd rfl hc
  | worker => exact ⟨⟨rfl, rfl⟩, rfl⟩
  | master => exact ⟨⟨rfl, rfl⟩, rfl, rfl, rfl, rfl, rfl, rfl⟩
  | collector => exact ⟨rfl, rfl⟩
  | topologyUpdater => exact ⟨rfl, rfl⟩
  | prune => exact ⟨⟨rfl, rfl⟩, rfl⟩

end Component

namespace Blueprint

variable {s s' : Spec}

/-- A container reads the settings of every container. -/
theorem container_congr (h : s.SameImage s') : container s = container s' := by
  obtain ⟨himage, hpull⟩ := h
  funext name program arguments ports security mounts
  simp only [container, himage, hpull]

/-- The flag of the label filter reads the filter where it is not blank. -/
theorem whiteListFlag_eq (s : Spec) :
    whiteListFlag s.labelWhiteList = s.whiteList?.toList.map ("--label-whitelist=" ++ ·) := by
  rw [Spec.whiteList?]
  cases hfilter : s.labelWhiteList with
  | none => rfl
  | some filter =>
      cases hblank : Text.isBlank filter <;> simp [whiteListFlag, Option.filter, hblank]

/-- The worker reads these settings, and tolerations of its own. -/
theorem worker_congr (h : Component.worker.SameSettings s s') : worker s = worker s' := by
  obtain ⟨himage, htolerations⟩ := h
  simp only [worker, container_congr himage, Pod.workerTolerations, htolerations]

/-- The master reads these settings, those of its command line, and the tolerations. -/
theorem master_congr (h : Component.master.SameSettings s s') : master s = master s' := by
  obtain ⟨himage, hport, hns, hlabels, hfilter, htaints, htolerations⟩ := h
  have harguments : masterArguments s = masterArguments s' := by
    simp only [masterArguments, whiteListFlag_eq, hport, hns, hlabels, hfilter, htaints]
  simp only [master, container_congr himage, harguments, Pod.controlPlaneTolerations, hport,
    htolerations]

/-- The collector reads these settings only. -/
theorem collector_congr (h : s.SameImage s') : collector s = collector s' := by
  simp only [collector, container_congr h]

/-- So does the topology updater. -/
theorem topologyUpdater_congr (h : s.SameImage s') : topologyUpdater s = topologyUpdater s' := by
  simp only [topologyUpdater, container_congr h]

/-- The prune Job reads these settings, and the tolerations. -/
theorem prune_congr (h : Component.prune.SameSettings s s') : prune s = prune s' := by
  obtain ⟨himage, htolerations⟩ := h
  simp only [prune, container_congr himage, Pod.controlPlaneTolerations, htolerations]

end Blueprint

namespace Component

variable {c : Component} {n n' : NodeFeatureDiscovery} {ns : String} {s s' : Spec} {st : Store}

/-- A component is filled the same where its settings are the same. -/
theorem fill_of_sameSettings (h : c.SameSettings s s') (x : Content) :
    c.fill s x = c.fill s' x := by
  cases c with
  | workerConfig =>
      have hdata : s.configData = s'.configData := h
      cases x <;> simp [fill, hdata]
  | worker => cases x <;> simp [fill, Blueprint.worker_congr h]
  | master => cases x <;> simp [fill, Blueprint.master_congr h]
  | collector => cases x <;> simp [fill, Blueprint.collector_congr h]
  | topologyUpdater => cases x <;> simp [fill, Blueprint.topologyUpdater_congr h]
  | prune => cases x <;> simp [fill, Blueprint.prune_congr h]

/-- Of the resource a build reads what fills its content and what identifies the owner. -/
theorem built_of_fill_eq (hfill : ∀ x, c.fill n'.spec x = c.fill n.spec x)
    (href : n'.ownerReference? = n.ownerReference?) (o : ManagedObject) :
    c.built n' o = c.built n o := by
  simp only [built, buildOnto, Metadata.controlledBy, hfill, href]

/-- A component is built the same where its settings are the same. -/
theorem built_of_sameSettings (h : c.SameSettings n'.spec n.spec)
    (href : n'.ownerReference? = n.ownerReference?) (o : ManagedObject) :
    c.built n' o = c.built n o :=
  built_of_fill_eq (fill_of_sameSettings h) href o

/-- Desired states that fill an empty object the same fill every object the same. -/
theorem fill_of_empty (h : c.fill s (ManagedObject.emptyContent c.kind) =
    c.fill s' (ManagedObject.emptyContent c.kind)) (x : Content) : c.fill s x = c.fill s' x := by
  cases c <;> cases x <;> simp_all [fill, ManagedObject.emptyContent, kind]

/-- A component is built the same onto any object where the same is built from scratch. -/
theorem built_of_desired_eq {desired : ManagedObject} (h : c.desired n ns = .ok desired)
    (h' : c.desired n' ns = .ok desired) (href : n'.ownerReference? = n.ownerReference?)
    (o : ManagedObject) : c.built n' o = c.built n o := by
  obtain ⟨content, ref, hfill, -, -, rfl⟩ := built_eq_ok_iff.mp h
  obtain ⟨content', ref', hfill', -, -, heq⟩ := built_eq_ok_iff.mp h'
  have hcontent : content = content' := congrArg ManagedObject.content heq
  exact built_of_fill_eq (fill_of_empty (hfill'.trans (hcontent ▸ hfill.symm))) href o

/-- A settled component is settled for another desired state that gives the same from scratch. -/
theorem Settled.of_desired_eq (h : c.Settled n ns st) (heq : c.desired n' ns = c.desired n ns)
    (href : n'.ownerReference? = n.ownerReference?) : c.Settled n' ns st := by
  obtain ⟨desired, live, hdesired, hlive, hexit⟩ := h
  refine ⟨desired, live, heq.trans hdesired, hlive, ?_⟩
  rwa [built_of_desired_eq hdesired (heq.trans hdesired) href live]

end Component

end NodeFeatureOperator
