import NodeFeatureOperator.Proofs.Build
import NodeFeatureOperator.Proofs.Store
import NodeFeatureOperator.Proofs.Trace
import NodeFeatureOperator.Reconcile.Converge

/-!
# Traces of convergence

Convergence of a component looks its object up and then makes at most one write: it creates the
object built from scratch, or replaces the one that was found by a build onto that.

## Main results

* `Component.asks_converge`: the calls, and what was answered before each.
* `Component.desired_key`: an object built from scratch names the place of its component.
-/

namespace NodeFeatureOperator

/-- The place that an object names does not depend on the digest recorded on it. -/
@[simp] theorem ManagedObject.key_recordHash (hash : String) (o : ManagedObject) :
    (o.recordHash hash).key = o.key := rfl

/-- Nor does its content. -/
@[simp] theorem ManagedObject.content_recordHash (hash : String) (o : ManagedObject) :
    (o.recordHash hash).content = o.content := rfl

/-- The digest recorded on an object is the last one. -/
@[simp] theorem ManagedObject.recordedHash_recordHash (hash : String) (o : ManagedObject) :
    (o.recordHash hash).recordedHash = some hash :=
  Dict.find?_insert_self hashAnnotation hash _

namespace Component

variable {c : Component} {n : NodeFeatureDiscovery} {ns : String}

/-- A build onto an object of the names of the component's place names that place. -/
theorem built_key_of_names {o b : ManagedObject} (h : c.built n o = .ok b)
    (ho : (c.place ns).Names o) : b.key = c.place ns := by
  obtain ⟨hkind, hname, hns⟩ := built_identity h
  obtain ⟨hns', hname'⟩ := ho
  simp only [ManagedObject.key, place, hkind, hname, hns, hns', hname']

/-- A build onto the object at the component's place names that place. -/
theorem built_key {o b : ManagedObject} (h : c.built n o = .ok b) (ho : o.key = c.place ns) :
    b.key = c.place ns := by
  obtain ⟨-, hns, hname⟩ := ObjectKey.mk.inj ho
  exact built_key_of_names h ⟨hns, hname⟩

/-- A build from scratch names the place of the component. -/
theorem desired_key {o : ManagedObject} (h : c.desired n ns = .ok o) : o.key = c.place ns := by
  refine built_key h ?_
  cases c <;> rfl

/-- Convergence asks for the object, and then for one write at most: the creation of an object that
does not exist, or the replacement of one that does not yet carry what the build gives. -/
theorem asks_converge {t : List Exchange} {call : Call} (h : (c.converge n ns).Asks t call) :
    ∃ desired, c.desired n ns = .ok desired ∧
      ((t = [] ∧ call = .get c.kind c.name ns) ∨
        (t = [found ns c none] ∧ call = .create (desired.recordHash desired.contentHash)) ∨
        ∃ live built, t = [found ns c (some live)] ∧ c.built n live = .ok built ∧
          ¬ (live.recordedHash = some desired.contentHash ∧ live.carries desired = true) ∧
          built.recordHash desired.contentHash ≠ live ∧
          call = .update (built.recordHash desired.contentHash)) := by
  simp only [converge, Program.bind_eq, Program.asks_bind_iff, Program.pure_eq,
    Program.not_asks_done, and_false, exists_false, or_false] at h
  rw [convergeCore] at h
  split at h
  · simp at h
  next desired hdesired =>
    refine ⟨desired, hdesired, ?_⟩
    simp only [Program.bind_eq, Program.request, Program.bind, Program.asks_call_iff] at h
    obtain ⟨rfl, rfl⟩ | ⟨answer, rest, rfl, h⟩ := h
    · exact .inl ⟨rfl, rfl⟩
    rcases answer with f | _ | live
    · simp at h
    · simp only [createWith, Program.bind_eq, Program.request, Program.bind,
        Program.asks_call_iff] at h
      obtain ⟨rfl, rfl⟩ | ⟨created, rest, rfl, h⟩ := h
      · exact .inr (.inl ⟨rfl, rfl⟩)
      · cases created <;> simp at h
    · dsimp only at h
      split at h
      · simp at h
      next hstale =>
        rw [rebuild] at h
        split at h
        · simp at h
        next built hbuilt =>
          dsimp only at h
          split at h
          · simp at h
          next hchanged =>
            simp only [Program.bind_eq, Program.request, Program.bind,
              Program.asks_call_iff] at h
            obtain ⟨rfl, rfl⟩ | ⟨updated, rest, rfl, h⟩ := h
            · exact .inr (.inr ⟨live, built, rfl, hbuilt, hstale, hchanged, rfl⟩)
            · cases updated <;> simp at h

/-- Convergence gives up on a component that cannot be looked up. -/
theorem ends_settle_refused {desired : ManagedObject} (h : c.desired n ns = .ok desired)
    (f : Failure) : (c.settle n ns).Ends [⟨.get c.kind c.name ns, .error f⟩]
      (.error (c.failure ns f)) := by
  rw [settle, converge, convergeCore, h]
  exact .call (.done _)

/-- Convergence creates a component that does not exist. -/
theorem asks_settle_create {desired : ManagedObject} (h : c.desired n ns = .ok desired) :
    (c.settle n ns).Asks [found ns c none] (.create (desired.recordHash desired.contentHash)) := by
  rw [settle, converge, convergeCore, h]
  exact .call (.here _ _)

/-- Convergence replaces a component whose object has another digest recorded on it, or none. -/
theorem asks_settle_update {desired live built : ManagedObject}
    (h : c.desired n ns = .ok desired) (hbuilt : c.built n live = .ok built)
    (hstale : live.recordedHash ≠ some desired.contentHash) :
    (c.settle n ns).Asks [found ns c (some live)]
      (.update (built.recordHash desired.contentHash)) := by
  -- the update records the digest, so that it does change the object
  have hchanged : built.recordHash desired.contentHash ≠ live := by
    rintro rfl
    exact hstale (ManagedObject.recordedHash_recordHash _ _)
  rw [settle, converge, convergeCore, h]
  refine .call ?_
  dsimp only [Program.bind]
  rw [if_neg fun hfresh => hstale hfresh.1, rebuild, hbuilt]
  dsimp only
  rw [if_neg hchanged]
  exact .here _ _

end Component

end NodeFeatureOperator
