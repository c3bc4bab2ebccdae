import NodeFeatureOperator.Proofs.LostUpdate

/-!
# Edits of the finalizers

A pass writes the resource in two places, at the beginning of a deployment and at the end of a
teardown. Each time it writes the whole resource as it has read it, but for the list of finalizers,
from which it takes its own one or to which it adds it. The finalizers of others are neither lost
nor moved by this, however often it happens: the store accepts a write only if nobody has written
since the read.

What others do with the finalizers in between is left open. What is said about a whole run takes it
that they leave alone those that are not the operator's, and do not put a second one of the operator
there.

## Main definitions

* `NodeFeatureDiscovery.Edit`: the two edits.
* `NodeFeatureDiscovery.KeepsFinalizers`: the finalizers of others stay, and that of the operator is
  not doubled.

## Main results

* `edit_of_asks`: a pass writes an edit of the resource that it has read.
* `World.Traced.keepsFinalizers`: every call of a pass keeps the finalizers.
* `finalizer_edits_keep_rest`: so does a run, if others do.
-/

namespace NodeFeatureOperator

namespace NodeFeatureDiscovery

/-! ### The two edits -/

/-- The finalizers of others. -/
def foreignFinalizers (n : NodeFeatureDiscovery) : List String :=
  n.finalizers.filter (· != finalizer)

/-- The resource with other finalizers. -/
def withFinalizers (list : List String) (n : NodeFeatureDiscovery) : NodeFeatureDiscovery :=
  { n with metadata := { n.metadata with finalizers := some list } }

/-- The edits of a resource that a pass makes. -/
inductive Edit (n : NodeFeatureDiscovery) : NodeFeatureDiscovery → Prop
  /-- The operator's finalizer is put at the end of a list without it. -/
  | add : n.isDeleting = false → finalizer ∉ n.finalizers →
      Edit n (n.withFinalizers (n.finalizers ++ [finalizer]))
  /-- It is taken out of a list with it, wherever it stands. -/
  | remove : n.isDeleting = true → finalizer ∈ n.finalizers →
      Edit n (n.withFinalizers n.foreignFinalizers)

variable {n n' m : NodeFeatureDiscovery}

@[simp] theorem finalizers_withFinalizers (list : List String) (n : NodeFeatureDiscovery) :
    (n.withFinalizers list).finalizers = list := rfl

/-- Where there is none of the operator's, all finalizers are those of others. -/
theorem foreignFinalizers_of_notMem (h : finalizer ∉ n.finalizers) :
    n.foreignFinalizers = n.finalizers := by
  refine List.filter_eq_self.mpr fun f hf => bne_iff_ne.mpr ?_
  rintro rfl
  exact h hf

/-- Taking the finalizer away leaves those of others. -/
theorem removeFinalizer_eq (h : n.hasFinalizer = true) :
    n.removeFinalizer = n.withFinalizers n.foreignFinalizers := by
  rw [removeFinalizer, withFinalizers, foreignFinalizers, finalizers]
  cases hlist : n.metadata.finalizers with
  | none =>
      rw [hasFinalizer, hlist] at h
      cases h
  | some list => rfl

/-- Adding the finalizer leaves them, too. -/
theorem foreignFinalizers_add (n : NodeFeatureDiscovery) :
    (n.withFinalizers (n.finalizers ++ [finalizer])).foreignFinalizers = n.foreignFinalizers := by
  rw [foreignFinalizers, finalizers_withFinalizers, List.filter_append,
    List.filter_cons_of_neg (by simp), List.filter_nil, List.append_nil, foreignFinalizers]

/-- Adding the finalizer and taking it away again leaves the list as it was, empty if there was
none. -/
theorem removeFinalizer_addFinalizer (h : finalizer ∉ n.finalizers) :
    n.addFinalizer.removeFinalizer = n.withFinalizers n.finalizers := by
  have hforeign : n.addFinalizer.foreignFinalizers = n.foreignFinalizers := foreignFinalizers_add n
  rw [removeFinalizer_eq (hasFinalizer_addFinalizer n), hforeign, foreignFinalizers_of_notMem h]
  rfl

/-! ### What is kept -/

/-- The finalizers of others are the same, in number and order, and there are not two of the
operator's unless there were before. -/
structure KeepsFinalizers (n n' : NodeFeatureDiscovery) : Prop where
  foreign : n'.foreignFinalizers = n.foreignFinalizers
  count_le : n'.finalizers.count finalizer ≤ max 1 (n.finalizers.count finalizer)

/-- The same list is kept. -/
theorem KeepsFinalizers.of_eq (h : n'.metadata.finalizers = n.metadata.finalizers) :
    n.KeepsFinalizers n' := by
  have hsame : n'.finalizers = n.finalizers := congrArg (·.getD []) h
  exact ⟨by rw [foreignFinalizers, hsame, foreignFinalizers], by rw [hsame]; omega⟩

/-- What is kept may be kept again. -/
theorem KeepsFinalizers.trans (h : n.KeepsFinalizers m) (h' : m.KeepsFinalizers n') :
    n.KeepsFinalizers n' := by
  refine ⟨h'.foreign.trans h.foreign, ?_⟩
  have hfirst := h.count_le
  have hsecond := h'.count_le
  omega

/-- An edit is the resource itself but for the finalizers. -/
theorem Edit.eq_withFinalizers (h : n.Edit m) : m = n.withFinalizers m.finalizers := by
  cases h <;> rfl

/-- An edit keeps the finalizers. -/
theorem Edit.keepsFinalizers (h : n.Edit m) : n.KeepsFinalizers m := by
  cases h with
  | add _ hnone =>
      refine ⟨foreignFinalizers_add n, ?_⟩
      rw [finalizers_withFinalizers, List.count_append, List.count_eq_zero.mpr hnone]
      simp
  | remove _ _ =>
      have hnone : n.foreignFinalizers.count finalizer = 0 :=
        List.count_eq_zero.mpr fun hmem => by simpa using (List.mem_filter.mp hmem).2
      refine ⟨?_, ?_⟩
      · rw [foreignFinalizers, finalizers_withFinalizers, foreignFinalizers, List.filter_filter]
        simp
      · rw [finalizers_withFinalizers, hnone]
        exact Nat.zero_le _

end NodeFeatureDiscovery

open NodeFeatureDiscovery (finalizer)

/-- A pass writes an edit of the resource that it has read. -/
theorem edit_of_asks {config : Config} {time : Time} {trigger : Metadata} {t : List Exchange}
    {m : NodeFeatureDiscovery} (h : (reconcile config time trigger).Asks t (.updateResource m)) :
    ∃ ns n rest, trigger.ns = some ns ∧
      t = ⟨.getResource trigger.anyName ns, .ok (some n)⟩ :: rest ∧ n.Edit m := by
  obtain ⟨ns, n, rest, hns, ht, ⟨hdel, hfin, rfl⟩ | ⟨hdel, hfin, rfl⟩⟩ := asks_updateResource h
  · have hnone : finalizer ∉ n.finalizers := by
      rw [← NodeFeatureDiscovery.hasFinalizer_iff, hfin]
      exact Bool.false_ne_true
    exact ⟨ns, n, rest, hns, ht, .add hdel hnone⟩
  · rw [NodeFeatureDiscovery.removeFinalizer_eq hfin]
    exact ⟨ns, n, rest, hns, ht, .remove hdel (NodeFeatureDiscovery.hasFinalizer_iff.mp hfin)⟩

/-! ### The stored resource -/

/-- The resource under a key, if there is one afterwards, was there before, and its finalizers were
kept. -/
def Store.KeepsFinalizers (key : ResourceKey) (s s' : Store) : Prop :=
  ∀ n', s'.resource? key = some n' → ∃ n, s.resource? key = some n ∧ n.KeepsFinalizers n'

section Kept

variable {key : ResourceKey} {s s' s'' : Store}

/-- A resource that stays as it is keeps its finalizers. -/
theorem Store.KeepsFinalizers.of_eq (h : s'.resource? key = s.resource? key) :
    s.KeepsFinalizers key s' :=
  fun n' hn' => ⟨n', h.symm.trans hn', .of_eq rfl⟩

/-- What is kept may be kept again. -/
theorem Store.KeepsFinalizers.trans (h : s.KeepsFinalizers key s')
    (h' : s'.KeepsFinalizers key s'') : s.KeepsFinalizers key s'' := by
  intro n'' hn''
  obtain ⟨n', hn', hlater⟩ := h' n'' hn''
  obtain ⟨n, hn, hearlier⟩ := h n' hn'
  exact ⟨n, hn, hearlier.trans hlater⟩

/-- What a call of a pass does to the resource: its finalizers are kept, and it goes only if it was
being deleted and there is none of others. -/
structure Store.EditedAt (key : ResourceKey) (s s' : Store) : Prop where
  keeps : s.KeepsFinalizers key s'
  goes : s'.resource? key = none → s.resource? key = none ∨
    ∃ n, s.resource? key = some n ∧ n.isDeleting = true ∧ n.foreignFinalizers = []

/-- A resource that stays as it is was not touched. -/
theorem Store.EditedAt.of_eq (h : s'.resource? key = s.resource? key) : s.EditedAt key s' :=
  ⟨.of_eq h, fun hnone => .inl (h.symm.trans hnone)⟩

/-- The write of an edit of what is stored. -/
theorem Store.editedAt_updateResource {n m : NodeFeatureDiscovery} (hn : s.resource? key = some n)
    (hedit : n.Edit m) : s.EditedAt key (s.updateResource m).2 := by
  have hkeeps := hedit.keepsFinalizers
  obtain hsame | ⟨stored, hstored, hafter⟩ := Store.resource?_updateResource m s key
  · exact .of_eq hsame
  obtain rfl := Option.some.inj (hstored.symm.trans hn)
  obtain hwritten | ⟨hreleased, hgone⟩ := hafter
  · refine ⟨fun n' hn' => ⟨stored, hn, ?_⟩, fun hnone => ?_⟩
    · obtain rfl := Option.some.inj (hwritten.symm.trans hn')
      exact hkeeps.trans (.of_eq rfl)
    · cases hwritten.symm.trans hnone
  · refine ⟨fun n' hn' => ?_, fun _ => .inr ⟨stored, hn, ?_⟩⟩
    · cases hgone.symm.trans hn'
    -- it has gone with an empty list, so there was nothing in it that is kept
    rw [Store.isReleased, Bool.and_eq_true, List.isEmpty_iff] at hreleased
    have hempty : m.finalizers = [] := hreleased.2
    refine ⟨hreleased.1, ?_⟩
    rw [← hkeeps.foreign, NodeFeatureDiscovery.foreignFinalizers, hempty]
    rfl

/-- So does the write of a status. -/
theorem Store.editedAt_patchStatus (place : ResourceKey) (conditions : List Condition) (s : Store) :
    s.EditedAt key (s.patchStatus place conditions).2 := by
  obtain hsame | ⟨stored, hstored, hafter⟩ := Store.resource?_patchStatus place conditions s key
  · exact .of_eq hsame
  · refine ⟨fun n' hn' => ⟨stored, hstored, ?_⟩, fun hnone => ?_⟩
    · obtain rfl := Option.some.inj (hafter.symm.trans hn')
      exact .of_eq rfl
    · cases hafter.symm.trans hnone

end Kept

/-! ### A run -/

section Runs

variable {others : Store → Store → Prop} {key : ResourceKey} {w₀ w : World} {p : Attempt}

/-- Every call of a pass keeps the finalizers, however it is answered. -/
theorem World.Traced.editedAt (h : w.Traced key) (hp : w.pass = some p) {call : Call}
    {answer : Except Failure call.Answer} {s' : Store} (hasks : p.Asks call)
    (hserves : w.store.Serves call answer s') : w.store.EditedAt key s' := by
  obtain rfl | rfl := hserves.after
  · exact .of_eq rfl
  cases call with
  | updateResource m =>
      rcases hanswer : w.store.respond (.updateResource m) with ⟨f | n', after⟩
      · exact .of_eq (congrArg (Store.resource? key) (Store.respond_of_error hanswer))
      -- an accepted write replaces what was read, so it is an edit of what is stored
      obtain ⟨stored, t, hpast, -, -, hstored⟩ := h.updateResource_ok hp hasks hanswer
      obtain ⟨ns, n, rest, -, hread, hedit⟩ := edit_of_asks hasks
      obtain ⟨hsame, -⟩ := List.cons.inj (hpast.symm.trans hread)
      obtain ⟨hcall, hfound⟩ := Exchange.mk.inj hsame
      obtain ⟨hname, rfl⟩ := Call.getResource.inj hcall
      rw [← hname] at hfound
      obtain rfl := Option.some.inj (Except.ok.inj (eq_of_heq hfound))
      rw [← hanswer]
      exact Store.editedAt_updateResource hstored hedit
  | patchStatus name ns conditions => exact Store.editedAt_patchStatus _ conditions w.store
  | _ => exact .of_eq (Store.resource?_respond key (by simp) (by simp))

/-- A run keeps the finalizers if the others do. -/
theorem World.Run.keepsFinalizers (hrun : World.Run others key w₀ w) (h₀ : w₀.Traced key)
    (hlater : ∀ s s', others s s' → s.Later s')
    (hothers : ∀ s s', others s s' → s.KeepsFinalizers key s') :
    w₀.store.KeepsFinalizers key w.store := by
  have hinv : w.Traced key ∧ w₀.store.KeepsFinalizers key w.store := by
    refine hrun.invariant (I := fun w => w.Traced key ∧ w₀.store.KeepsFinalizers key w.store)
      ⟨h₀, .of_eq rfl⟩ ?_
    rintro w w' ⟨htraced, hkept⟩ hstep
    refine ⟨htraced.step (hstep.mono hlater), hkept.trans ?_⟩
    cases hstep with
    | begin => exact .of_eq rfl
    | call hp hasks hserves => exact (htraced.editedAt hp hasks hserves).keeps
    | stop => exact .of_eq rfl
    | others h => exact hothers _ _ h
  exact hinv.2

/-- **Edits of the finalizers keep everything else.** In a run of passes among other clients,
whatever these do: every resource that a pass writes is the one that it has read but for its
finalizers, where the operator's was added at the end of a list without it, or was removed from a
list with it. To add it and to remove it again restores the list. On a store that gives every write
a version of its own and checks the version of an update, every call of a pass, however it is
answered, keeps the finalizers of the stored resource. If the others keep them as well, so does the
whole run, and whenever the operator's finalizer is not there, the list is that of the others'
finalizers at the beginning. -/
theorem finalizer_edits_keep_rest (hidle : w₀.pass = none) (hrun : World.Run others key w₀ w) :
    (∀ p m, w.pass = some p → p.Asks (.updateResource m) →
      ∃ n rest, p.past = ⟨.getResource key.name key.ns, .ok (some n)⟩ :: rest ∧ n.Edit m ∧
        m = n.withFinalizers m.finalizers) ∧
    (∀ n : NodeFeatureDiscovery, finalizer ∉ n.finalizers →
      n.addFinalizer.removeFinalizer = n.withFinalizers n.finalizers) ∧
    (w₀.store.Versioned → (∀ s s', others s s' → s.Later s') →
      (∀ p call answer s', w.pass = some p → p.Asks call → w.store.Serves call answer s' →
        w.store.EditedAt key s') ∧
      ((∀ s s', others s s' → s.KeepsFinalizers key s') →
        ∀ n', w.store.resource? key = some n' →
          ∃ n, w₀.store.resource? key = some n ∧ n.KeepsFinalizers n' ∧
            (finalizer ∉ n'.finalizers → n'.finalizers = n.foreignFinalizers))) := by
  have hnamed : w.Named key := hrun.invariant (by simp [World.Named, hidle]) World.Named.step
  refine ⟨fun p m hp hasks => ?_,
    fun n hnone => NodeFeatureDiscovery.removeFinalizer_addFinalizer hnone,
    fun hs hlater => ⟨fun p call answer s' hp hasks hserves => ?_, fun hothers n' hn' => ?_⟩⟩
  · obtain ⟨ns, n, rest, hns, hpast, hedit⟩ := edit_of_asks hasks
    obtain ⟨hname, htrigger⟩ := hnamed p hp
    obtain rfl := Option.some.inj (htrigger.symm.trans hns)
    rw [hname] at hpast
    exact ⟨n, rest, hpast, hedit, hedit.eq_withFinalizers⟩
  · have htraced : w.Traced key := hrun.invariant (.of_idle hs hidle)
      fun h hstep => h.step (hstep.mono hlater)
    exact htraced.editedAt hp hasks hserves
  · obtain ⟨n, hn, hkept⟩ := hrun.keepsFinalizers (.of_idle hs hidle) hlater hothers n' hn'
    refine ⟨n, hn, hkept, fun hnone => ?_⟩
    rw [← hkept.foreign, NodeFeatureDiscovery.foreignFinalizers_of_notMem hnone]

end Runs

/-! ### A deployment among other finalizers -/

/-- A resource that others hold by two finalizers, and whose labels are not to be pruned. -/
def audited : NodeFeatureDiscovery where
  metadata := { name := some "nfd", ns := some "gpu", uid := some "7",
                finalizers := some ["example.com/audit", "example.com/backup"] }
  spec := { pruneOnDelete := false }

/-- The resource as the first pass reads it. -/
def auditedFirst : NodeFeatureDiscovery := audited.withVersion "1"

/-- The resource that the first pass leaves, once its deletion is requested. -/
def auditedLast : NodeFeatureDiscovery :=
  { auditedFirst.addFinalizer with
    metadata := { auditedFirst.addFinalizer.metadata with deletionTimestamp := some ⟨0, 0⟩ } }

/-- What others do that may change anything but the finalizers. -/
def Considerate (s s' : Store) : Prop := s.Later s' ∧ s.KeepsFinalizers audited.key s'

/-- A pass puts the operator's finalizer behind those of others, the deletion of the resource is
requested, and another pass gives the resource up. Then it has the finalizers that it had first. -/
theorem finalizer_edits_keep_rest_audited : ∃ w n', (World.start audited).pass = none ∧
    (World.start audited).store.Versioned ∧ (∀ s s', Considerate s s' → s.Later s') ∧
    (∀ s s', Considerate s s' → s.KeepsFinalizers audited.key s') ∧
    World.Run Considerate audited.key (World.start audited) w ∧
    w.store.resource? audited.key = some n' ∧
    n'.finalizers = ["example.com/audit", "example.com/backup"] := by
  have hversioned : (World.start audited).store.Versioned := Store.later_putResource _ rfl
  obtain ⟨w₁, hrun₁, hidle₁, hn₁⟩ := World.Run.of_first_pass Considerate {} ⟨0, 0⟩
    (w := World.start audited) (n := auditedFirst) rfl rfl rfl (by decide)
  let w₂ : World := { w₁ with store := w₁.store.putResource audited.key auditedLast }
  have hn₂ : w₂.store.resource? audited.key = some (auditedLast.withVersion w₁.store.nextVersion) :=
    Store.resource?_putResource_self _ _ _
  have hkept : w₁.store.KeepsFinalizers audited.key w₂.store := by
    intro n' hn'
    obtain rfl := Option.some.inj (hn₂.symm.trans hn')
    exact ⟨_, hn₁, .of_eq rfl⟩
  have hrun₂ : World.Run Considerate audited.key (World.start audited) w₂ :=
    hrun₁.tail (.others ⟨Store.later_putResource _ rfl, hkept⟩)
  have hheld : Store.isReleased auditedLast.removeFinalizer = false := by decide
  have hfin : auditedLast.hasFinalizer = true := by decide
  obtain ⟨w, version, hrun, -, hn', -⟩ := World.Run.of_release Considerate {} ⟨0, 0⟩ (w := w₂)
    (n := auditedLast.withVersion w₁.store.nextVersion) hidle₁ hn₂ rfl
    ((NodeFeatureDiscovery.hasFinalizer_withVersion _ _).trans hfin) rfl hheld
  have hwhole := hrun₂.trans hrun
  obtain ⟨-, -, hkeeps⟩ := finalizer_edits_keep_rest rfl hwhole
  obtain ⟨n, hn, -, hrestored⟩ := (hkeeps hversioned fun _ _ h => h.1).2 (fun _ _ h => h.2) _ hn'
  obtain rfl : auditedFirst = n := Option.some.inj hn
  have hnone : finalizer ∉ (auditedLast.removeFinalizer.withVersion version).finalizers := by
    rw [← NodeFeatureDiscovery.hasFinalizer_iff, NodeFeatureDiscovery.hasFinalizer_withVersion,
      NodeFeatureDiscovery.hasFinalizer_removeFinalizer]
    exact Bool.false_ne_true
  exact ⟨w, _, rfl, hversioned, fun _ _ h => h.1, fun _ _ h => h.2, hwhole, hn',
    (hrestored hnone).trans (by decide)⟩

end NodeFeatureOperator
