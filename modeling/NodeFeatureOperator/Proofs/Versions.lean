import NodeFeatureOperator.Proofs.World

/-!
# Versions of what is stored

Every write gives what it stores a version that was not given out before, and the number of writes
tells which ones were. So from the contents of a store at two times, and its two numbers of writes,
follows what a version is good for: an entry that bears the version of an earlier one is that entry,
and it was there all the time in between.

## Main definitions

* `Store.Issued`: the versions that a store gives out between two numbers of writes.
* `Store.Later`: what a store may turn into by any writes and removals.
* `Store.Versioned`: what has come of the empty store that way.

## Main results

* `Store.later_respond`, `Store.Serves.later`: calls are such writes and removals.
* `Store.Renewed.eq_of_version`: of one version there is one entry.
* `Store.Renewed.before`: an entry that is there again was there all along.
-/

namespace NodeFeatureOperator

namespace Store

/-! ### Entries and their versions -/

/-- A version that a store gives out after `lo` writes and by the time of `hi`. -/
def Issued (lo hi : Nat) (version : Option String) : Prop :=
  ∃ k, lo < k ∧ k ≤ hi ∧ version = some (toString k)

/-- A version that was given out before some time is not given out after it. -/
theorem Issued.not_later {lo mid mid' hi : Nat} {version : Option String}
    (h : Issued lo mid version) (hmid : mid ≤ mid') : ¬ Issued mid' hi version := by
  rintro ⟨k', hk', -, rfl⟩
  obtain ⟨k, -, hk, hversion⟩ := h
  -- numbers with the same text have the same digits
  have hdigits : Nat.toDigits 10 k' = Nat.toDigits 10 k := by
    rw [← Nat.toList_repr, ← Nat.toList_repr]
    exact congrArg String.toList (Option.some.inj hversion)
  have heq : k' = k := by
    calc
      k' = Nat.ofDigitChars 10 (Nat.toDigits 10 k') 0 := Nat.ofDigitChars_ten_toDigits.symm
      _ = Nat.ofDigitChars 10 (Nat.toDigits 10 k) 0 := by rw [hdigits]
      _ = k := Nat.ofDigitChars_ten_toDigits
  omega

section Renewed

variable {κ α : Type} {place : α → κ} {version : α → Option String} {lo mid hi : Nat}
  {old now new : κ → Option α} {key : κ} {a a' : α}

/-- How the entries of a store may be renewed while it makes the writes after `lo` up to `hi`: an
entry was there before, or it lies at the place that it names and bears a version given out
meanwhile. Entries may go besides. -/
def Renewed (place : α → κ) (version : α → Option String) (lo hi : Nat) (old new : κ → Option α) :
    Prop :=
  ∀ key a, new key = some a → old key = some a ∨ (place a = key ∧ Issued lo hi (version a))

/-- Nothing has to be renewed. -/
theorem Renewed.refl (old : κ → Option α) : Renewed place version lo hi old old :=
  fun _ _ h => .inl h

/-- Entries may be renewed again. -/
theorem Renewed.trans (h : Renewed place version lo mid old now)
    (h' : Renewed place version mid hi now new) (hlo : lo ≤ mid) (hhi : mid ≤ hi) :
    Renewed place version lo hi old new := by
  intro key a ha
  obtain hnow | ⟨hplace, k, hk, hle, hversion⟩ := h' key a ha
  · obtain hold | ⟨hplace, k, hk, hle, hversion⟩ := h key a hnow
    · exact .inl hold
    · exact .inr ⟨hplace, k, hk, by omega, hversion⟩
  · exact .inr ⟨hplace, k, by omega, hle, hversion⟩

/-- An entry that bears the version of an earlier one is that entry. -/
theorem Renewed.eq_of_version (hold : Renewed place version 0 lo (fun _ => none) old)
    (h : Renewed place version lo hi old new) (ha : old key = some a) (ha' : new key = some a')
    (hversion : version a' = version a) : a' = a := by
  obtain hbefore | ⟨-, hissued⟩ := h key a' ha'
  · exact Option.some.inj (hbefore.symm.trans ha)
  · obtain hnone | ⟨-, hfirst⟩ := hold key a ha
    · cases hnone
    · rw [hversion] at hissued
      exact absurd hissued (hfirst.not_later (Nat.le_refl lo))

/-- An entry of an earlier time that is there at a later one was there in between. -/
theorem Renewed.before (hold : Renewed place version 0 lo (fun _ => none) old)
    (h : Renewed place version mid hi now new) (hmid : lo ≤ mid) (ha : old key = some a)
    (ha' : new key = some a) : now key = some a := by
  obtain hnow | ⟨-, hissued⟩ := h key a ha'
  · exact hnow
  · obtain hnone | ⟨-, hfirst⟩ := hold key a ha
    · cases hnone
    · exact absurd hissued (hfirst.not_later hmid)

end Renewed

/-! ### Stores and what becomes of them -/

/-- What a store may turn into: resources and objects are renewed, each under its own key and with a
version of its own, or go. -/
structure Later (s s' : Store) : Prop where
  revision : s.revision ≤ s'.revision
  objects : Renewed ManagedObject.key (·.metadata.resourceVersion) s.revision s'.revision
    (fun key => s.object? key) (fun key => s'.object? key)
  resources : Renewed NodeFeatureDiscovery.key (·.metadata.resourceVersion) s.revision s'.revision
    (fun key => s.resource? key) (fun key => s'.resource? key)

/-- A store in which every resource and every object lies under its own key and bears a version that
the store has given out: what an empty store may turn into. -/
abbrev Versioned (s : Store) : Prop := Later {} s

variable {s s' s'' : Store} {key : ObjectKey} {o : ManagedObject}

/-- A store may stay as it is. -/
theorem Later.refl (s : Store) : s.Later s := ⟨Nat.le_refl _, .refl _, .refl _⟩

/-- A store may go on changing. -/
theorem Later.trans (h : s.Later s') (h' : s'.Later s'') : s.Later s'' where
  revision := Nat.le_trans h.revision h'.revision
  objects := h.objects.trans h'.objects h.revision h'.revision
  resources := h.resources.trans h'.resources h.revision h'.revision

/-- The next version is given out by the next write. -/
theorem issued_nextVersion (s : Store) :
    Issued s.revision (s.revision + 1) (some s.nextVersion) :=
  ⟨s.revision + 1, Nat.lt_succ_self _, Nat.le_refl _, rfl⟩

/-- An object may be written under its own key. -/
theorem later_putObject (s : Store) (ho : o.key = key) : s.Later (s.putObject key o) where
  revision := Nat.le_succ _
  resources := .refl _
  objects k a ha := by
    by_cases hk : k = key
    · subst hk
      obtain rfl := Option.some.inj ((object?_putObject_self k o s).symm.trans ha)
      exact .inr ⟨ho, s.issued_nextVersion⟩
    · exact .inl ((object?_putObject_of_ne o s hk).symm.trans ha)

/-- An object may be removed. -/
theorem later_dropObject (s : Store) (key : ObjectKey) : s.Later (s.dropObject key) where
  revision := Nat.le_refl _
  resources := .refl _
  objects k a ha := by
    by_cases hk : k = key
    · subst hk
      cases (object?_dropObject_self k s).symm.trans ha
    · exact .inl ((object?_dropObject_of_ne s hk).symm.trans ha)

/-- A resource may be written under its own key. -/
theorem later_putResource {key : ResourceKey} {n : NodeFeatureDiscovery} (s : Store)
    (hn : n.key = key) : s.Later (s.putResource key n) where
  revision := Nat.le_succ _
  objects := .refl _
  resources k a ha := by
    by_cases hk : k = key
    · subst hk
      obtain rfl := Option.some.inj ((resource?_putResource_self k n s).symm.trans ha)
      exact .inr ⟨hn, s.issued_nextVersion⟩
    · exact .inl ((resource?_putResource_of_ne n s hk).symm.trans ha)

/-- A resource may be removed. -/
theorem later_eraseResource (s : Store) (key : ResourceKey) :
    s.Later { s with resources := Table.erase key s.resources } where
  revision := Nat.le_refl _
  objects := .refl _
  resources k a ha := by
    by_cases hk : k = key
    · subst hk
      cases (Table.find?_erase_self k s.resources).symm.trans ha
    · exact .inl ((Table.find?_erase_of_ne s.resources hk).symm.trans ha)

/-- Resources of a versioned store lie under their own keys. -/
theorem Later.resource_key {k : ResourceKey} {n : NodeFeatureDiscovery} (hs : s.Versioned)
    (hn : s.resource? k = some n) : n.key = k := by
  obtain hnone | ⟨hkey, -⟩ := hs.resources k n hn
  · cases hnone
  · exact hkey

/-- Objects of a versioned store lie under their own keys. -/
theorem Later.object_key (hs : s.Versioned) (ho : s.object? key = some o) : o.key = key := by
  obtain hnone | ⟨hkey, -⟩ := hs.objects key o ho
  · cases hnone
  · exact hkey

/-! ### Calls -/

/-- An update of a resource is a write under its own key, or a removal. -/
theorem later_updateResource (hs : s.Versioned) (n : NodeFeatureDiscovery) :
    s.Later (s.updateResource n).2 := by
  rw [updateResource]
  split
  · exact .refl s
  next stored hstored =>
    have hkey : stored.key = n.key := hs.resource_key hstored
    split
    · have hput := s.later_putResource (n := replaced n stored) hkey
      dsimp only
      split
      · exact hput.trans (later_eraseResource _ _)
      · exact hput
    · exact .refl s

/-- Whatever a call does is a write under an own key, or a removal. -/
theorem later_respond (hs : s.Versioned) (call : Call) : s.Later (s.respond call).2 := by
  cases call with
  | getResource name ns => exact .refl s
  | updateResource n => exact later_updateResource hs n
  | patchStatus name ns conditions =>
      simp only [respond, patchStatus]
      split
      · exact .refl s
      next stored hstored =>
        have hkey : stored.key = ⟨ns, name⟩ := hs.resource_key hstored
        exact s.later_putResource hkey
  | get kind name ns => exact .refl s
  | create o =>
      simp only [respond, create]
      split
      · exact .refl s
      · exact s.later_putObject rfl
  | update o =>
      simp only [respond, update]
      split
      · exact .refl s
      · split
        · exact s.later_putObject rfl
        · exact .refl s
  | delete kind name ns => exact s.later_dropObject _

/-- So is whatever comes of a call that may go wrong. -/
theorem Serves.later {call : Call} {answer : Except Failure call.Answer} (hs : s.Versioned)
    (h : s.Serves call answer s') : s.Later s' := by
  obtain rfl | rfl := h.after
  · exact .refl s'
  · exact later_respond hs call

end Store

/-! ### Passes among other clients -/

namespace World

variable {key : ResourceKey} {w w' : World}

/-- A step of a pass, and what other clients do, leaves a versioned store a later one. -/
theorem Step.later (h : Step Store.Later key w w') (hs : w.store.Versioned) :
    w.store.Later w'.store := by
  cases h with
  | begin => exact .refl _
  | call _ _ hserves => exact hserves.later hs
  | stop => exact .refl _
  | others hothers => exact hothers

/-- So does a run. -/
theorem Run.later (h : Run Store.Later key w w') (hs : w.store.Versioned) :
    w.store.Later w'.store := by
  induction h with
  | refl => exact .refl _
  | tail _ hstep ih => exact ih.trans (hstep.later (hs.trans ih))

end World

end NodeFeatureOperator
