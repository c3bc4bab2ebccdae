import NodeFeatureOperator.Proofs.Retry

/-!
# The classification of failures

A failure is a tree: failures on components and joined failures are its inner nodes, all others are
leaves. Three questions are asked of it, each answered by a recursion of its own. Whether it is
worth a retry looks below every node. Whether an object was missing, and whether a write met a
conflict, look below components only, and take no join for either. So the last two can be read off
one code, that of the refusal below the components, and it is this code that keeps them apart and
puts each on its side of the first question.

## Main definitions

* `Failure.Reaches`: what lies below a failure.
* `Failure.Passing`: the leaves that may pass by themselves.
* `Failure.code?`: the code of a refusal on components.
* `Failure.within`: a failure on components, one around the other.

## Main results

* `Failure.mem_causes_iff`: the causes of a failure are the leaves below it.
* `Failure.isRetryable_of_code?`: the code of a refusal decides whether it is worth a retry.
* `failures_classified`: how the three answers hang together, and what follows a failed pass.
-/

namespace NodeFeatureOperator

namespace Failure

/-! ### What lies below a failure -/

/-- From a failure, going down through components and joins, one comes to another. -/
inductive Reaches : Failure → Failure → Prop
  | refl (f : Failure) : Reaches f f
  | component {label name ns : String} {source g : Failure} :
      Reaches source g → Reaches (.component label name ns source) g
  | part {parts : List Failure} {f g : Failure} :
      f ∈ parts → Reaches f g → Reaches (.multiple parts) g

/-- A failure with nothing below it. -/
def IsLeaf : Failure → Prop
  | .component _ _ _ _ => False
  | .multiple _ => False
  | _ => True

/-- A leaf that may pass by itself: a refusal for a conflict, or with a code that does not blame the
request; something lost on the way; a wait that expired; a contradiction. -/
inductive Passing : Failure → Prop
  | refused {r : Refusal} : r.code = 409 ∨ ¬ (400 ≤ r.code ∧ r.code < 500) → Passing (.refused r)
  | broken (b : Breakdown) : Passing (.broken b)
  | timeout (operation : String) (after : Duration) : Passing (.timeout operation after)
  | internal (message context : String) : Passing (.internal message context)

variable {f g : Failure} {fs : List Failure}

mutual
/-- A cause of a failure is a leaf below it. -/
theorem reaches_of_mem_causes : (f : Failure) → g ∈ f.causes → f.Reaches g ∧ g.IsLeaf
  | .component _ _ _ source, h => (reaches_of_mem_causes source h).imp_left .component
  | .multiple parts, h => by
      obtain ⟨f, hf, hreaches, hleaf⟩ := exists_reaches_of_mem_causes parts h
      exact ⟨.part hf hreaches, hleaf⟩
  | .refused _, h | .broken _, h | .ownerReference _ _ _, h | .pruneJobFailed _ _ _, h
  | .timeout _ _, h | .serialization _, h | .internal _ _, h => by
      obtain rfl := List.mem_singleton.mp h
      exact ⟨.refl _, trivial⟩
/-- A cause of several failures is a leaf below one of them. -/
theorem exists_reaches_of_mem_causes : (fs : List Failure) → g ∈ causesOfAll fs →
    ∃ f ∈ fs, f.Reaches g ∧ g.IsLeaf
  | f :: rest, h => by
      obtain h | h := List.mem_append.mp h
      · exact ⟨f, List.mem_cons_self, reaches_of_mem_causes f h⟩
      · obtain ⟨f', hf', hg⟩ := exists_reaches_of_mem_causes rest h
        exact ⟨f', List.mem_cons_of_mem _ hf', hg⟩
end

/-- The causes of a failure are the leaves below it. -/
theorem mem_causes_iff : g ∈ f.causes ↔ f.Reaches g ∧ g.IsLeaf := by
  constructor
  · exact reaches_of_mem_causes f
  · rintro ⟨hreaches, hleaf⟩
    induction hreaches with
    | refl f => cases f <;> first | exact List.mem_singleton_self _ | exact hleaf.elim
    | component _ ih => exact ih hleaf
    | part hf _ ih => exact mem_causesOfAll.mpr ⟨_, hf, ih hleaf⟩

/-- A leaf is worth a retry exactly if it may pass by itself. -/
theorem IsLeaf.isRetryable_iff (h : g.IsLeaf) : g.isRetryable = true ↔ g.Passing := by
  constructor
  · intro hretry
    cases g with
    | refused r =>
        refine .refused ?_
        simp only [isRetryable, Refusal.isRetryable, Bool.not_eq_true', decide_eq_false_iff_not]
          at hretry
        omega
    | broken b => exact .broken b
    | timeout operation after => exact .timeout operation after
    | internal m context => exact .internal m context
    | component => exact h.elim
    | multiple => exact h.elim
    | ownerReference => cases hretry
    | pruneJobFailed => cases hretry
    | serialization => cases hretry
  · rintro (hcode | _ | _ | _)
    · simp only [isRetryable, Refusal.isRetryable, Bool.not_eq_true', decide_eq_false_iff_not]
      omega
    · rfl
    · rfl
    · rfl

/-- What may pass by itself is a leaf. -/
theorem Passing.isLeaf (h : g.Passing) : g.IsLeaf := by
  cases h <;> trivial

/-- A failure is worth a retry exactly if below it there is a leaf that may pass by itself. -/
theorem isRetryable_iff_exists_passing : f.isRetryable = true ↔ ∃ g, f.Reaches g ∧ g.Passing := by
  rw [isRetryable_iff_exists_cause]
  constructor
  · rintro ⟨g, hg, hretry⟩
    obtain ⟨hreaches, hleaf⟩ := mem_causes_iff.mp hg
    exact ⟨g, hreaches, hleaf.isRetryable_iff.mp hretry⟩
  · rintro ⟨g, hreaches, hpassing⟩
    exact ⟨g, mem_causes_iff.mpr ⟨hreaches, hpassing.isLeaf⟩,
      hpassing.isLeaf.isRetryable_iff.mpr hpassing⟩

/-! ### Refusals on components -/

/-- The code of a refusal, on however many components. -/
def code? : Failure → Option Nat
  | .refused r => some r.code
  | .component _ _ _ source => code? source
  | _ => none

/-- An object was missing exactly if a refusal says so by its code. -/
theorem isNotFound_iff_code? : (f : Failure) → (f.isNotFound = true ↔ f.code? = some 404)
  | .refused r => by simp [isNotFound, code?]
  | .component _ _ _ source => isNotFound_iff_code? source
  | .broken _ | .ownerReference _ _ _ | .pruneJobFailed _ _ _ | .timeout _ _ | .serialization _
  | .internal _ _ | .multiple _ => by simp [isNotFound, code?]

/-- A write met a conflict exactly if a refusal says so by its code. -/
theorem isConflict_iff_code? : (f : Failure) → (f.isConflict = true ↔ f.code? = some 409)
  | .refused r => by simp [isConflict, code?]
  | .component _ _ _ source => isConflict_iff_code? source
  | .broken _ | .ownerReference _ _ _ | .pruneJobFailed _ _ _ | .timeout _ _ | .serialization _
  | .internal _ _ | .multiple _ => by simp [isConflict, code?]

/-- The code of a refusal on components decides whether it is worth a retry. -/
theorem isRetryable_of_code? {code : Nat} : (f : Failure) → f.code? = some code →
    (f.isRetryable = true ↔ code = 409 ∨ ¬ (400 ≤ code ∧ code < 500))
  | .refused r, h => by
      obtain rfl := Option.some.inj h
      simp only [isRetryable, Refusal.isRetryable, Bool.not_eq_true', decide_eq_false_iff_not]
      omega
  | .component _ _ _ source, h => isRetryable_of_code? source h

/-- A conflict is worth a retry. -/
theorem isRetryable_of_isConflict (h : f.isConflict = true) : f.isRetryable = true :=
  (isRetryable_of_code? f ((isConflict_iff_code? f).mp h)).mpr (.inl rfl)

/-- A missing object is not. -/
theorem isRetryable_of_isNotFound (h : f.isNotFound = true) : f.isRetryable = false := by
  refine Bool.eq_false_iff.mpr fun hretry => ?_
  have hcode := (isRetryable_of_code? f ((isNotFound_iff_code? f).mp h)).mp hretry
  omega

/-- Nothing is both. -/
theorem not_isConflict_and_isNotFound : ¬ (f.isConflict = true ∧ f.isNotFound = true) := by
  rintro ⟨hconflict, hmissing⟩
  have hcode : some 409 = some 404 :=
    ((isConflict_iff_code? f).mp hconflict).symm.trans ((isNotFound_iff_code? f).mp hmissing)
  cases hcode

/-! ### Failures on components -/

/-- A failure on components, one around the other, each with its label, its name and its
namespace. -/
def within (layers : List (String × String × String)) (f : Failure) : Failure :=
  layers.foldr (fun l source => .component l.1 l.2.1 l.2.2 source) f

/-- Components around a failure change none of the three answers. -/
theorem classified_within (layers : List (String × String × String)) :
    (f.within layers).isRetryable = f.isRetryable ∧
      (f.within layers).isNotFound = f.isNotFound ∧
      (f.within layers).isConflict = f.isConflict := by
  induction layers with
  | nil => exact ⟨rfl, rfl, rfl⟩
  | cons l layers ih => exact ih

/-! ### Joined failures -/

/-- What failures are joined to is worth a retry exactly if one of them is. -/
theorem isRetryable_of_join (h : join fs = some g) :
    g.isRetryable = true ↔ ∃ f ∈ fs, f.isRetryable = true := by
  rw [isRetryable_iff_exists_cause, causes_of_join h]
  constructor
  · rintro ⟨cause, hcause, hretry⟩
    obtain ⟨f, hf, hcause⟩ := mem_causesOfAll.mp hcause
    exact ⟨f, hf, isRetryable_iff_exists_cause.mpr ⟨cause, hcause, hretry⟩⟩
  · rintro ⟨f, hf, hretry⟩
    obtain ⟨cause, hcause, hretry⟩ := isRetryable_iff_exists_cause.mp hretry
    exact ⟨cause, mem_causesOfAll.mpr ⟨f, hf, hcause⟩, hretry⟩

/-- Two failures or more are joined to one with all of them as its parts. -/
theorem join_of_two_le (h : 2 ≤ fs.length) : join fs = some (.multiple fs) := by
  match fs with
  | [] => simp at h
  | [_] => simp at h
  | _ :: _ :: _ => rfl

end Failure

/-- **Failures are classified consistently.** A conflict is worth a retry, a missing object is not,
and nothing is both. Components around a failure, however many, change none of this. What failures
are joined to is worth a retry exactly if one of them is, and of two or more it is neither a
conflict nor a missing object. After a failed pass there is a retry exactly if somewhere below
components and joins lies a leaf that may pass by itself, and else a wait for a change. -/
theorem failures_classified (config : Config) (f : Failure) (fs : List Failure)
    (layers : List (String × String × String)) :
    (f.isConflict = true → f.isRetryable = true) ∧
    (f.isNotFound = true → f.isRetryable = false) ∧
    ¬ (f.isConflict = true ∧ f.isNotFound = true) ∧
    ((f.within layers).isRetryable = f.isRetryable ∧
      (f.within layers).isNotFound = f.isNotFound ∧
      (f.within layers).isConflict = f.isConflict) ∧
    (∀ g, Failure.join fs = some g →
      (g.isRetryable = true ↔ ∃ f ∈ fs, f.isRetryable = true)) ∧
    (2 ≤ fs.length →
      ∃ g, Failure.join fs = some g ∧ g.isConflict = false ∧ g.isNotFound = false) ∧
    (errorPolicy config f = .requeue config.error ↔ ∃ g, f.Reaches g ∧ g.Passing) ∧
    (errorPolicy config f = .awaitChange ↔ ¬ ∃ g, f.Reaches g ∧ g.Passing) := by
  refine ⟨Failure.isRetryable_of_isConflict, Failure.isRetryable_of_isNotFound,
    Failure.not_isConflict_and_isNotFound, Failure.classified_within layers,
    fun g => Failure.isRetryable_of_join, ?_, ?_, ?_⟩
  · intro hlength
    exact ⟨.multiple fs, Failure.join_of_two_le hlength, rfl, rfl⟩
  · rw [errorPolicy_eq_requeue_iff, Failure.isRetryable_iff_exists_passing]
  · rw [← Failure.isRetryable_iff_exists_passing, errorPolicy]
    split <;> simp_all

/-- A conflict below a join is worth a retry, although the whole is not taken for a conflict. -/
example :
    let conflict : Refusal :=
      { status := "Failure", message := "", reason := "Conflict", code := 409 }
    let f : Failure := .multiple [
      .component "master Deployment" "nfd-master" "gpu" (.refused conflict),
      .pruneJobFailed "gpu" "nfd-prune" "job failed"]
    f.isRetryable = true ∧ f.isConflict = false := by decide

end NodeFeatureOperator
