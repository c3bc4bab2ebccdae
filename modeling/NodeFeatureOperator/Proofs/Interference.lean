import NodeFeatureOperator.Proofs.Amendment
import NodeFeatureOperator.Proofs.World

/-!
# Calls amid the writes of others

A trace is answered call by call, while others write to the store before, between and after the
calls. What neither the others nor any of the calls take away is there afterwards as it was before.

## Main definitions

* `Store.ServesAmid`: how the calls of a trace are answered while others write.

## Main results

* `Store.ServesAmid.keeps`: what such a trace keeps.
* `Store.ServesAmid.split`, `Store.ServesAmid.of_cons`: its parts.
* `Program.Performs.servesAmid`: what a program does on a store that nobody else writes to.
-/

namespace NodeFeatureOperator

namespace Store

/-- How the calls of a trace may be answered one after the other, with steps of others before,
between and after them. -/
inductive ServesAmid (others : Store → Store → Prop) : Store → List Exchange → Store → Prop
  | nil (s : Store) : ServesAmid others s [] s
  | others {s s' s'' : Store} {t : List Exchange} :
      others s s' → ServesAmid others s' t s'' → ServesAmid others s t s''
  | cons {s s' s'' : Store} {e : Exchange} {t : List Exchange} :
      s.Serves e.call e.answer s' → ServesAmid others s' t s'' → ServesAmid others s (e :: t) s''

/-- A write of an object has its effect, or it has none and is not accepted. -/
theorem Serves.stored {s s' : Store} {call : Call} {answer : Except Failure call.Answer}
    {o : ManagedObject} (h : s.Serves call answer s')
    (hcall : call = .create o ∨ call = .update o) :
    s' = s.putObject o.key o ∨ (s' = s ∧ answer.isOk = false) := by
  have hrespond : (s.respond call).2 = s.putObject o.key o ∨
      ((s.respond call).2 = s ∧ (s.respond call).1.isOk = false) := by
    obtain rfl | rfl := hcall
    · simp only [respond, create]
      split
      · exact .inr ⟨rfl, rfl⟩
      · exact .inl rfl
    · simp only [respond, update]
      split
      · exact .inr ⟨rfl, rfl⟩
      · split
        · exact .inl rfl
        · exact .inr ⟨rfl, rfl⟩
  cases h with
  | served => exact hrespond
  | lost f => exact hrespond.imp_right fun hafter => ⟨hafter.1, rfl⟩
  | refused f => exact .inr ⟨rfl, rfl⟩
  | deferred => obtain heq | heq := hcall <;> cases heq

namespace ServesAmid

variable {others : Store → Store → Prop} {P : Store → Prop} {s s' s'' : Store} {e : Exchange}
  {t t' : List Exchange}

/-- Traces that are answered together are answered one after the other. -/
theorem split (h : s.ServesAmid others (t ++ t') s'') :
    ∃ s', s.ServesAmid others t s' ∧ s'.ServesAmid others t' s'' := by
  generalize hall : t ++ t' = all at h
  induction h generalizing t with
  | nil s =>
      obtain ⟨rfl, rfl⟩ := List.append_eq_nil_iff.mp hall
      exact ⟨s, .nil s, .nil s⟩
  | others hothers _ ih =>
      obtain ⟨s₁, h₁, h₂⟩ := ih hall
      exact ⟨s₁, .others hothers h₁, h₂⟩
  | @cons s _ _ e rest hserves hrest ih =>
      cases t with
      | nil =>
          obtain rfl : t' = e :: rest := hall
          exact ⟨s, .nil s, .cons hserves hrest⟩
      | cons d t =>
          obtain ⟨rfl, hrest⟩ := List.cons.inj hall
          obtain ⟨s₁, h₁, h₂⟩ := ih hrest
          exact ⟨s₁, .cons hserves h₁, h₂⟩

/-- The first call is answered after steps of others. -/
theorem of_cons (h : s.ServesAmid others (e :: t) s'') :
    ∃ s₁ s₂, s.ServesAmid others [] s₁ ∧ s₁.Serves e.call e.answer s₂ ∧
      s₂.ServesAmid others t s'' := by
  generalize hall : e :: t = all at h
  induction h with
  | nil => cases hall
  | others hothers _ ih =>
      obtain ⟨s₁, s₂, h₁, hserves, h₂⟩ := ih hall
      exact ⟨s₁, s₂, .others hothers h₁, hserves, h₂⟩
  | @cons s _ _ _ _ hserves hrest =>
      cases hall
      exact ⟨s, _, .nil s, hserves, hrest⟩

/-- What the others keep, and each of the calls, the trace keeps. -/
theorem keeps (h : s.ServesAmid others t s')
    (hothers : ∀ s s', others s s' → P s → P s')
    (hcalls : ∀ e ∈ t, ∀ s s', s.Serves e.call e.answer s' → P s → P s') (hs : P s) : P s' := by
  induction h with
  | nil => exact hs
  | others hstep _ ih => exact ih hcalls (hothers _ _ hstep hs)
  | cons hserves _ ih =>
      exact ih (fun e he => hcalls e (List.mem_cons_of_mem _ he))
        (hcalls _ List.mem_cons_self _ _ hserves hs)

end ServesAmid

/-- A run of a program is answered in this way, by a store that nobody else writes to. -/
theorem servesAmid_exchanges {α : Type} (others : Store → Store → Prop) (p : Program α)
    (s : Store) (time : Duration) :
    s.ServesAmid others (p.exchanges respond s time) (p.run respond s time).2.1 := by
  induction p generalizing s time with
  | done a => exact .nil s
  | call c next ih => exact .cons (.served c) (ih _ _ time)
  | sleep length next ih => exact ih s (time + length)
  | clock next ih => exact ih time s time

end Store

/-- So is what a program performs. -/
theorem Program.Performs.servesAmid {α : Type} {p : Program α} {s s' : Store} {t : List Exchange}
    {a : α} (h : p.Performs s t a s') (others : Store → Store → Prop) :
    p.Ends t a ∧ s.ServesAmid others t s' := by
  obtain ⟨hrun, hexchanges⟩ := h (Duration.ofSeconds 0)
  have hends := Program.ends_exchanges Store.respond p s (Duration.ofSeconds 0)
  have hserves := Store.servesAmid_exchanges others p s (Duration.ofSeconds 0)
  rw [hexchanges, hrun] at hends hserves
  exact ⟨hends, hserves⟩

end NodeFeatureOperator
