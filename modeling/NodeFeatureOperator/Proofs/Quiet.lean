import NodeFeatureOperator.Cluster.Store
import NodeFeatureOperator.Proofs.Trace

/-!
# Runs that only read

A run of a program against a cluster makes one of the program's traces. A program is quiet on a
store if it does no more than read there, and then its run is known: it leaves store and time as
they are.

## Main definitions

* `Program.exchanges`: the trace of a run.
* `Program.Quiet`: a program only reads, and ends with a value.

## Main results

* `Program.ends_exchanges`: the trace of a run is a trace of the program.
* `Program.exchanges_bind`: the trace of a run of programs in sequence.
* `Program.Quiet.run_eq`, `Program.Quiet.isRead_of_mem`: the run of a quiet program.
-/

namespace NodeFeatureOperator

/-- Whether a call is a read. -/
def Call.isRead : Call → Bool
  | .getResource _ _ => true
  | .get _ _ _ => true
  | _ => false

/-- A read leaves the store as it is. -/
theorem Store.respond_of_isRead {call : Call} (h : call.isRead = true) (s : Store) :
    (s.respond call).2 = s := by
  cases call with
  | getResource name ns => rfl
  | get kind name ns => rfl
  | _ => cases h

namespace Program

variable {α β σ : Type}

/-! ### The trace of a run -/

/-- The calls that a run makes, each with the answer that it is given. -/
def exchanges (respond : Responder σ) : Program α → σ → Duration → List Exchange
  | .done _, _, _ => []
  | .call c next, s, time =>
    ⟨c, (respond c s).1⟩ :: exchanges respond (next (respond c s).1) (respond c s).2 time
  | .sleep length next, s, time => exchanges respond next s (time + length)
  | .clock next, s, time => exchanges respond (next time) s time

/-- What a run does is a trace of the program, and it ends with the value of the run. -/
theorem ends_exchanges (respond : Responder σ) (p : Program α) (s : σ) (time : Duration) :
    p.Ends (p.exchanges respond s time) (p.run respond s time).1 := by
  induction p generalizing s time with
  | done a => exact .done a
  | call c next ih => exact .call (ih _ _ time)
  | sleep length next ih => exact .sleep (ih s (time + length))
  | clock next ih => exact .clock (ih time s time)

/-- A run of a program that has ended gives its value, and leaves store and time as they are. -/
theorem run_done_eq_iff {respond : Responder σ} {a b : α} {s s' : σ} {time time' : Duration} :
    (Program.done a).run respond s time = (b, s', time') ↔ a = b ∧ s = s' ∧ time = time' := by
  simp only [run, Prod.mk.injEq]

/-- The trace of a run of two programs in sequence is that of the first, and then that of the second
from where the first has come to. -/
theorem exchanges_bind (respond : Responder σ) (p : Program α) (f : α → Program β) (s : σ)
    (time : Duration) {a : α} {s' : σ} {time' : Duration}
    (h : p.run respond s time = (a, s', time')) :
    (p.bind f).exchanges respond s time =
      p.exchanges respond s time ++ (f a).exchanges respond s' time' := by
  induction p generalizing s time with
  | done a =>
      obtain ⟨rfl, rfl, rfl⟩ := run_done_eq_iff.mp h
      rfl
  | call c next ih => exact congrArg (List.cons _) (ih _ _ time h)
  | sleep length next ih => exact ih s (time + length) h
  | clock next ih => exact ih time s time h

/-- A run of two programs in sequence begins with a run of the first. -/
theorem exists_run_of_bind {respond : Responder σ} {p : Program α} {f : α → Program β} {s : σ}
    {time : Duration} {r : β × σ × Duration} (h : (p.bind f).run respond s time = r) :
    ∃ a s' time', p.run respond s time = (a, s', time') ∧ (f a).run respond s' time' = r :=
  ⟨_, _, _, rfl, (run_bind respond p f s time).symm.trans h⟩

/-! ### Quiet programs -/

/-- `p.Quiet s a`: on the store `s` the program only reads, and ends with `a`. -/
inductive Quiet (s : Store) : Program α → α → Prop
  | done (a : α) : Quiet s (.done a) a
  | call {c : Call} {next : Except Failure c.Answer → Program α} {a : α} :
      c.isRead = true → Quiet s (next (s.respond c).1) a → Quiet s (.call c next) a

variable {s : Store} {p : Program α} {a : α}

/-- Quiet programs in sequence are quiet. -/
theorem Quiet.bind {f : α → Program β} {b : β} (hp : p.Quiet s a) (hf : (f a).Quiet s b) :
    (p.bind f).Quiet s b := by
  induction hp with
  | done a => exact hf
  | call hread _ ih => exact .call hread (ih hf)

/-- A quiet program ends with its value, and leaves store and time as they are. -/
theorem Quiet.run_eq (h : p.Quiet s a) (time : Duration) :
    p.run Store.respond s time = (a, s, time) := by
  induction h with
  | done a => rfl
  | @call c next a hread _ ih =>
      have hstore : (s.respond c).2 = s := Store.respond_of_isRead hread s
      simp only [run]
      rw [hstore]
      exact ih

/-- A quiet program makes no calls but reads. -/
theorem Quiet.isRead_of_mem (h : p.Quiet s a) (time : Duration) :
    ∀ e ∈ p.exchanges Store.respond s time, e.call.isRead = true := by
  induction h with
  | done a => simp [exchanges]
  | @call c next a hread _ ih =>
      have hstore : (s.respond c).2 = s := Store.respond_of_isRead hread s
      simp only [exchanges, List.mem_cons]
      rintro e (rfl | he)
      · exact hread
      · rw [hstore] at he
        exact ih e he

end Program

end NodeFeatureOperator
