import NodeFeatureOperator.Cluster.Call

/-!
# Programs over the cluster interface

A program is a tree of calls, each followed by what is done with its answer. It sleeps and reads
the clock besides. A program says nothing on how calls are answered, so that it can run against any
cluster, and what holds of all its branches holds whatever the cluster does.

## Main definitions

* `Program`: the trees, a monad by `Program.bind`.
* `Program.run`: the run of a program against a cluster with a state.
-/

namespace NodeFeatureOperator

/-- A program that ends with a value. -/
inductive Program (α : Type) where
  /-- The end. -/
  | done (value : α)
  /-- A call, and what follows each answer. -/
  | call (c : Call) (next : Except Failure c.Answer → Program α)
  /-- A pause. -/
  | sleep (length : Duration) (next : Program α)
  /-- A look at the clock, which counts from some start. -/
  | clock (next : Duration → Program α)

namespace Program

variable {α β : Type}

/-- The program that goes on with the value in which the first one ends. -/
def bind : Program α → (α → Program β) → Program β
  | .done a, f => f a
  | .call c next, f => .call c fun answer => bind (next answer) f
  | .sleep length next, f => .sleep length (bind next f)
  | .clock next, f => .clock fun now => bind (next now) f

instance : Monad Program where
  pure := Program.done
  bind := Program.bind

/-- A single call. -/
def request (c : Call) : Program (Except Failure c.Answer) := .call c .done

/-- A pause. -/
def pause (length : Duration) : Program Unit := .sleep length (.done ())

/-- The time on the clock. -/
def now : Program Duration := .clock .done

/-- A cluster that answers calls and changes in doing so. -/
abbrev Responder (σ : Type) := (c : Call) → σ → Except Failure c.Answer × σ

/-- The value, the state of the cluster and the time after a run. Only a pause takes time. -/
def run {σ : Type} (respond : Responder σ) : Program α → σ → Duration → α × σ × Duration
  | .done a, s, time => (a, s, time)
  | .call c next, s, time =>
    let (answer, s) := respond c s
    run respond (next answer) s time
  | .sleep length next, s, time => run respond next s (time + length)
  | .clock next, s, time => run respond (next time) s time

@[simp] theorem pure_eq (a : α) : (pure a : Program α) = .done a := rfl

@[simp] theorem bind_eq (p : Program α) (f : α → Program β) : (p >>= f) = p.bind f := rfl

/-- A run of two programs in sequence is the run of the second after that of the first. -/
theorem run_bind {σ : Type} (respond : Responder σ) (p : Program α) (f : α → Program β) (s : σ)
    (time : Duration) :
    run respond (p.bind f) s time =
      let (a, s, time) := run respond p s time
      run respond (f a) s time := by
  induction p generalizing s time with
  | done a => rfl
  | call c next ih => exact ih _ _ _
  | sleep length next ih => exact ih _ _
  | clock next ih => exact ih _ _ _

end Program

end NodeFeatureOperator
