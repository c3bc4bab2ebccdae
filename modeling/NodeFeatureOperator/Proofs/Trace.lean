import NodeFeatureOperator.Cluster.Program
import NodeFeatureOperator.Component.Basic

/-!
# Traces of programs

A program leaves it open how its calls are answered and what the clock shows. Its traces settle
that: a trace is the list of the calls that were made, each with the answer it was given. What is
proved of all traces holds whatever the cluster does, failures in any order included.

## Main definitions

* `Exchange`: a call with its answer.
* `Component.deleted`, `Component.found`: an accepted deletion and an answered look-up.
* `Program.Ends`: a trace of a whole run, with the value in which it ends.
* `Program.Asks`: a trace of the beginning of a run, with the call that comes next.
* `Program.Only`: every call that a program can make is of some sort.
* `Program.Heeds`: every call that a program can make rests on the last answers before it.

## Main results

* `Program.ends_bind_iff`, `Program.asks_bind_iff`: the traces of programs in sequence.
* `Program.Ends.asks_of_split`, `Program.Asks.asks_of_split`: every call of a trace was asked for
  by the trace before it.
* `Program.Asks.exists_ends`: a program comes to an end, whatever its next call is answered with.
-/

namespace NodeFeatureOperator

/-- A call and the answer it was given. -/
structure Exchange where
  call : Call
  answer : Except Failure call.Answer

namespace Component

/-- The deletion of a component, accepted. -/
def deleted (ns : String) (c : Component) : Exchange := ⟨.delete c.kind c.name ns, .ok ()⟩

/-- The look-up of a component, with what it found. -/
def found (ns : String) (c : Component) (o : Option ManagedObject) : Exchange :=
  ⟨.get c.kind c.name ns, .ok o⟩

end Component

namespace Program

variable {α β : Type}

/-- `p.Ends t a`: with the answers of `t`, and some readings of the clock, `p` makes exactly the
calls of `t` and ends with `a`. -/
inductive Ends : Program α → List Exchange → α → Prop
  | done (a : α) : Ends (.done a) [] a
  | call {c : Call} {next : Except Failure c.Answer → Program α} {answer : Except Failure c.Answer}
      {t : List Exchange} {a : α} :
      Ends (next answer) t a → Ends (.call c next) (⟨c, answer⟩ :: t) a
  | sleep {length : Duration} {next : Program α} {t : List Exchange} {a : α} :
      Ends next t a → Ends (.sleep length next) t a
  | clock {next : Duration → Program α} {now : Duration} {t : List Exchange} {a : α} :
      Ends (next now) t a → Ends (.clock next) t a

/-- `p.Asks t c`: with the answers of `t`, and some readings of the clock, `p` makes the calls of
`t` and then the call `c`. -/
inductive Asks : Program α → List Exchange → Call → Prop
  | here (c : Call) (next : Except Failure c.Answer → Program α) : Asks (.call c next) [] c
  | call {c d : Call} {next : Except Failure c.Answer → Program α}
      {answer : Except Failure c.Answer} {t : List Exchange} :
      Asks (next answer) t d → Asks (.call c next) (⟨c, answer⟩ :: t) d
  | sleep {length : Duration} {next : Program α} {t : List Exchange} {c : Call} :
      Asks next t c → Asks (.sleep length next) t c
  | clock {next : Duration → Program α} {now : Duration} {t : List Exchange} {c : Call} :
      Asks (next now) t c → Asks (.clock next) t c

/-! ### One node at a time -/

@[simp] theorem ends_done_iff {a b : α} {t : List Exchange} :
    (Program.done a).Ends t b ↔ t = [] ∧ b = a := by
  constructor
  · rintro ⟨⟩
    exact ⟨rfl, rfl⟩
  · rintro ⟨rfl, rfl⟩
    exact .done b

@[simp] theorem ends_call_iff {c : Call} {next : Except Failure c.Answer → Program α}
    {t : List Exchange} {a : α} :
    (Program.call c next).Ends t a ↔
      ∃ answer rest, t = ⟨c, answer⟩ :: rest ∧ (next answer).Ends rest a := by
  constructor
  · rintro (_ | h)
    exact ⟨_, _, rfl, h⟩
  · rintro ⟨answer, rest, rfl, h⟩
    exact .call h

@[simp] theorem ends_sleep_iff {length : Duration} {next : Program α} {t : List Exchange} {a : α} :
    (Program.sleep length next).Ends t a ↔ next.Ends t a := by
  constructor
  · rintro (_ | _ | h)
    exact h
  · exact .sleep

@[simp] theorem ends_clock_iff {next : Duration → Program α} {t : List Exchange} {a : α} :
    (Program.clock next).Ends t a ↔ ∃ now, (next now).Ends t a := by
  constructor
  · rintro (_ | _ | _ | h)
    exact ⟨_, h⟩
  · rintro ⟨now, h⟩
    exact .clock h

@[simp] theorem not_asks_done (a : α) (t : List Exchange) (c : Call) :
    ¬ (Program.done a).Asks t c := nofun

@[simp] theorem asks_call_iff {c d : Call} {next : Except Failure c.Answer → Program α}
    {t : List Exchange} :
    (Program.call c next).Asks t d ↔
      (t = [] ∧ d = c) ∨ ∃ answer rest, t = ⟨c, answer⟩ :: rest ∧ (next answer).Asks rest d := by
  constructor
  · rintro (_ | h)
    · exact .inl ⟨rfl, rfl⟩
    · exact .inr ⟨_, _, rfl, h⟩
  · rintro (⟨rfl, rfl⟩ | ⟨answer, rest, rfl, h⟩)
    · exact .here d next
    · exact .call h

@[simp] theorem asks_sleep_iff {length : Duration} {next : Program α} {t : List Exchange}
    {c : Call} : (Program.sleep length next).Asks t c ↔ next.Asks t c := by
  constructor
  · rintro (_ | _ | h)
    exact h
  · exact .sleep

@[simp] theorem asks_clock_iff {next : Duration → Program α} {t : List Exchange} {c : Call} :
    (Program.clock next).Asks t c ↔ ∃ now, (next now).Asks t c := by
  constructor
  · rintro (_ | _ | _ | h)
    exact ⟨_, h⟩
  · rintro ⟨now, h⟩
    exact .clock h

/-! ### Programs in sequence -/

/-- A run of two programs in sequence is a run of the first, followed by one of the second. -/
theorem ends_bind_iff {p : Program α} {f : α → Program β} {t : List Exchange} {b : β} :
    (p.bind f).Ends t b ↔ ∃ a t₁ t₂, t = t₁ ++ t₂ ∧ p.Ends t₁ a ∧ (f a).Ends t₂ b := by
  induction p generalizing t with
  | done a =>
      simp only [bind, ends_done_iff]
      constructor
      · intro h
        exact ⟨a, [], t, rfl, ⟨rfl, rfl⟩, h⟩
      · rintro ⟨_, _, _, rfl, ⟨rfl, rfl⟩, h⟩
        exact h
  | call c next ih =>
      simp only [bind, ends_call_iff, ih]
      constructor
      · rintro ⟨answer, rest, rfl, a, t₁, t₂, rfl, h₁, h₂⟩
        exact ⟨a, ⟨c, answer⟩ :: t₁, t₂, rfl, ⟨answer, t₁, rfl, h₁⟩, h₂⟩
      · rintro ⟨a, t₁, t₂, rfl, ⟨answer, rest, rfl, h₁⟩, h₂⟩
        exact ⟨answer, rest ++ t₂, rfl, a, rest, t₂, rfl, h₁, h₂⟩
  | sleep length next ih => simp only [bind, ends_sleep_iff, ih]
  | clock next ih =>
      simp only [bind, ends_clock_iff, ih]
      constructor
      · rintro ⟨now, a, t₁, t₂, rfl, h₁, h₂⟩
        exact ⟨a, t₁, t₂, rfl, ⟨now, h₁⟩, h₂⟩
      · rintro ⟨a, t₁, t₂, rfl, ⟨now, h₁⟩, h₂⟩
        exact ⟨now, a, t₁, t₂, rfl, h₁, h₂⟩

/-- Of two programs in sequence the first asks, or it has ended and the second asks. -/
theorem asks_bind_iff {p : Program α} {f : α → Program β} {t : List Exchange} {c : Call} :
    (p.bind f).Asks t c ↔
      p.Asks t c ∨ ∃ a t₁ t₂, t = t₁ ++ t₂ ∧ p.Ends t₁ a ∧ (f a).Asks t₂ c := by
  induction p generalizing t with
  | done a =>
      simp only [bind, not_asks_done, ends_done_iff, false_or]
      constructor
      · intro h
        exact ⟨a, [], t, rfl, ⟨rfl, rfl⟩, h⟩
      · rintro ⟨_, _, _, rfl, ⟨rfl, rfl⟩, h⟩
        exact h
  | call d next ih =>
      simp only [bind, asks_call_iff, ends_call_iff, ih]
      constructor
      · rintro (h | ⟨answer, rest, rfl, h | ⟨a, t₁, t₂, rfl, h₁, h₂⟩⟩)
        · exact .inl (.inl h)
        · exact .inl (.inr ⟨answer, rest, rfl, h⟩)
        · exact .inr ⟨a, ⟨d, answer⟩ :: t₁, t₂, rfl, ⟨answer, t₁, rfl, h₁⟩, h₂⟩
      · rintro ((h | ⟨answer, rest, rfl, h⟩) | ⟨a, t₁, t₂, rfl, ⟨answer, rest, rfl, h₁⟩, h₂⟩)
        · exact .inl h
        · exact .inr ⟨answer, rest, rfl, .inl h⟩
        · exact .inr ⟨answer, rest ++ t₂, rfl, .inr ⟨a, rest, t₂, rfl, h₁, h₂⟩⟩
  | sleep length next ih => simp only [bind, asks_sleep_iff, ends_sleep_iff, ih]
  | clock next ih =>
      simp only [bind, asks_clock_iff, ends_clock_iff, ih]
      constructor
      · rintro ⟨now, h | ⟨a, t₁, t₂, rfl, h₁, h₂⟩⟩
        · exact .inl ⟨now, h⟩
        · exact .inr ⟨a, t₁, t₂, rfl, ⟨now, h₁⟩, h₂⟩
      · rintro (⟨now, h⟩ | ⟨a, t₁, t₂, rfl, ⟨now, h₁⟩, h₂⟩)
        · exact ⟨now, .inl h⟩
        · exact ⟨now, .inr ⟨a, t₁, t₂, rfl, h₁, h₂⟩⟩

/-! ### Beginnings of traces -/

/-- Every call of a whole run was asked for by the calls before it. -/
theorem Ends.asks_of_split {p : Program α} {t₁ t₂ : List Exchange} {e : Exchange} {a : α}
    (h : p.Ends (t₁ ++ e :: t₂) a) : p.Asks t₁ e.call := by
  generalize ht : t₁ ++ e :: t₂ = t at h
  induction h generalizing t₁ with
  | done a => simp at ht
  | call h ih =>
      cases t₁ with
      | nil =>
          obtain ⟨rfl, -⟩ := List.cons.inj ht
          exact .here _ _
      | cons e' t₁ =>
          obtain ⟨rfl, hrest⟩ := List.cons.inj ht
          exact .call (ih hrest)
  | sleep h ih => exact .sleep (ih ht)
  | clock h ih => exact .clock (ih ht)

/-- Every call of the beginning of a run was asked for by the calls before it. -/
theorem Asks.asks_of_split {p : Program α} {t₁ t₂ : List Exchange} {e : Exchange} {c : Call}
    (h : p.Asks (t₁ ++ e :: t₂) c) : p.Asks t₁ e.call := by
  generalize ht : t₁ ++ e :: t₂ = t at h
  induction h generalizing t₁ with
  | here c next => simp at ht
  | call h ih =>
      cases t₁ with
      | nil =>
          obtain ⟨rfl, -⟩ := List.cons.inj ht
          exact .here _ _
      | cons e' t₁ =>
          obtain ⟨rfl, hrest⟩ := List.cons.inj ht
          exact .call (ih hrest)
  | sleep h ih => exact .sleep (ih ht)
  | clock h ih => exact .clock (ih ht)

/-! ### Ends of traces -/

/-- Every program can come to an end. -/
theorem exists_ends (p : Program α) : ∃ t a, p.Ends t a := by
  induction p with
  | done a => exact ⟨[], a, .done a⟩
  | call c next ih =>
      obtain ⟨t, a, h⟩ := ih (.error default)
      exact ⟨_, a, .call h⟩
  | sleep length next ih =>
      obtain ⟨t, a, h⟩ := ih
      exact ⟨t, a, .sleep h⟩
  | clock next ih =>
      obtain ⟨t, a, h⟩ := ih (Duration.ofSeconds 0)
      exact ⟨t, a, .clock h⟩

/-- Whatever its next call is answered with, a program can come to an end after that. -/
theorem Asks.exists_ends {p : Program α} {t : List Exchange} {c : Call} (h : p.Asks t c)
    (answer : Except Failure c.Answer) : ∃ t' a, p.Ends (t ++ ⟨c, answer⟩ :: t') a := by
  induction h with
  | here c next =>
      obtain ⟨t', a, h⟩ := (next answer).exists_ends
      exact ⟨t', a, .call h⟩
  | call _ ih =>
      obtain ⟨t', a, h⟩ := ih answer
      exact ⟨t', a, .call h⟩
  | sleep _ ih =>
      obtain ⟨t', a, h⟩ := ih answer
      exact ⟨t', a, .sleep h⟩
  | clock _ ih =>
      obtain ⟨t', a, h⟩ := ih answer
      exact ⟨t', a, .clock h⟩

/-! ### What calls rest on -/

/-- Whenever the program makes a call, `Q` holds of the last answers before it, however many, and of
the call. -/
def Heeds (Q : List Exchange → Call → Prop) (p : Program α) : Prop :=
  ∀ t c, p.Asks t c → ∃ t₁ t₂, t = t₁ ++ t₂ ∧ Q t₂ c

/-- Programs in sequence heed what each of them does. -/
theorem Heeds.bind {Q : List Exchange → Call → Prop} {p : Program α} {f : α → Program β}
    (hp : p.Heeds Q) (hf : ∀ a, (f a).Heeds Q) : (p.bind f).Heeds Q := by
  intro t c h
  obtain h | ⟨a, t₁, t₂, rfl, -, h⟩ := asks_bind_iff.mp h
  · exact hp t c h
  · obtain ⟨t₃, t₄, rfl, hQ⟩ := hf a t₂ c h
    exact ⟨t₁ ++ t₃, t₄, (List.append_assoc _ _ _).symm, hQ⟩

/-- A program without calls heeds anything. -/
theorem heeds_done {Q : List Exchange → Call → Prop} (a : α) : (Program.done a).Heeds Q :=
  fun t c h => absurd h (not_asks_done a t c)

/-! ### Sorts of calls -/

/-- Every call that the program can make, on whatever answers, is of the sort `P`. -/
def Only (P : Call → Prop) : Program α → Prop
  | .done _ => True
  | .call c next => P c ∧ ∀ answer, Only P (next answer)
  | .sleep _ next => Only P next
  | .clock next => ∀ now, Only P (next now)

variable {P : Call → Prop}

/-- A program makes calls of a sort if each call that it asks for is of the sort. -/
theorem only_of_asks {p : Program α} (h : ∀ t c, p.Asks t c → P c) : p.Only P := by
  induction p with
  | done a => exact trivial
  | call c next ih =>
      exact ⟨h [] c (.here c next), fun answer => ih answer fun t d hd => h _ d (.call hd)⟩
  | sleep length next ih => exact ih fun t c hc => h t c (.sleep hc)
  | clock next ih => exact fun now => ih now fun t c hc => h t c (.clock hc)

/-- Calls of a sort are calls of every wider sort. -/
theorem Only.mono {Q : Call → Prop} {p : Program α} (hp : p.Only P) (h : ∀ c, P c → Q c) :
    p.Only Q := by
  induction p with
  | done a => exact trivial
  | call c next ih => exact ⟨h c hp.1, fun answer => ih answer (hp.2 answer)⟩
  | sleep length next ih => exact ih hp
  | clock next ih => exact fun now => ih now (hp now)

/-- Programs in sequence make calls of a sort if each of them does. -/
theorem Only.bind {p : Program α} {f : α → Program β} (hp : p.Only P)
    (hf : ∀ a, (f a).Only P) : (p.bind f).Only P := by
  induction p with
  | done a => exact hf a
  | call c next ih => exact ⟨hp.1, fun answer => ih answer (hp.2 answer)⟩
  | sleep length next ih => exact ih hp
  | clock next ih => exact fun now => ih now (hp now)

/-- The next call of the program is of the sort. -/
theorem Only.of_asks {p : Program α} {t : List Exchange} {c : Call} (hp : p.Only P)
    (h : p.Asks t c) : P c := by
  induction h with
  | here c next => exact hp.1
  | call h ih => exact ih (hp.2 _)
  | sleep h ih => exact ih hp
  | clock h ih => exact ih (hp _)

/-- All calls of a whole run are of the sort. -/
theorem Only.of_ends {p : Program α} {t : List Exchange} {a : α} (hp : p.Only P)
    (h : p.Ends t a) : ∀ e ∈ t, P e.call := by
  intro e he
  obtain ⟨t₁, t₂, rfl⟩ := List.append_of_mem he
  exact hp.of_asks h.asks_of_split

/-- A program heeds what always holds of calls of its sort. -/
theorem Only.heeds {Q : List Exchange → Call → Prop} {p : Program α} (hp : p.Only P)
    (h : ∀ c, P c → Q [] c) : p.Heeds Q :=
  fun t c hc => ⟨t, [], (List.append_nil t).symm, h c (hp.of_asks hc)⟩

/-- All calls of the beginning of a run are of the sort. -/
theorem Only.of_asks_before {p : Program α} {t : List Exchange} {c : Call} (hp : p.Only P)
    (h : p.Asks t c) : ∀ e ∈ t, P e.call := by
  intro e he
  obtain ⟨t₁, t₂, rfl⟩ := List.append_of_mem he
  exact hp.of_asks h.asks_of_split

end Program

end NodeFeatureOperator
