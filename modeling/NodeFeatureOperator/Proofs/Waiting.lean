import Mathlib.Algebra.Order.Floor.Div
import NodeFeatureOperator.Proofs.Quiet
import NodeFeatureOperator.Reconcile.Teardown

/-!
# How long a wait lasts

A wait checks at once, and then again after each pause of the interval. If its checks take no time,
then the time of each check is known beforehand, whatever the checks do: they come at the multiples
of the interval. The wait looks at the clock only after a check that did not hold, so that the check
at the first multiple which is not before the end of the time allowed is still made, and is the
last. Its number is the quotient of the time allowed and the interval, rounded up. What is left open
is a wait whose checks take time of their own.

## Main definitions

* `Program.timetable`: the calls that a run makes, each with its time.
* `Program.Instant`: a program makes no pause.
* `PollConfig.lastCheck`: the number of the last check of a wait that is given up.
* `Wait`: a wait, with what it runs against; `Wait.Ends`: how it ends.

## Main results

* `Program.timetable_map_snd`: a timetable is the trace of a run, with times.
* `Wait.ComesTo.after_check`: what a wait does at one of its checks.
* `Wait.comesTo_of_le`: while no check holds or fails, a wait comes to the next one, up to the last.
* `wait_bounded`: when a wait ends, with what, and after which checks.
-/

namespace NodeFeatureOperator

namespace Program

variable {α β σ : Type} {respond : Responder σ}

/-! ### Calls and their times -/

/-- The calls that a run makes with their answers, each with the time at which it was made. -/
def timetable (respond : Responder σ) : Program α → σ → Duration → List (Duration × Exchange)
  | .done _, _, _ => []
  | .call c next, s, time =>
    (time, ⟨c, (respond c s).1⟩) ::
      timetable respond (next (respond c s).1) (respond c s).2 time
  | .sleep length next, s, time => timetable respond next s (time + length)
  | .clock next, s, time => timetable respond (next time) s time

/-- Without its times, the timetable of a run is its trace. -/
theorem timetable_map_snd (p : Program α) (s : σ) (time : Duration) :
    (p.timetable respond s time).map Prod.snd = p.exchanges respond s time := by
  induction p generalizing s time with
  | done a => rfl
  | call c next ih => exact congrArg (List.cons _) (ih _ _ time)
  | sleep length next ih => exact ih s (time + length)
  | clock next ih => exact ih time s time

/-- The timetable of a run of two programs in sequence is that of the first, and then that of the
second from where the first has come to. -/
theorem timetable_bind (p : Program α) (f : α → Program β) (s : σ) (time : Duration) {a : α}
    {s' : σ} {time' : Duration} (h : p.run respond s time = (a, s', time')) :
    (p.bind f).timetable respond s time =
      p.timetable respond s time ++ (f a).timetable respond s' time' := by
  induction p generalizing s time with
  | done a =>
      obtain ⟨rfl, rfl, rfl⟩ := run_done_eq_iff.mp h
      rfl
  | call c next ih => exact congrArg (List.cons _) (ih _ _ time h)
  | sleep length next ih => exact ih s (time + length) h
  | clock next ih => exact ih time s time h

/-- No branch of a program makes a pause. -/
def Instant : Program α → Prop
  | .done _ => True
  | .call _ next => ∀ answer, (next answer).Instant
  | .sleep _ _ => False
  | .clock next => ∀ now, (next now).Instant

/-- A program that makes no pause takes no time. -/
theorem Instant.run_time {p : Program α} (h : p.Instant) (s : σ) (time : Duration) :
    (p.run respond s time).2.2 = time := by
  induction p generalizing s time with
  | done a => rfl
  | call c next ih => exact ih _ (h _) _ time
  | sleep length next ih => exact h.elim
  | clock next ih => exact ih time (h time) s time

/-- All calls of a program that makes no pause are made at one time. -/
theorem Instant.timetable_eq {p : Program α} (h : p.Instant) (s : σ) (time : Duration) :
    p.timetable respond s time = (p.exchanges respond s time).map (time, ·) := by
  induction p generalizing s time with
  | done a => rfl
  | call c next ih => exact congrArg (List.cons _) (ih _ (h _) _ time)
  | sleep length next ih => exact h.elim
  | clock next ih => exact ih time (h time) s time

end Program

/-! ### Waits -/

/-- The number of the last check of a wait that is given up: the time allowed divided by the
interval, rounded up. Numbers start at zero, so that this is one less than the number of checks. -/
def PollConfig.lastCheck (config : PollConfig) : Nat :=
  config.timeout.nanoseconds ⌈/⌉ config.interval.nanoseconds

/-- A wait: what its calls are answered by, its configuration, the name of what is waited for, the
check of each number, and the state and the time at which it begins. -/
structure Wait (σ : Type) where
  respond : Program.Responder σ
  config : PollConfig
  operation : String
  check : Nat → Program (Except Failure Bool)
  initial : σ
  start : Duration

namespace Wait

variable {σ : Type} (w : Wait σ)

/-- The program of a wait. -/
def program : Program (Except Failure Unit) := waitUntil w.config w.operation w.check

/-- The time of the check with a number: so many intervals after the start. -/
def time (k : Nat) : Duration := ⟨w.start.nanoseconds + k * w.config.interval.nanoseconds⟩

/-- The state in which the check with a number finds the cluster: all checks before it have been
run, each at its time. -/
def state : Nat → σ
  | 0 => w.initial
  | k + 1 => ((w.check k).run w.respond (state k) (w.time k)).2.1

/-- What the check with a number comes to. -/
def outcome (k : Nat) : Except Failure Bool :=
  ((w.check k).run w.respond (w.state k) (w.time k)).1

/-- The calls of the first so many checks, each check with its calls at its time. -/
def checked (count : Nat) : List (Duration × Exchange) :=
  (List.range count).flatMap fun k =>
    ((w.check k).exchanges w.respond (w.state k) (w.time k)).map (w.time k, ·)

/-- A wait ends with its check number `last`: its calls are those of the checks up to this one and
no others, it ends at the time of this check with a result, and in the state that the check
leaves. -/
structure Ends (last : Nat) (result : Except Failure Unit) : Prop where
  run_eq : w.program.run w.respond w.initial w.start = (result, w.state (last + 1), w.time last)
  timetable_eq : w.program.timetable w.respond w.initial w.start = w.checked (last + 1)

/-- A wait comes to its check number `k`: from there on it goes like the checks that are left. -/
structure ComesTo (k : Nat) : Prop where
  run_eq : w.program.run w.respond w.initial w.start =
    (checksFrom w.config w.operation w.check w.start (maxChecks - k) k).run w.respond (w.state k)
      (w.time k)
  timetable_eq : w.program.timetable w.respond w.initial w.start = w.checked k ++
    (checksFrom w.config w.operation w.check w.start (maxChecks - k) k).timetable w.respond
      (w.state k) (w.time k)

variable {w} {k : Nat}

/-- The time of the next check is an interval later. -/
theorem time_succ : w.time (k + 1) = w.time k + w.config.interval := by
  change Duration.mk _ = Duration.mk _
  rw [Nat.succ_mul, ← Nat.add_assoc]
  rfl

/-- The calls of one check more. -/
theorem checked_succ : w.checked (k + 1) = w.checked k ++
    ((w.check k).exchanges w.respond (w.state k) (w.time k)).map (w.time k, ·) := by
  rw [checked, checked, List.range_succ, List.flatMap_append, List.flatMap_singleton]

/-- What the wait does after its check number `k`. -/
def goOn (w : Wait σ) (k : Nat) : Except Failure Bool → Program (Except Failure Unit)
  | .error f => .done (.error f)
  | .ok true => .done (.ok ())
  | .ok false => .clock fun now =>
    if w.start + w.config.timeout ≤ now then
      .done (.error (.timeout w.operation w.config.timeout))
    else .sleep w.config.interval
      (checksFrom w.config w.operation w.check w.start (maxChecks - (k + 1)) (k + 1))

/-- The checks from one on are, as long as they can be counted, this one and what is done after
it. -/
theorem checksFrom_eq (h : k < maxChecks) :
    checksFrom w.config w.operation w.check w.start (maxChecks - k) k =
      (w.check k).bind (w.goOn k) := by
  have hbudget : maxChecks - k = maxChecks - (k + 1) + 1 := by omega
  rw [hbudget, checksFrom]
  refine congrArg (Program.bind _) (funext fun outcome => ?_)
  match outcome with
  | .error f => rfl
  | .ok true => rfl
  | .ok false =>
      refine congrArg Program.clock (funext fun now => ?_)
      by_cases hexpired : w.start + w.config.timeout ≤ now
      · rw [if_pos hexpired]
        exact if_pos hexpired
      · rw [if_neg hexpired]
        exact if_neg hexpired

/-! ### One check -/

/-- The beginning of a wait. -/
theorem comesTo_zero : w.ComesTo 0 := by
  have hstart : w.time 0 = w.start := by
    rw [time, Nat.zero_mul, Nat.add_zero]
  constructor
  · rw [hstart]
    rfl
  · rw [hstart]
    rfl

/-- A wait that comes to a check goes on as the outcome of this check says, from the state that the
check leaves, and at the same time. -/
theorem ComesTo.after_check (h : w.ComesTo k) (hinstant : (w.check k).Instant)
    (hk : k < maxChecks) :
    w.program.run w.respond w.initial w.start =
      (w.goOn k (w.outcome k)).run w.respond (w.state (k + 1)) (w.time k) ∧
    w.program.timetable w.respond w.initial w.start = w.checked (k + 1) ++
      (w.goOn k (w.outcome k)).timetable w.respond (w.state (k + 1)) (w.time k) := by
  have hcheck : (w.check k).run w.respond (w.state k) (w.time k) =
      (w.outcome k, w.state (k + 1), w.time k) :=
    Prod.ext rfl (Prod.ext rfl (hinstant.run_time _ _))
  constructor
  · rw [h.run_eq, checksFrom_eq hk, Program.run_bind, hcheck]
  · rw [h.timetable_eq, checksFrom_eq hk, Program.timetable_bind _ _ _ _ hcheck,
      hinstant.timetable_eq, ← List.append_assoc, ← checked_succ]

/-- A check that holds or fails ends the wait. -/
theorem ComesTo.ends {result : Except Failure Unit} (h : w.ComesTo k)
    (hinstant : (w.check k).Instant) (hk : k < maxChecks)
    (hresult : w.goOn k (w.outcome k) = .done result) : w.Ends k result := by
  obtain ⟨hrun, htimetable⟩ := h.after_check hinstant hk
  rw [hresult] at hrun htimetable
  exact ⟨hrun, htimetable.trans (List.append_nil _)⟩

/-- The time allowed is over at a check exactly if so many intervals are no less. -/
theorem expired_iff : w.start + w.config.timeout ≤ w.time k ↔
    w.config.timeout.nanoseconds ≤ k * w.config.interval.nanoseconds := by
  change w.start.nanoseconds + _ ≤ w.start.nanoseconds + _ ↔ _
  exact Nat.add_le_add_iff_left

/-- If a check does not hold and the time allowed is over, then the wait ends with a timeout. -/
theorem ComesTo.ends_expired (h : w.ComesTo k) (hinstant : (w.check k).Instant)
    (hk : k < maxChecks) (hfalse : w.outcome k = .ok false)
    (hexpired : w.config.timeout.nanoseconds ≤ k * w.config.interval.nanoseconds) :
    w.Ends k (.error (.timeout w.operation w.config.timeout)) := by
  obtain ⟨hrun, htimetable⟩ := h.after_check hinstant hk
  simp only [hfalse, goOn, Program.run, Program.timetable, if_pos (expired_iff.mpr hexpired),
    List.append_nil] at hrun htimetable
  exact ⟨hrun, htimetable⟩

/-- If a check does not hold and the time allowed is not over, then the wait comes to the next
check. -/
theorem ComesTo.succ (h : w.ComesTo k) (hinstant : (w.check k).Instant) (hk : k < maxChecks)
    (hfalse : w.outcome k = .ok false)
    (hpending : k * w.config.interval.nanoseconds < w.config.timeout.nanoseconds) :
    w.ComesTo (k + 1) := by
  have hclock : ¬ w.start + w.config.timeout ≤ w.time k :=
    fun hexpired => absurd (expired_iff.mp hexpired) (by omega)
  obtain ⟨hrun, htimetable⟩ := h.after_check hinstant hk
  simp only [hfalse, goOn, Program.run, Program.timetable, if_neg hclock, ← time_succ]
    at hrun htimetable
  exact ⟨hrun, htimetable⟩

/-! ### All checks -/

/-- The time allowed is over at a check exactly if this is the last one, or would come later. -/
theorem lastCheck_le_iff (hinterval : 0 < w.config.interval.nanoseconds) :
    w.config.lastCheck ≤ k ↔
      w.config.timeout.nanoseconds ≤ k * w.config.interval.nanoseconds := by
  rw [PollConfig.lastCheck, ceilDiv_le_iff_le_mul hinterval, Nat.mul_comm]

/-- Before the last check the time allowed is not over. -/
theorem pending_of_lt (hinterval : 0 < w.config.interval.nanoseconds)
    (hk : k < w.config.lastCheck) :
    k * w.config.interval.nanoseconds < w.config.timeout.nanoseconds :=
  Nat.lt_of_not_le fun hexpired =>
    absurd ((lastCheck_le_iff hinterval).mpr hexpired) (Nat.not_le_of_lt hk)

/-- While no check holds or fails, a wait comes to every check up to the last one. -/
theorem comesTo_of_le (hinstant : ∀ j, (w.check j).Instant)
    (hinterval : 0 < w.config.interval.nanoseconds)
    (hcount : w.config.lastCheck < maxChecks) (hk : k ≤ w.config.lastCheck)
    (hfalse : ∀ j < k, w.outcome j = .ok false) : w.ComesTo k := by
  induction k with
  | zero => exact comesTo_zero
  | succ k ih =>
      have hcomes : w.ComesTo k :=
        ih (Nat.le_of_succ_le hk) fun j hj => hfalse j (Nat.lt_succ_of_lt hj)
      exact hcomes.succ (hinstant k) (by omega) (hfalse k (Nat.lt_succ_self k))
        (pending_of_lt hinterval hk)

/-- The first check that holds or fails ends the wait, if it is one up to the last. -/
theorem ends_of_first {result : Except Failure Unit} (hinstant : ∀ j, (w.check j).Instant)
    (hinterval : 0 < w.config.interval.nanoseconds)
    (hcount : w.config.lastCheck < maxChecks) (hk : k ≤ w.config.lastCheck)
    (hfalse : ∀ j < k, w.outcome j = .ok false)
    (hresult : w.goOn k (w.outcome k) = .done result) : w.Ends k result :=
  (comesTo_of_le hinstant hinterval hcount hk hfalse).ends (hinstant k)
    (Nat.lt_of_le_of_lt hk hcount) hresult

/-- If there is none, then the wait ends with the last check and a timeout. -/
theorem ends_of_none (hinstant : ∀ j, (w.check j).Instant)
    (hinterval : 0 < w.config.interval.nanoseconds)
    (hcount : w.config.lastCheck < maxChecks)
    (hfalse : ∀ j ≤ w.config.lastCheck, w.outcome j = .ok false) :
    w.Ends w.config.lastCheck (.error (.timeout w.operation w.config.timeout)) := by
  have hcomes : w.ComesTo w.config.lastCheck :=
    comesTo_of_le hinstant hinterval hcount (Nat.le_refl _) fun j hj => hfalse j (Nat.le_of_lt hj)
  exact hcomes.ends_expired (hinstant _) hcount (hfalse _ (Nat.le_refl _))
    ((lastCheck_le_iff hinterval).mp (Nat.le_refl _))

/-- A wait with no time allowed ends with its first check. -/
theorem ends_of_no_time (hinstant : ∀ j, (w.check j).Instant)
    (hinterval : 0 < w.config.interval.nanoseconds)
    (hcount : w.config.lastCheck < maxChecks) (hnone : w.config.timeout.nanoseconds = 0) :
    ∃ result, w.Ends 0 result := by
  have hlast : w.config.lastCheck = 0 := by
    rw [PollConfig.lastCheck, hnone, zero_ceilDiv]
  have hfirst : ∀ result, w.goOn 0 (w.outcome 0) = .done result → w.Ends 0 result :=
    fun result => ends_of_first hinstant hinterval hcount (Nat.zero_le _)
      fun j hj => absurd hj (Nat.not_lt_zero j)
  match houtcome : w.outcome 0 with
  | .error f => exact ⟨.error f, hfirst _ (congrArg (w.goOn 0) houtcome)⟩
  | .ok true => exact ⟨.ok (), hfirst _ (congrArg (w.goOn 0) houtcome)⟩
  | .ok false =>
      have hexpiry := ends_of_none hinstant hinterval hcount
      rw [hlast] at hexpiry
      refine ⟨_, hexpiry fun j hj => ?_⟩
      rw [Nat.le_zero.mp hj, houtcome]

/-- The last check comes when the time allowed is over, but less than an interval later. -/
theorem time_lastCheck (hinterval : 0 < w.config.interval.nanoseconds) :
    w.start.nanoseconds + w.config.timeout.nanoseconds ≤
        (w.time w.config.lastCheck).nanoseconds ∧
      (w.time w.config.lastCheck).nanoseconds <
        w.start.nanoseconds + w.config.timeout.nanoseconds + w.config.interval.nanoseconds := by
  constructor
  · exact expired_iff.mpr ((lastCheck_le_iff hinterval).mp (Nat.le_refl _))
  · change w.start.nanoseconds + w.config.lastCheck * w.config.interval.nanoseconds < _
    cases hlast : w.config.lastCheck with
    | zero => omega
    | succ k =>
        -- the check before the last one comes too early
        have hpending : k * w.config.interval.nanoseconds < w.config.timeout.nanoseconds :=
          pending_of_lt hinterval (by omega)
        rw [Nat.succ_mul]
        omega

end Wait

/-- **A wait ends when it must.** Its checks make no pause and can be counted, and the interval is
not zero. They are made at the multiples of the interval. If one of them, up to the last, is the
first that does not answer "not yet", then the wait ends with it: well if it holds, and else with
its failure as it is. If there is none, then the wait ends with the last check, and a timeout that
carries the name of what was waited for and the time allowed; at this time as long as allowed has
passed, but less than an interval more. With no time allowed there is one check. -/
theorem wait_bounded {σ : Type} (w : Wait σ) (hinstant : ∀ k, (w.check k).Instant)
    (hinterval : 0 < w.config.interval.nanoseconds)
    (hcount : w.config.lastCheck + 1 < twoTo 32) :
    (∀ k ≤ w.config.lastCheck, (∀ j < k, w.outcome j = .ok false) →
      (w.outcome k = .ok true → w.Ends k (.ok ())) ∧
      ∀ f, w.outcome k = .error f → w.Ends k (.error f)) ∧
    ((∀ k ≤ w.config.lastCheck, w.outcome k = .ok false) →
      w.Ends w.config.lastCheck (.error (.timeout w.operation w.config.timeout)) ∧
      w.start.nanoseconds + w.config.timeout.nanoseconds ≤
        (w.time w.config.lastCheck).nanoseconds ∧
      (w.time w.config.lastCheck).nanoseconds <
        w.start.nanoseconds + w.config.timeout.nanoseconds + w.config.interval.nanoseconds) ∧
    (w.config.timeout.nanoseconds = 0 → ∃ result, w.Ends 0 result) := by
  have hlast : w.config.lastCheck < maxChecks := Nat.lt_sub_of_add_lt hcount
  refine ⟨fun k hk hfalse => ⟨fun htrue => ?_, fun f herror => ?_⟩, fun hfalse => ⟨?_, ?_⟩, ?_⟩
  · exact Wait.ends_of_first hinstant hinterval hlast hk hfalse (congrArg (w.goOn k) htrue)
  · exact Wait.ends_of_first hinstant hinterval hlast hk hfalse (congrArg (w.goOn k) herror)
  · exact Wait.ends_of_none hinstant hinterval hlast hfalse
  · exact Wait.time_lastCheck hinterval
  · exact Wait.ends_of_no_time hinstant hinterval hlast

/-- The wait for a prune Job that is seen so many times more and is then gone, with checks every two
seconds and three seconds allowed. -/
def Wait.lingering (sightings : Nat) : Wait Nat where
  respond
    | .get _ _ _, 0 => (.ok none, 0)
    | .get _ _ _, n + 1 => (.ok (some default), n)
    | _, n => (.error Store.conflict, n)
  config := { interval := .ofSeconds 2, timeout := .ofSeconds 3 }
  operation := "prune job deletion"
  check _ := pruneGone "gpu"
  initial := sightings
  start := ⟨0⟩

/-- The last check of this wait is its third, four seconds after the start. A Job that is gone by
then is still noticed, although the time allowed is over; one that is not makes it a timeout. -/
theorem wait_bounded_lingering :
    (∀ sightings k, ((Wait.lingering sightings).check k).Instant) ∧
    (∀ sightings, (Wait.lingering sightings).config.lastCheck = 2) ∧
    (Wait.lingering 2).time 2 = .ofSeconds 4 ∧
    (Wait.lingering 2).Ends 2 (.ok ()) ∧
    (Wait.lingering 3).Ends 2 (.error (.timeout "prune job deletion" (.ofSeconds 3))) := by
  have hinstant : ∀ sightings k, ((Wait.lingering sightings).check k).Instant :=
    fun _ _ _ => trivial
  have hlast : ∀ sightings, (Wait.lingering sightings).config.lastCheck = 2 := by
    intro sightings
    rw [PollConfig.lastCheck, Nat.ceilDiv_eq_add_pred_div]
    change (3 * 1000000000 + 2 * 1000000000 - 1) / (2 * 1000000000) = 2
    rfl
  have hbounded := fun sightings => wait_bounded (Wait.lingering sightings) (hinstant sightings)
    (by decide : 0 < 2 * 1000000000) (by rw [hlast]; decide)
  refine ⟨hinstant, hlast, rfl, ?_, ?_⟩
  · refine ((hbounded 2).1 2 (hlast 2).ge fun j hj => ?_).1 rfl
    match j, hj with
    | 0, _ => rfl
    | 1, _ => rfl
  · have hexpiry := (hbounded 3).2.1
    rw [hlast] at hexpiry
    refine (hexpiry fun k hk => ?_).1
    match k, hk with
    | 0, _ => rfl
    | 1, _ => rfl
    | 2, _ => rfl

end NodeFeatureOperator
