import NodeFeatureOperator.Cluster.Program
import NodeFeatureOperator.Power

/-!
# Bounded polling

Waiting for a condition by checking it again and again. The first check runs at once; a check that
fails ends the wait with its failure; a wait that has lasted as long as allowed ends with a timeout,
but only after a last check.

## Main definitions

* `PollConfig`: the delay between checks and the time allowed.
* `waitUntil`: the wait.
-/

namespace NodeFeatureOperator

/-- The delay between checks, and the time after which a wait is given up. -/
structure PollConfig where
  interval : Duration := Duration.ofSeconds 2
  timeout : Duration := Duration.ofSeconds 30
deriving DecidableEq, Repr, Inhabited

/-- The number of checks that a 32-bit counter can count. -/
def maxChecks : Nat := twoTo 32 - 1

/-- The checks from the one with number `index` on, of a wait that began at `start`. -/
def checksFrom (config : PollConfig) (operation : String)
    (check : Nat → Program (Except Failure Bool)) (start : Duration) :
    Nat → Nat → Program (Except Failure Unit)
  | 0, _ => pure (.error (.timeout operation config.timeout))
  | budget + 1, index => do
    match ← check index with
    | .error f => pure (.error f)
    | .ok true => pure (.ok ())
    | .ok false =>
      let now ← Program.now
      if start + config.timeout ≤ now then pure (.error (.timeout operation config.timeout))
      else
        Program.pause config.interval
        checksFrom config operation check start budget (index + 1)

/-- Waits until a check holds. The check is given its number, which starts at zero. -/
def waitUntil (config : PollConfig) (operation : String)
    (check : Nat → Program (Except Failure Bool)) : Program (Except Failure Unit) := do
  let start ← Program.now
  checksFrom config operation check start maxChecks 0

end NodeFeatureOperator
