import ApiAvailability.Pass.Reconciler

/-!
# Pass/Loop — pass after pass

A loop begins a pass at time zero and after every interval. It ends when a pass fails and the loop
is to stop at the first failure, when enough passes in a row have failed, or after a pass during
which it is asked to stop. A pass that does not fail, whatever comes of it, sets the count back.

- `LoopPlan.after` — what a loop does after one pass
- `LoopPlan.run` — the loop up to a time limit, for passes that take no time
-/

namespace ApiAvailability

/-- **How a loop goes.** -/
structure LoopPlan where
  /-- Milliseconds between the beginnings of two passes. -/
  interval : Nat
  /-- The loop gives up after so many failed passes in a row. -/
  maxErrors : Nat
  /-- Whether the loop gives up at the first failed pass. -/
  stopOnError : Bool

/-- How a loop ended. -/
inductive LoopEnd where
  /-- It gave up. -/
  | gaveUp (e : PassError)
  /-- It was asked to stop. -/
  | stopped
  /-- It was still going on at the time limit. -/
  | cutOff
  deriving DecidableEq

namespace LoopPlan

/-- The usual plan: every thirty seconds, up to ten failed passes in a row. -/
def usual : LoopPlan := ⟨30000, 10, false⟩

/-- What is said when too many passes in a row have failed. -/
def tooMany (p : LoopPlan) : PassError :=
  .reconcileFailed ("Max errors (" ++ toString p.maxErrors ++ ") reached")

/-- **What a loop does after a pass**, when `failed` passes in a row had failed before: it gives up,
or goes on with another number of failed passes in a row. -/
def after (p : LoopPlan) (failed : Nat) : Except PassError PassOutcome → Except PassError Nat
  | .ok _ => .ok 0
  | .error e =>
    if p.stopOnError then .error e
    else if p.maxErrors ≤ failed + 1 then .error p.tooMany
    else .ok (failed + 1)

variable {m : Type → Type} [Monad m]

/-- The passes from number `n` on, at most `fuel` of them. `pass` tells what came of a pass and
whether the loop was asked to stop during it. Returns how the loop ended and the number of the last
pass begun. -/
def runFrom (p : LoopPlan) (pass : Nat → m (Except PassError PassOutcome × Bool)) (n failed : Nat) :
    Nat → m (LoopEnd × Nat)
  | 0 => return (.cutOff, n - 1)
  | fuel + 1 => do
    let (result, asked) ← pass n
    match p.after failed result with
    | .error e => return (.gaveUp e, n)
    | .ok failed => if asked then return (.stopped, n) else runFrom p pass (n + 1) failed fuel

/-- **The loop up to the time `limit`**, for passes that take no time: how it ended, and when. A
loop without an interval does not begin. -/
def run (p : LoopPlan) (limit : Nat) (pass : Nat → m (Except PassError PassOutcome × Bool)) :
    m (Option (LoopEnd × Nat)) := do
  if p.interval = 0 then return none
  let (ending, n) ← p.runFrom pass 0 0 (limit / p.interval + 1)
  return some (ending, if ending = .cutOff then limit else n * p.interval)

end LoopPlan

end ApiAvailability
