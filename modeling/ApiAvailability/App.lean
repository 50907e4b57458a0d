import ApiAvailability.Config.Basic
import ApiAvailability.Pass.Loop
import ApiAvailability.Store.StatusFile

/-!
# App — the operator on files

The operator keeps all it works with below one directory: the objects in `apiservices`, its record
in `status.json`. Its three commands are one pass, passes without end, and a look at the condition
that the passes write.
-/

namespace ApiAvailability

open Files

/-- **Why a command fails.** -/
inductive AppError where
  /-- The reconciler could not be built. -/
  | notBuilt (e : PassError)
  /-- The pass failed. -/
  | passFailed (e : PassError)
  /-- The loop of passes gave up. -/
  | gaveUp (e : PassError)
  /-- The record could not be read. -/
  | unreadable (path : Path) (e : StoreError)
  deriving DecidableEq

/-- A failure, and the failure of a store behind it. -/
def PassError.chain (e : PassError) : List String :=
  e.message :: (e.source?.map StoreError.message).toList

/-- What is said of a failure, the outermost words first, then cause after cause. -/
def AppError.chain : AppError → List String
  | notBuilt e => "Failed to build reconciler" :: e.chain
  | passFailed e => "Reconciliation pass failed" :: e.chain
  | gaveUp e => "Reconciliation loop gave up" :: e.chain
  | unreadable path e => ["Failed to read " ++ path.text, e.message]

/-- **The operator**, ready for its commands. -/
structure App (m : Type → Type) where
  reconciler : Reconciler m
  system : FileSystem m
  statusFile : StatusFile
  plan : LoopPlan

namespace App

/-- The directory of the objects, below the directory of all. -/
def objectsName : String := "apiservices"

/-- The file of the record, below the directory of all. -/
def statusName : String := "status.json"

/-- The plan of passes of a configuration. -/
def planOf (c : Config) : LoopPlan :=
  ⟨1000 * c.syncIntervalSecs.toNat, c.maxConsecutiveErrors.toNat, false⟩

variable {m : Type → Type} [Monad m]

/-- **The operator of a configuration**, which keeps everything below `dir`. -/
def new (fs : FileSystem m) (recordEvent : Event → m Unit) (c : Config) (dir : Path) :
    Except AppError (App m) :=
  let statusFile : StatusFile := ⟨dir.join statusName⟩
  let parts : Parts m := {
    registry := some (Directory.registry fs ⟨dir.join objectsName⟩)
    provider := some (pure (.ok c.desired))
    precondition := none
    status := some (statusFile.store fs)
    recordVersion := some (statusFile.setVersion fs)
    recordEvent := some recordEvent }
  match Reconciler.build c.component c.operandVersion parts with
  | .error e => .error (.notBuilt e)
  | .ok reconciler => .ok ⟨reconciler, fs, statusFile, planOf c⟩

variable (app : App m)

/-- **One pass**: whether all API services are available. -/
def sync (now : Time.Timestamp) : m (Except AppError Bool) := do
  match ← app.reconciler.sync now with
  | .error e => return .error (.passFailed e)
  | .ok outcome => return .ok outcome.converged

/-- **The condition in the record**, if there is one. -/
def status : m (Except AppError (Option OperatorCondition)) := do
  match ← app.statusFile.load app.system with
  | .error e => return .error (.unreadable app.statusFile.path e)
  | .ok state => return .ok (state.status.condition? Verdict.conditionType)

/-- **Passes up to the time `limit`**, at times that `clock` reads, each after waiting until it is
due, in milliseconds after the first: the failure they ended with, or whether they ended by
themselves. -/
def run (limit : Nat) (wait : Nat → m Unit) (clock : m Time.Timestamp) :
    m (Except AppError Bool) := do
  let pass (n : Nat) : m (Except PassError PassOutcome × Bool) := do
    wait (n * app.plan.interval)
    return (← app.reconciler.sync (← clock), false)
  match ← app.plan.run limit pass with
  | some (.gaveUp e, _) => return .error (.gaveUp e)
  | some (.stopped, _) => return .ok true
  | _ => return .ok false

end App

end ApiAvailability
