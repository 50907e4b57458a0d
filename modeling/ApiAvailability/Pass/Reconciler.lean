import ApiAvailability.Observation.Verdict
import ApiAvailability.Pass.Ensure

/-!
# Pass/Reconciler — one pass

    read the record → is the operator managed → precondition → desired API services
      → ensure all → fetch the ensured → verdict → write the condition
      → record the version, if the verdict is positive

What goes wrong with one API service becomes part of the verdict. Only a failure of the record, of
the precondition or of the provider ends a pass, and such a pass writes no condition.
-/

namespace ApiAvailability

/-- Why a pass did nothing. -/
inductive SkipReason where
  | unmanaged | removed | preconditionNotMet
  deriving DecidableEq

namespace SkipReason

/-- The name of a reason. -/
def name : SkipReason → String
  | unmanaged => "Unmanaged"
  | removed => "Removed"
  | preconditionNotMet => "PreconditionNotMet"

end SkipReason

/-- **What came of a pass** that did not fail. -/
inductive PassOutcome where
  /-- The pass did nothing. -/
  | skipped (reason : SkipReason)
  /-- The verdict was written. -/
  | reconciled (verdict : Verdict)
  deriving DecidableEq

namespace PassOutcome

/-- Whether every desired API service is available. -/
def converged : PassOutcome → Bool
  | skipped _ => false
  | reconciled v => v.isAvailable

/-- The verdict, if there is one. -/
def verdict? : PassOutcome → Option Verdict
  | skipped _ => none
  | reconciled v => some v

end PassOutcome

/-- Why a pass does nothing in a management state, if it does nothing. -/
def ManagementState.skip? : ManagementState → Option SkipReason
  | managed => none
  | unmanaged => some .unmanaged
  | removed => some .removed

/-- A failure of the precondition: its own, or any other in words. -/
def PassError.asPrecondition : PassError → PassError
  | preconditionFailed reason => preconditionFailed reason
  | e => preconditionFailed e.message

/-- A failure of the provider: its own, or any other in words. -/
def PassError.asProvider : PassError → PassError
  | providerFailed reason => providerFailed reason
  | e => providerFailed e.message

/-- **A reconciler**: whom it works with, and what it records once all is available. -/
structure Reconciler (m : Type → Type) where
  registry : Registry m
  /-- The desired API services. -/
  provider : m (Except PassError (List Desired))
  /-- Whether a pass may go on. -/
  precondition : m (Except PassError Bool)
  status : StatusStore m
  /-- Records the version of a component. -/
  recordVersion : String → String → m Unit
  /-- Tells what happened. -/
  recordEvent : Event → m Unit
  component : String
  operandVersion : String

namespace Reconciler

variable {m : Type → Type} [Monad m] (r : Reconciler m)

/-- The part of a pass that works on objects: an observation for each desired API service. -/
def observe (ds : List Desired) : m (List Observation) :=
  ApiAvailability.observe r.registry r.recordEvent ds

/-- The part of a pass that writes: the verdict, and the version if it is positive. -/
def report (now : Time.Timestamp) (v : Verdict) : m (Except PassError PassOutcome) := do
  match ← r.status.upsert (v.toCondition now) with
  | .error e => return .error (.statusWriteFailed e)
  | .ok () =>
    if v.isAvailable then r.recordVersion r.component r.operandVersion
    return .ok (.reconciled v)

/-- **One pass**, at time `now`. -/
def sync (now : Time.Timestamp) : m (Except PassError PassOutcome) := do
  match ← r.status.read with
  | .error e => return .error (.statusReadFailed e)
  | .ok state =>
    match state.managementState.skip? with
    | some reason => return .ok (.skipped reason)
    | none =>
      match ← r.precondition with
      | .error e => return .error e.asPrecondition
      | .ok false => return .ok (.skipped .preconditionNotMet)
      | .ok true =>
        match ← r.provider with
        | .error e => return .error e.asProvider
        | .ok ds => r.report now (aggregate (← r.observe ds))

end Reconciler

/-! ## Building a reconciler -/

/-- **The parts of a reconciler**, some of which may be missing. -/
structure Parts (m : Type → Type) where
  registry : Option (Registry m)
  provider : Option (m (Except PassError (List Desired)))
  precondition : Option (m (Except PassError Bool))
  status : Option (StatusStore m)
  recordVersion : Option (String → String → m Unit)
  recordEvent : Option (Event → m Unit)

/-- A part that has to be there. -/
def Parts.need {α : Type} (what : String) : Option α → Except PassError α
  | some part => .ok part
  | none => .error (.invalidConfig (what ++ " is required"))

/-- **A reconciler from its parts.** Without a precondition every pass may go on, and without a
recorder events are passed over; the other parts have to be there. -/
def Reconciler.build {m : Type → Type} [Monad m] (component operandVersion : String)
    (parts : Parts m) : Except PassError (Reconciler m) := do
  return {
    registry := ← Parts.need "APIService client" parts.registry
    provider := ← Parts.need "desired APIService provider" parts.provider
    status := ← Parts.need "operator status store" parts.status
    recordVersion := ← Parts.need "version recorder" parts.recordVersion
    precondition := parts.precondition.getD (pure (.ok true))
    recordEvent := parts.recordEvent.getD fun _ => pure ()
    component
    operandVersion }

end ApiAvailability
