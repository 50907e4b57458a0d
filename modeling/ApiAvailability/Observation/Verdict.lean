import ApiAvailability.Operator.State

/-!
# Observation/Verdict — one condition out of all observations

Every desired API service is observed once in a pass, with one of four outcomes, and the
observations are summed up in a verdict. It is positive when all are; otherwise it lists what is
wrong, a line for each failing API service, in the order of the lines. A cause is made to fit on its
line by putting a blank for every line break in it. Equal lines are kept.

- `aggregate_failures` — the failures of a verdict are those of the observations, sorted
- `aggregate_status` — a verdict is positive exactly when there is no failure
-/

namespace ApiAvailability

/-! ## Observations -/

/-- **What a pass learned** about one API service. -/
inductive Outcome where
  /-- It could not be made sure that the object exists. -/
  | ensureFailed (cause : String)
  /-- The object could not be read back. -/
  | fetchFailed (cause : String)
  /-- The object is there but not serving, in its own words. -/
  | unavailable (text : String)
  /-- The object is there and serving. -/
  | available
  deriving DecidableEq

namespace Outcome

/-- Whether the API service is serving. -/
def isAvailable : Outcome → Bool
  | available => true
  | _ => false

/-- What is wrong, if anything is. -/
def complaint? : Outcome → Option String
  | ensureFailed cause => some cause
  | fetchFailed cause => some cause
  | unavailable text => some ("not available: " ++ text)
  | available => none

@[simp] theorem complaint?_eq_none_iff {o : Outcome} : o.complaint? = none ↔ o = available := by
  cases o <;> simp [complaint?]

end Outcome

/-- **An observation**: the API service and what was learned about it. -/
structure Observation where
  name : String
  outcome : Outcome
  deriving DecidableEq

/-! ## Verdicts -/

/-- A text on one line: a blank for every carriage return and line feed. -/
def oneLine (s : String) : String := s.map fun c => if c = '\r' ∨ c = '\n' then ' ' else c

/-- **A failing API service** and what is wrong with it. -/
structure Failure where
  name : String
  cause : String
  deriving DecidableEq

namespace Failure

/-- The line that tells of a failure. -/
def line (f : Failure) : String := resourceName ++ "/" ++ f.name ++ ": " ++ f.cause

/-- The failure that an observation tells of, if it does. -/
def ofObservation? (o : Observation) : Option Failure :=
  o.outcome.complaint?.map fun text => ⟨o.name, oneLine text⟩

/-- Whether one failure's line comes before another's, or they are equal. -/
def lineLe (a b : Failure) : Bool := a.line ≤ b.line

end Failure

/-- **The verdict** over the observations of a pass. -/
structure Verdict where
  status : ConditionStatus
  reason : Option String
  message : Option String
  failures : List Failure
  deriving DecidableEq

namespace Verdict

/-- The condition that the verdict is written to. -/
def conditionType : String := "APIServicesAvailable"

/-- The reason of every verdict that is not positive. -/
def errorReason : String := "Error"

/-- Whether the verdict is positive. -/
def isAvailable (v : Verdict) : Bool := v.status = .true

/-- The lines of the message. -/
def lines (v : Verdict) : List String :=
  match v.message with
  | some m => (m.toList.splitOn '\n').map String.ofList
  | none => []

/-- The operator's condition that states the verdict at time `now`. -/
def toCondition (v : Verdict) (now : Time.Timestamp) : OperatorCondition :=
  ⟨conditionType, v.status, v.reason, v.message, now⟩

/-- The verdict over failures that are in order. -/
def ofFailures : List Failure → Verdict
  | [] => ⟨.true, none, none, []⟩
  | fs => ⟨.false, some errorReason, some ("\n".intercalate (fs.map Failure.line)), fs⟩

@[simp] theorem failures_ofFailures (fs : List Failure) : (ofFailures fs).failures = fs := by
  cases fs <;> rfl

end Verdict

/-- **The verdict over the observations of a pass.** -/
def aggregate (os : List Observation) : Verdict :=
  .ofFailures ((os.filterMap Failure.ofObservation?).mergeSort Failure.lineLe)

theorem aggregate_failures (os : List Observation) :
    (aggregate os).failures = (os.filterMap Failure.ofObservation?).mergeSort Failure.lineLe :=
  Verdict.failures_ofFailures _

theorem aggregate_status (os : List Observation) :
    (aggregate os).status = if (aggregate os).failures = [] then .true else .false := by
  rw [aggregate_failures, aggregate]
  cases (os.filterMap Failure.ofObservation?).mergeSort Failure.lineLe <;> rfl

end ApiAvailability
