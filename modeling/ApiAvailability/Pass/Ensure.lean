import ApiAvailability.Observation.Verdict
import ApiAvailability.Store.Interface

/-!
# Pass/Ensure — making sure that objects exist, and reading them back

An object is looked for first and made only when it is missing, so that one that is there is never
written. Each of the two is one call of the registry, after which others may get their turn; that
the object came to be there in between is as good as having made it. An object that is there is then
read back for its availability.

A failure to ensure or to fetch concerns one API service and becomes part of the verdict; other
failures end a pass, or the loop of passes. The wording of each cause is in `PassError.message`.
-/

namespace ApiAvailability

/-! ## Failures -/

/-- **Why a pass, or a part of one, fails.** -/
inductive PassError where
  /-- It could not be told whether the pass may begin. -/
  | preconditionFailed (reason : String)
  /-- The desired API services are not known. -/
  | providerFailed (reason : String)
  /-- The operator's record cannot be read. -/
  | statusReadFailed (source : StoreError)
  /-- The verdict cannot be written to the operator's record. -/
  | statusWriteFailed (source : StoreError)
  /-- It could not be made sure that an object exists. -/
  | ensure (name : String) (source : StoreError)
  /-- An object cannot be read back. -/
  | fetch (name : String) (source : StoreError)
  /-- The loop of passes gave up. -/
  | reconcileFailed (reason : String)
  /-- A reconciler cannot be built. -/
  | invalidConfig (reason : String)
  deriving DecidableEq

namespace PassError

/-- The text of a cause. -/
def message : PassError → String
  | preconditionFailed reason => "precondition check failed: " ++ reason
  | providerFailed reason => "failed to get desired api services: " ++ reason
  | statusReadFailed source => "failed to read operator status: " ++ source.message
  | statusWriteFailed source => "failed to update operator status: " ++ source.message
  | ensure _ source => source.message
  | fetch _ source => source.message
  | reconcileFailed reason => "reconciliation failed: " ++ reason
  | invalidConfig reason => "invalid configuration: " ++ reason

/-- The failure of a store behind a cause. -/
def source? : PassError → Option StoreError
  | statusReadFailed source => some source
  | statusWriteFailed source => some source
  | ensure _ source => some source
  | fetch _ source => some source
  | _ => none

end PassError

/-- How an object came to be there. -/
inductive Ensured where
  | created | alreadyExisted
  deriving DecidableEq

/-! ## Events -/

/-- An object was made. -/
def Event.created (d : Desired) : Event :=
  ⟨.normal, "ApiServiceCreated", "Created APIService " ++ d.name ++ " because it was missing"⟩

/-- An object could not be looked for. -/
def Event.getFailed (d : Desired) (e : StoreError) : Event :=
  ⟨.warning, "ApiServiceGetFailed", "Failed to read APIService " ++ d.name ++ ": " ++ e.message⟩

/-- An object could not be made. -/
def Event.createFailed (d : Desired) (e : StoreError) : Event :=
  ⟨.warning, "ApiServiceCreateFailed",
    "Failed to create APIService " ++ d.name ++ ": " ++ e.message⟩

variable {m : Type → Type} [Monad m] (registry : Registry m) (record : Event → m Unit)

namespace Desired

/-! ## Ensuring -/

/-- **Looks for the object**: how it came to be there, why that cannot be told, or nothing when it
is missing. -/
def look (d : Desired) : m (Option (Except StoreError Ensured)) := do
  match ← registry.get d.name with
  | .ok _ => return some (.ok .alreadyExisted)
  | .error e =>
    if e.isNotFound then return none
    else
      record (.getFailed d e)
      return some (.error e)

/-- **Makes the object**, unless another has done so first. -/
def make (d : Desired) : m (Except StoreError Ensured) := do
  match ← registry.create d.toObject with
  | .ok _ =>
    record (.created d)
    return .ok .created
  | .error e =>
    if e.isAlreadyExists then return .ok .alreadyExisted
    else
      record (.createFailed d e)
      return .error e

/-- **Makes sure that the object exists.** -/
def ensure (d : Desired) : m (Except StoreError Ensured) := do
  match ← d.look registry record with
  | some result => return result
  | none => d.make registry record

/-! ## Fetching -/

/-- **Reads the object back** for its availability. -/
def fetch (d : Desired) : m (Except StoreError Health) := do
  match ← registry.get d.name with
  | .ok o => return .ok (.ofObject o)
  | .error e => return .error e

end Desired

/-- What reading an object back means for the observation. -/
def Outcome.ofFetched : Except StoreError Health → Outcome
  | .ok .available => available
  | .ok (.unavailable text) => unavailable text
  | .error e => fetchFailed e.message

/-- The observation of a desired API service whose object could not be ensured. -/
def Observation.ofEnsured? : Desired × Except StoreError Ensured → Option Observation
  | (_, .ok _) => none
  | (d, .error e) => some ⟨d.name, .ensureFailed e.message⟩

/-- The desired API service, if its object could be ensured. -/
def ready? : Desired × Except StoreError Ensured → Option Desired
  | (d, .ok _) => some d
  | (_, .error _) => none

/-- Makes sure of every object, one after the other. -/
def ensureAll (ds : List Desired) : m (List (Desired × Except StoreError Ensured)) :=
  ds.mapM fun d => return (d, ← d.ensure registry record)

/-- Reads every object back, one after the other. -/
def fetchAll (ds : List Desired) : m (List (Desired × Except StoreError Health)) :=
  ds.mapM fun d => return (d, ← d.fetch registry)

/-- **One observation for each desired API service**: first those whose object could not be ensured,
then those whose object was read back. -/
def observe (ds : List Desired) : m (List Observation) := do
  let ensured ← ensureAll registry record ds
  let fetched ← fetchAll registry (ensured.filterMap ready?)
  return ensured.filterMap Observation.ofEnsured? ++
    fetched.map fun (d, r) => ⟨d.name, .ofFetched r⟩

end ApiAvailability
