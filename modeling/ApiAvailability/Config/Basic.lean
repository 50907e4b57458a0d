import ApiAvailability.ApiService.Basic

/-!
# Config/Basic — what the operator is told to do

A configuration names the API services to keep registered, the service behind them all, and the
version that is recorded once all are available.

- `Config.desired` — the desired API services of a configuration, one for each entry, in order
-/

namespace ApiAvailability

/-- **An entry**: an API service to keep registered. -/
structure Entry where
  group : String
  version : String
  groupPriorityMinimum : Option Int32
  versionPriority : Option Int32
  deriving DecidableEq

namespace Entry

/-- The identity of the API service. -/
def name (e : Entry) : String := identity e.group e.version

/-- The priority of the group. -/
def groupPriority (e : Entry) : Int32 := e.groupPriorityMinimum.getD defaultGroupPriorityMinimum

/-- The priority of the version in its group. -/
def priority (e : Entry) : Int32 := e.versionPriority.getD defaultVersionPriority

/-- The desired API service, behind which `service` stands. -/
def toDesired (e : Entry) (service : ServiceReference) : Desired :=
  (Desired.new e.group e.version service).withPriorities e.groupPriority e.priority

@[simp] theorem name_toDesired (e : Entry) (service : ServiceReference) :
    (e.toDesired service).name = e.name := rfl

end Entry

/-- **A configuration of the operator.** -/
structure Config where
  /-- The name under which the version is recorded. -/
  component : String
  /-- The version that is recorded once all API services are available. -/
  operandVersion : String
  /-- The namespace of the service behind the API services. -/
  targetNamespace : String
  /-- The name of that service. -/
  serviceName : String
  /-- Seconds between two passes. -/
  syncIntervalSecs : UInt64
  /-- After so many failed passes in a row the loop gives up. -/
  maxConsecutiveErrors : UInt64
  apiServices : List Entry
  deriving DecidableEq

namespace Config

/-- The component when none is given. -/
def defaultComponent : String := "openshift-apiserver"

/-- The namespace when none is given. -/
def defaultTargetNamespace : String := "openshift-apiserver"

/-- The service when none is given. -/
def defaultServiceName : String := "api"

/-- The seconds between two passes when none are given. -/
def defaultSyncIntervalSecs : UInt64 := 30

/-- The failed passes in a row when none are given. -/
def defaultMaxConsecutiveErrors : UInt64 := 10

/-- The service behind the API services. -/
def service (c : Config) : ServiceReference := ⟨c.targetNamespace, c.serviceName⟩

/-- The identities of the API services. -/
def names (c : Config) : List String := c.apiServices.map Entry.name

/-- **The desired API services.** -/
def desired (c : Config) : List Desired := c.apiServices.map (·.toDesired c.service)

theorem map_name_desired (c : Config) : c.desired.map Desired.name = c.names := by
  simp [desired, names, Function.comp_def]

end Config

end ApiAvailability
