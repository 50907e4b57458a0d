import Std.Data.ExtTreeMap

/-!
# ApiService/Basic — registrations of API services

An API service makes one version of an API group available through a backing service. Its object
holds what was asked for (`Spec`) and what was reported about it (its conditions, of which the first
of type `Available` counts). A `Desired` is an API service that should be registered; its identity
is `<version>.<group>`.

- `Desired.name_toObject` — the object of a desired API service carries its identity
- `Health.ofObject_eq_available_iff` — what it takes for an object to be available
-/

namespace ApiAvailability

/-- The resource that API service objects belong to. -/
def resourceName : String := "apiservices.apiregistration.k8s.io"

/-- Whether a condition holds. -/
inductive ConditionStatus where
  | true | false | unknown
  deriving DecidableEq, Inhabited

namespace ConditionStatus

/-- The name of a status. -/
def name : ConditionStatus → String
  | true => "True"
  | false => "False"
  | unknown => "Unknown"

/-- All statuses. -/
def all : List ConditionStatus := [true, false, unknown]

/-- The status of a name. -/
def ofName? (s : String) : Option ConditionStatus := all.find? (·.name == s)

@[simp] theorem ofName?_name (s : ConditionStatus) : ofName? s.name = some s := by
  cases s <;> decide

end ConditionStatus

/-- **A condition that an API service reports.** -/
structure ServiceCondition where
  type : String
  status : ConditionStatus
  reason : Option String
  message : Option String
  deriving DecidableEq

/-- The service that serves an API. -/
structure ServiceReference where
  «namespace» : String
  name : String
  deriving DecidableEq

/-- What an API service registers. -/
structure Spec where
  group : String
  version : String
  service : ServiceReference
  groupPriorityMinimum : Int32
  versionPriority : Int32
  deriving DecidableEq

/-- Annotations, by their keys. -/
abbrev Annotations := Std.ExtTreeMap String String compare

/-- What every object has: its name, and notes for other programs. -/
structure Metadata where
  name : String
  annotations : Annotations
  deriving DecidableEq

/-- **An API service object**: what it registers and what is reported about it. -/
structure ApiService where
  metadata : Metadata
  spec : Spec
  conditions : List ServiceCondition
  deriving DecidableEq

namespace ApiService

/-- The object's name. -/
def name (o : ApiService) : String := o.metadata.name

/-- The condition type under which an API service reports that it is serving. -/
def availableType : String := "Available"

/-- The first condition of type `Available`. -/
def availableCondition? (o : ApiService) : Option ServiceCondition :=
  o.conditions.find? (·.type == availableType)

/-- The object with other conditions. -/
def withConditions (o : ApiService) (cs : List ServiceCondition) : ApiService :=
  { o with conditions := cs }

end ApiService

/-! ## Availability of an object -/

/-- Whether an API service is serving, and its own words if it is not. -/
inductive Health where
  | available
  | unavailable (message : String)
  deriving DecidableEq

namespace Health

/-- What is said of an object that reports no condition of type `Available`. -/
def noCondition : String := "no Available condition reported"

/-- **The availability that an object reports.** -/
def ofObject (o : ApiService) : Health :=
  match o.availableCondition? with
  | none => unavailable noCondition
  | some c => if c.status = .true then available else unavailable (c.message.getD "")

theorem ofObject_eq_available_iff {o : ApiService} :
    ofObject o = available ↔ ∃ c, o.availableCondition? = some c ∧ c.status = .true := by
  unfold ofObject
  cases h : o.availableCondition? with
  | none => simp
  | some c => by_cases hs : c.status = .true <;> simp [hs]

end Health

/-! ## Desired API services -/

/-- The annotation that asks for the bundle of certificates to be put into the object. -/
def bundleAnnotation : String := "service.alpha.openshift.io/inject-cabundle"

/-- The priority of a group when none is given. -/
def defaultGroupPriorityMinimum : Int32 := 9900

/-- The priority of a version in its group when none is given. -/
def defaultVersionPriority : Int32 := 15

/-- The identity of an API service. -/
def identity (group version : String) : String := version ++ "." ++ group

/-- **An API service that should be registered.** -/
structure Desired where
  name : String
  annotations : Annotations
  spec : Spec
  deriving DecidableEq

namespace Desired

/-- The desired API service of a group and version, with the usual priorities. -/
def new (group version : String) (service : ServiceReference) : Desired where
  name := identity group version
  annotations := (∅ : Annotations).insert bundleAnnotation "true"
  spec := ⟨group, version, service, defaultGroupPriorityMinimum, defaultVersionPriority⟩

/-- The same with other priorities. -/
def withPriorities (d : Desired) (groupPriorityMinimum versionPriority : Int32) : Desired :=
  { d with spec := { d.spec with groupPriorityMinimum, versionPriority } }

/-- The object to create when there is none of that name. -/
def toObject (d : Desired) : ApiService := ⟨⟨d.name, d.annotations⟩, d.spec, []⟩

@[simp] theorem name_toObject (d : Desired) : d.toObject.name = d.name := rfl

end Desired

end ApiAvailability
