import ApiAvailability.ApiService.Basic
import ApiAvailability.Time.Timestamp

/-!
# Operator/State — the operator's own record

The record says whether the operator is to act at all, and holds its conditions and the versions of
its components. It is shared with other writers, so a write concerns one entry only: the first one
of its key is replaced in its place, or a new one is added at the end (`upsert`).

- `upsert_find?` — after a write the key is found, and what is found is what was written
-/

namespace ApiAvailability

/-! ## Writing one entry of a list -/

section Upsert

variable {α : Type} (key : α → String)

/-- **One entry is written**: the first entry with `entry`'s key gives way to `merge old entry`, or
`entry` is added at the end if there is none. -/
def upsert (merge : α → α → α) (entry : α) : List α → List α
  | [] => [entry]
  | old :: rest =>
    if key old = key entry then merge old entry :: rest else old :: upsert merge entry rest

variable {key} {merge : α → α → α} {entry : α}

/-- What is found under the key after a write. -/
theorem upsert_find? (hmerge : ∀ old, key (merge old entry) = key entry) (xs : List α) :
    (upsert key merge entry xs).find? (key · == key entry) =
      some ((xs.find? (key · == key entry)).elim entry (merge · entry)) := by
  induction xs with
  | nil => simp [upsert]
  | cons x xs ih =>
    by_cases h : key x = key entry
    · simp [upsert, h, hmerge]
    · simp [upsert, h, ih]

/-- Entries of other keys are found as before. -/
theorem upsert_find?_of_ne (hmerge : ∀ old, key (merge old entry) = key entry) {k : String}
    (hk : key entry ≠ k) (xs : List α) :
    (upsert key merge entry xs).find? (key · == k) = xs.find? (key · == k) := by
  induction xs with
  | nil => simp [upsert, hk]
  | cons x xs ih =>
    by_cases h : key x = key entry
    · simp [upsert, h, hmerge, hk]
    · simp [upsert, h, List.find?_cons, ih]

end Upsert

/-! ## The record -/

/-- Whether the operator is to act. -/
inductive ManagementState where
  | managed | unmanaged | removed
  deriving DecidableEq, Inhabited

namespace ManagementState

/-- The name of a management state. -/
def name : ManagementState → String
  | managed => "Managed"
  | unmanaged => "Unmanaged"
  | removed => "Removed"

/-- All management states. -/
def all : List ManagementState := [managed, unmanaged, removed]

/-- The management state of a name. -/
def ofName? (s : String) : Option ManagementState := all.find? (·.name == s)

@[simp] theorem ofName?_name (s : ManagementState) : ofName? s.name = some s := by
  cases s <;> decide

end ManagementState

/-- **A condition of the operator**, with the time at which its status last changed. -/
structure OperatorCondition where
  type : String
  status : ConditionStatus
  reason : Option String
  message : Option String
  lastTransitionTime : Time.Timestamp
  deriving DecidableEq

namespace OperatorCondition

/-- Whether two conditions say the same, whenever they came to. -/
def sameState (a b : OperatorCondition) : Bool :=
  a.type = b.type && a.status = b.status && a.reason = b.reason && a.message = b.message

/-- What becomes of an entry when a condition of its type is written: the condition, which keeps the
entry's time if the status is still the same. -/
def supersede (old new : OperatorCondition) : OperatorCondition :=
  { new with
    lastTransitionTime :=
      if old.status = new.status then old.lastTransitionTime else new.lastTransitionTime }

@[simp] theorem type_supersede (old new : OperatorCondition) :
    (old.supersede new).type = new.type := rfl

end OperatorCondition

/-- The version at which a component was last fully reconciled. -/
structure ComponentVersion where
  name : String
  version : String
  deriving DecidableEq

/-- What is reported about the operator. -/
structure OperatorStatus where
  conditions : List OperatorCondition
  versions : List ComponentVersion
  deriving DecidableEq

namespace OperatorStatus

/-- The first condition of a type. -/
def condition? (s : OperatorStatus) (type : String) : Option OperatorCondition :=
  s.conditions.find? (·.type == type)

/-- The first version of a component. -/
def version? (s : OperatorStatus) (name : String) : Option String :=
  (s.versions.find? (·.name == name)).map (·.version)

/-- Writes one condition. -/
def setCondition (s : OperatorStatus) (c : OperatorCondition) : OperatorStatus :=
  { s with conditions := upsert (·.type) OperatorCondition.supersede c s.conditions }

/-- Whether writing the condition changes more than a time. -/
def isChangedBy (s : OperatorStatus) (c : OperatorCondition) : Bool :=
  match s.condition? c.type with
  | some old => !old.sameState c
  | none => true

/-- Writes the version of one component. -/
def setVersion (s : OperatorStatus) (name version : String) : OperatorStatus :=
  { s with versions := upsert (·.name) (fun _ new => new) ⟨name, version⟩ s.versions }

theorem condition?_setCondition (s : OperatorStatus) (c : OperatorCondition) :
    (s.setCondition c).condition? c.type =
      some ((s.condition? c.type).elim c (·.supersede c)) :=
  @upsert_find? _ OperatorCondition.type OperatorCondition.supersede c (fun _ => rfl) s.conditions

theorem version?_setVersion (s : OperatorStatus) (name version : String) :
    (s.setVersion name version).version? name = some version := by
  rw [version?, setVersion]
  have h := @upsert_find? _ ComponentVersion.name (fun _ new => new) ⟨name, version⟩
    (fun _ => rfl) s.versions
  cases hf : s.versions.find? (·.name == name) <;> simp [h, hf]

end OperatorStatus

/-- **The operator's record.** -/
structure OperatorState where
  managementState : ManagementState
  status : OperatorStatus
  deriving DecidableEq

namespace OperatorState

/-- The record when nothing has been written: the operator acts, and nothing is reported. -/
def initial : OperatorState := ⟨.managed, ⟨[], []⟩⟩

/-- Writes one condition. -/
def setCondition (s : OperatorState) (c : OperatorCondition) : OperatorState :=
  { s with status := s.status.setCondition c }

/-- Writes the version of one component. -/
def setVersion (s : OperatorState) (name version : String) : OperatorState :=
  { s with status := s.status.setVersion name version }

end OperatorState

end ApiAvailability
