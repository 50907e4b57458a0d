import ApiAvailability.ApiService.Json
import ApiAvailability.Operator.State
import ApiAvailability.Time.Reader
import ApiAvailability.Time.Timestamp

/-!
# Operator/Json — the operator's record in JSON

A reader `ofJson?` and a writer `toJson` for each type of `Operator/State`. Every part of a record
may be missing: the management state is then `Managed`, a list is empty.
-/

namespace ApiAvailability

open Json

namespace ManagementState

/-- The management state as JSON. -/
def toJson (s : ManagementState) : Value := .string s.name

/-- The management state that a JSON value names. -/
def ofJson? (v : Value) : Option ManagementState := v.choice?.bind ofName?

end ManagementState

namespace OperatorCondition

/-- The condition as JSON. -/
def toJson (c : OperatorCondition) : Value :=
  .record ([("type", .string c.type), ("status", c.status.toJson)] ++
    textMember "reason" c.reason ++ textMember "message" c.message ++
    [("lastTransitionTime", .string c.lastTransitionTime.toText)])

/-- The names of a condition's members, in order. -/
def memberNames : List String := ["type", "status", "reason", "message", "lastTransitionTime"]

/-- The condition that a JSON value holds. -/
def ofJson? (v : Value) : Option OperatorCondition := do
  let [type, status, reason, message, time] ← v.fields? memberNames | none
  return {
    type := ← Datum.required Value.text? type
    status := ← Datum.required ConditionStatus.ofJson? status
    reason := ← Datum.optional Value.text? reason
    message := ← Datum.optional Value.text? message
    lastTransitionTime := ←
      Datum.required (fun t => (Value.text? t).bind Time.Timestamp.ofText?) time }

end OperatorCondition

namespace ComponentVersion

/-- The version as JSON. -/
def toJson (c : ComponentVersion) : Value :=
  .record [("name", .string c.name), ("version", .string c.version)]

/-- The version that a JSON value holds. -/
def ofJson? (v : Value) : Option ComponentVersion := do
  let [name, version] ← v.fields? ["name", "version"] | none
  return ⟨← Datum.required Value.text? name, ← Datum.required Value.text? version⟩

end ComponentVersion

namespace OperatorStatus

/-- What is reported about the operator, as JSON. -/
def toJson (s : OperatorStatus) : Value :=
  .record [("conditions", .array (s.conditions.map OperatorCondition.toJson)),
    ("versions", .array (s.versions.map ComponentVersion.toJson))]

/-- What a JSON value reports about the operator. -/
def ofJson? (v : Value) : Option OperatorStatus := do
  let [conditions, versions] ← v.fields? ["conditions", "versions"] | none
  return {
    conditions := ← Datum.defaulted [] (Datum.list? OperatorCondition.ofJson?) conditions
    versions := ← Datum.defaulted [] (Datum.list? ComponentVersion.ofJson?) versions }

end OperatorStatus

namespace OperatorState

/-- The record as JSON. -/
def toJson (s : OperatorState) : Value :=
  .record [("managementState", s.managementState.toJson), ("status", s.status.toJson)]

/-- **The record that a JSON value holds.** -/
def ofJson? (v : Value) : Option OperatorState := do
  let [managementState, status] ← v.fields? ["managementState", "status"] | none
  return {
    managementState := ← Datum.defaulted .managed ManagementState.ofJson? managementState
    status := ← Datum.defaulted ⟨[], []⟩ OperatorStatus.ofJson? status }

end OperatorState

end ApiAvailability
