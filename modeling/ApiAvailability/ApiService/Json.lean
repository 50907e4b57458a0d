import ApiAvailability.ApiService.Basic
import ApiAvailability.Json.Reader

/-!
# ApiService/Json — API services in JSON

A reader `ofJson?` and a writer `toJson` for each type of `ApiService/Basic`. Annotations are left
out of an object that has none, and a condition's reason and message where it has none.
-/

namespace ApiAvailability

open Json

/-- A member that is left out when there is no value. -/
def textMember (name : String) : Option String → List (String × Value)
  | some s => [(name, .string s)]
  | none => []

namespace ConditionStatus

/-- The status as JSON. -/
def toJson (s : ConditionStatus) : Value := .string s.name

/-- The status that a JSON value names. -/
def ofJson? (v : Value) : Option ConditionStatus := v.choice?.bind ofName?

end ConditionStatus

namespace ServiceCondition

/-- The condition as JSON. -/
def toJson (c : ServiceCondition) : Value :=
  .record ([("type", .string c.type), ("status", c.status.toJson)] ++
    textMember "reason" c.reason ++ textMember "message" c.message)

/-- The condition that a JSON value holds. -/
def ofJson? (v : Value) : Option ServiceCondition := do
  let [type, status, reason, message] ← v.fields? ["type", "status", "reason", "message"] | none
  return {
    type := ← Datum.required Value.text? type
    status := ← Datum.required ConditionStatus.ofJson? status
    reason := ← Datum.optional Value.text? reason
    message := ← Datum.optional Value.text? message }

end ServiceCondition

namespace ServiceReference

/-- The reference as JSON. -/
def toJson (r : ServiceReference) : Value :=
  .record [("namespace", .string r.namespace), ("name", .string r.name)]

/-- The reference that a JSON value holds. -/
def ofJson? (v : Value) : Option ServiceReference := do
  let [home, name] ← v.fields? ["namespace", "name"] | none
  return ⟨← Datum.required Value.text? home, ← Datum.required Value.text? name⟩

end ServiceReference

namespace Spec

/-- The specification as JSON. -/
def toJson (s : Spec) : Value :=
  .record [("group", .string s.group), ("version", .string s.version),
    ("service", s.service.toJson),
    ("groupPriorityMinimum", .integer s.groupPriorityMinimum.toInt),
    ("versionPriority", .integer s.versionPriority.toInt)]

/-- The specification that a JSON value holds. -/
def ofJson? (v : Value) : Option Spec := do
  let [group, version, service, groupPriority, versionPriority] ← v.fields?
    ["group", "version", "service", "groupPriorityMinimum", "versionPriority"] | none
  return {
    group := ← Datum.required Value.text? group
    version := ← Datum.required Value.text? version
    service := ← Datum.required ServiceReference.ofJson? service
    groupPriorityMinimum := ← Datum.required Datum.int32? groupPriority
    versionPriority := ← Datum.required Datum.int32? versionPriority }

end Spec

namespace Annotations

/-- The annotations as JSON, in the order of their keys. -/
def toJson (a : Annotations) : Value := .record (a.toList.map fun (k, t) => (k, .string t))

/-- The annotations that a JSON value holds. Of several with one key the last counts. -/
def ofJson? (v : Value) : Option Annotations := do
  let members ← v.members?
  let texts ← members.mapM fun (k, t) => t.text?.map (k, ·)
  return texts.foldl (fun a (k, t) => a.insert k t) ∅

end Annotations

namespace Metadata

/-- The metadata as JSON. -/
def toJson (m : Metadata) : Value :=
  .record ([("name", .string m.name)] ++
    if m.annotations.isEmpty then [] else [("annotations", Annotations.toJson m.annotations)])

/-- The metadata that a JSON value holds. -/
def ofJson? (v : Value) : Option Metadata := do
  let [name, annotations] ← v.fields? ["name", "annotations"] | none
  return {
    name := ← Datum.required Value.text? name
    annotations := ← Datum.defaulted ∅ Annotations.ofJson? annotations }

end Metadata

namespace ApiService

/-- What is reported about an object, as JSON. -/
def statusToJson (cs : List ServiceCondition) : Value :=
  .record [("conditions", .array (cs.map ServiceCondition.toJson))]

/-- What a JSON value reports about an object. -/
def statusOfJson? (v : Value) : Option (List ServiceCondition) := do
  let [conditions] ← v.fields? ["conditions"] | none
  Datum.defaulted [] (Datum.list? ServiceCondition.ofJson?) conditions

/-- The object as JSON. -/
def toJson (o : ApiService) : Value :=
  .record [("metadata", o.metadata.toJson), ("spec", o.spec.toJson),
    ("status", statusToJson o.conditions)]

/-- **The object that a JSON value holds.** -/
def ofJson? (v : Value) : Option ApiService := do
  let [metadata, spec, status] ← v.fields? ["metadata", "spec", "status"] | none
  return {
    metadata := ← Datum.required Metadata.ofJson? metadata
    spec := ← Datum.required Spec.ofJson? spec
    conditions := ← Datum.defaulted [] statusOfJson? status }

end ApiService

namespace Desired

/-- The desired API service as JSON. -/
def toJson (d : Desired) : Value :=
  .record [("name", .string d.name), ("annotations", Annotations.toJson d.annotations),
    ("spec", d.spec.toJson)]

/-- The desired API service that a JSON value holds. -/
def ofJson? (v : Value) : Option Desired := do
  let [name, annotations, spec] ← v.fields? ["name", "annotations", "spec"] | none
  return {
    name := ← Datum.required Value.text? name
    annotations := ← Datum.required Annotations.ofJson? annotations
    spec := ← Datum.required Spec.ofJson? spec }

end Desired

end ApiAvailability
