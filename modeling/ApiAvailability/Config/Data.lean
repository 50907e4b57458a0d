import ApiAvailability.Config.Basic
import ApiAvailability.Json.Reader

/-!
# Config/Data — configurations in data formats

One reader of configurations for every data format, and a writer for JSON. All but the version and
the list of API services may be missing.
-/

namespace ApiAvailability

section Read

variable {δ : Type} {m : Type → Type} [Monad m] [MonadExcept Unit m] [Datum δ m]

/-- The names of an entry's fields, in order. -/
def Entry.fieldNames : List String :=
  ["group", "version", "group_priority_minimum", "version_priority"]

/-- The entry that a value holds. -/
def Entry.ofDatum? (d : δ) : m Entry := do
  let [group, version, groupPriority, priority] ← Datum.fields? fieldNames d | throw ()
  return {
    group := ← Datum.required Datum.text? group
    version := ← Datum.required Datum.text? version
    groupPriorityMinimum := ← Datum.optional Datum.int32? groupPriority
    versionPriority := ← Datum.optional Datum.int32? priority }

/-- The names of a configuration's fields, in order. -/
def Config.fieldNames : List String :=
  ["component", "operand_version", "target_namespace", "service_name", "sync_interval_secs",
    "max_consecutive_errors", "api_services"]

/-- **The configuration that a value holds.** -/
def Config.ofDatum? (d : δ) : m Config := do
  let [component, operandVersion, targetNamespace, serviceName, interval, maxErrors, entries] ←
    Datum.fields? fieldNames d | throw ()
  return {
    component := ← Datum.defaulted defaultComponent Datum.text? component
    operandVersion := ← Datum.required Datum.text? operandVersion
    targetNamespace := ← Datum.defaulted defaultTargetNamespace Datum.text? targetNamespace
    serviceName := ← Datum.defaulted defaultServiceName Datum.text? serviceName
    syncIntervalSecs := ← Datum.defaulted defaultSyncIntervalSecs Datum.uint64? interval
    maxConsecutiveErrors :=
      ← Datum.defaulted defaultMaxConsecutiveErrors Datum.uint64? maxErrors
    apiServices := ← Datum.required (Datum.list? Entry.ofDatum?) entries }

end Read

open Json

/-- A number that may be absent, as JSON. -/
def priorityToJson : Option Int32 → Value
  | some i => .integer i.toInt
  | none => .null

/-- The entry as JSON. -/
def Entry.toJson (e : Entry) : Value :=
  .record [("group", .string e.group), ("version", .string e.version),
    ("group_priority_minimum", priorityToJson e.groupPriorityMinimum),
    ("version_priority", priorityToJson e.versionPriority)]

/-- The configuration as JSON. -/
def Config.toJson (c : Config) : Value :=
  .record [("component", .string c.component), ("operand_version", .string c.operandVersion),
    ("target_namespace", .string c.targetNamespace), ("service_name", .string c.serviceName),
    ("sync_interval_secs", .integer c.syncIntervalSecs.toNat),
    ("max_consecutive_errors", .integer c.maxConsecutiveErrors.toNat),
    ("api_services", .array (c.apiServices.map Entry.toJson))]

end ApiAvailability
