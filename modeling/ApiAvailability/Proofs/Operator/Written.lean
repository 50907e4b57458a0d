import ApiAvailability.Operator.Json
import ApiAvailability.Proofs.ApiService.Written
import ApiAvailability.Proofs.Time.Written

/-!
# Proofs/Operator/Written — the operator's record is read as it was written

What is written for the record denotes it, part by part.  With what `Proofs/ApiService/Written` says
of objects, every text that the operator leaves behind is read back as the value that it was written
for (`documents_denote`).
-/

namespace ApiAvailability

open Json Value

/-- A management state is read back. -/
theorem ManagementState.denotes (s : ManagementState) : Denotes ofJson? s.toJson s :=
  .choice (ofName?_name s)

namespace OperatorCondition

theorem toJson_eq (c : OperatorCondition) : c.toJson =
    .ofFields memberNames [some (.string c.type), some c.status.toJson, c.reason.map .string,
      c.message.map .string, some (.string c.lastTransitionTime.toText)] := by
  rw [toJson]
  cases c.reason <;> cases c.message <;> rfl

/-- **A condition is read as it was written.** -/
theorem denotes (c : OperatorCondition) : Denotes ofJson? c.toJson c := by
  rw [toJson_eq]
  refine ⟨exact_ofFields ?_, ?_⟩
  · simp [(denotes_status c.status).exact]
  · have hnames : memberNames.Nodup := by decide
    rw [ofJson?, fields?_ofFields hnames rfl]
    simp [Datum.required, (Denotes.string _).read_eq, (denotes_status c.status).read_eq,
      Time.Timestamp.ofText?_toText]

end OperatorCondition

/-- The version of a component is read back. -/
theorem ComponentVersion.denotes (c : ComponentVersion) : Denotes ofJson? c.toJson c := by
  have hrecord : c.toJson =
    .ofFields ["name", "version"] [some (.string c.name), some (.string c.version)] := rfl
  rw [hrecord]
  refine ⟨exact_ofFields ?_, ?_⟩
  · simp
  · rw [ofJson?, fields?_ofFields (by decide) rfl]
    rfl

/-- Conditions and versions are read back. -/
theorem OperatorStatus.denotes (s : OperatorStatus) : Denotes ofJson? s.toJson s := by
  have hrecord : s.toJson = .ofFields ["conditions", "versions"]
    [some (.array (s.conditions.map OperatorCondition.toJson)),
      some (.array (s.versions.map ComponentVersion.toJson))] := rfl
  have hconditions := Denotes.list OperatorCondition.denotes s.conditions
  have hversions := Denotes.list ComponentVersion.denotes s.versions
  rw [hrecord]
  refine ⟨exact_ofFields ?_, ?_⟩
  · simp [hconditions.exact, hversions.exact]
  · rw [ofJson?, fields?_ofFields (by decide) rfl]
    simp [Datum.defaulted, hconditions.read_eq, hversions.read_eq]

/-- **The record is read as it was written.** -/
theorem OperatorState.denotes (s : OperatorState) : Denotes ofJson? s.toJson s := by
  have hrecord : s.toJson = .ofFields ["managementState", "status"]
    [some s.managementState.toJson, some s.status.toJson] := rfl
  rw [hrecord]
  refine ⟨exact_ofFields ?_, ?_⟩
  · simp [s.managementState.denotes.exact, s.status.denotes.exact]
  · rw [ofJson?, fields?_ofFields (by decide) rfl]
    simp [Datum.defaulted, s.managementState.denotes.read_eq, s.status.denotes.read_eq]

/-- **Every document denotes what it was written for**: an object, a desired API service, a
condition of the operator and the operator's record are read from the bytes of their texts exactly
as they were. -/
theorem documents_denote :
    (∀ o : ApiService, (ofBytes? o.toJson.toText.toUTF8).bind ApiService.ofJson? = some o) ∧
    (∀ d : Desired, (ofBytes? d.toJson.toText.toUTF8).bind Desired.ofJson? = some d) ∧
    (∀ c : OperatorCondition,
      (ofBytes? c.toJson.toText.toUTF8).bind OperatorCondition.ofJson? = some c) ∧
    ∀ s : OperatorState, (ofBytes? s.toJson.toText.toUTF8).bind OperatorState.ofJson? = some s :=
  ⟨fun o => o.denotes.of_bytes, fun d => d.denotes.of_bytes, fun c => c.denotes.of_bytes,
    fun s => s.denotes.of_bytes⟩

end ApiAvailability
