import ApiAvailability.ApiService.Json
import ApiAvailability.Proofs.Json.Record

/-!
# Proofs/ApiService/Written — API services are read as they were written

What is written for an object or a desired API service denotes it, part by part: each record is read
field by field, whichever fields are left out, and annotations are put together again in the order
of their keys.
-/

namespace ApiAvailability

open Json Value

theorem denotes_status (s : ConditionStatus) : Denotes ConditionStatus.ofJson? s.toJson s :=
  .choice (ConditionStatus.ofName?_name s)

namespace ServiceCondition

theorem toJson_eq (c : ServiceCondition) : c.toJson =
    .ofFields ["type", "status", "reason", "message"] [some (.string c.type), some c.status.toJson,
      c.reason.map .string, c.message.map .string] := by
  rw [toJson]
  cases c.reason <;> cases c.message <;> rfl

theorem denotes (c : ServiceCondition) : Denotes ofJson? c.toJson c := by
  rw [toJson_eq]
  refine ⟨exact_ofFields ?_, ?_⟩
  · simp [(denotes_status c.status).exact]
  · rw [ofJson?, fields?_ofFields (by decide) rfl]
    simp [Datum.required, (Denotes.string _).read_eq, (denotes_status c.status).read_eq]

end ServiceCondition

/-- A reference to a service is read back. -/
theorem ServiceReference.denotes (r : ServiceReference) : Denotes ofJson? r.toJson r := by
  have hrecord : r.toJson =
    .ofFields ["namespace", "name"] [some (.string r.namespace), some (.string r.name)] := rfl
  rw [hrecord]
  refine ⟨exact_ofFields ?_, ?_⟩
  · simp
  · rw [ofJson?, fields?_ofFields (by decide) rfl]
    rfl

/-- What is asked of an API service is read back. -/
theorem Spec.denotes (s : Spec) : Denotes ofJson? s.toJson s := by
  have hrecord : s.toJson = .ofFields
    ["group", "version", "service", "groupPriorityMinimum", "versionPriority"]
    [some (.string s.group), some (.string s.version), some s.service.toJson,
      some (.integer s.groupPriorityMinimum.toInt), some (.integer s.versionPriority.toInt)] := rfl
  rw [hrecord]
  refine ⟨exact_ofFields ?_, ?_⟩
  · simp [Exact.integer, s.service.denotes.exact]
  · rw [ofJson?, fields?_ofFields (by decide) rfl]
    simp [Datum.required, s.service.denotes.read_eq, (Denotes.string _).read_eq,
      (Denotes.int32 _).read_eq]

/-! ## Annotations -/

namespace Annotations

/-- Annotations are put together from their list again. -/
theorem foldl_insert_toList (a : Annotations) :
    a.toList.foldl (fun b (k, t) => b.insert k t) (∅ : Annotations) = a := by
  rw [← Std.ExtTreeMap.ofList_eq_foldl]
  refine Std.ExtTreeMap.ext_getElem? fun k => ?_
  cases hk : a[k]? with
  | some t =>
    have hmem : (k, t) ∈ a.toList := Std.ExtTreeMap.mem_toList_iff_getElem?_eq_some.mpr hk
    exact Std.ExtTreeMap.getElem?_ofList_of_mem Std.ReflCmp.compare_self
      Std.ExtTreeMap.distinct_keys_toList hmem
  | none =>
    refine Std.ExtTreeMap.getElem?_ofList_of_contains_eq_false ?_
    rw [List.contains_eq_mem, decide_eq_false_iff_not, Std.ExtTreeMap.map_fst_toList_eq_keys,
      Std.ExtTreeMap.mem_keys]
    simpa using hk

theorem denotes (a : Annotations) : Denotes ofJson? a.toJson a := by
  refine ⟨exact_record fun m hm => ?_, ?_⟩
  · obtain ⟨m, -, rfl⟩ := List.mem_map.mp hm
    exact exact_string m.2
  · rw [ofJson?, toJson, members?_record]
    simp only [Option.bind_eq_bind, Option.bind_some]
    rw [mapM_map_eq_some, Option.bind_some, foldl_insert_toList]
    · rfl
    · exact fun _ => rfl

end Annotations

/-! ## Objects -/

/-- Name and annotations are read back. -/
theorem Metadata.denotes (m : Metadata) : Denotes ofJson? m.toJson m := by
  have hrecord : m.toJson = .ofFields ["name", "annotations"] [some (.string m.name),
      if m.annotations.isEmpty then none else some (Annotations.toJson m.annotations)] := by
    rw [toJson]
    split <;> rfl
  rw [hrecord]
  refine ⟨exact_ofFields ?_, ?_⟩
  · simp [(Annotations.denotes _).exact]
  · rw [ofJson?, fields?_ofFields (by decide) rfl]
    cases m with
    | mk name annotations =>
    by_cases h : annotations = ∅
    · simp [Datum.required, Datum.defaulted, h, (Denotes.string _).read_eq]
    · simp [Datum.required, Datum.defaulted, h, (Denotes.string _).read_eq,
        (Annotations.denotes _).read_eq]

namespace ApiService

theorem denotes_status (cs : List ServiceCondition) :
    Denotes statusOfJson? (statusToJson cs) cs := by
  have hrecord : statusToJson cs =
    .ofFields ["conditions"] [some (.array (cs.map ServiceCondition.toJson))] := rfl
  have hconditions := Denotes.list ServiceCondition.denotes cs
  rw [hrecord]
  refine ⟨exact_ofFields ?_, ?_⟩
  · simp [hconditions.exact]
  · rw [statusOfJson?, fields?_ofFields (by decide) rfl]
    exact hconditions.read_eq

/-- **An object is read as it was written.** -/
theorem denotes (o : ApiService) : Denotes ofJson? o.toJson o := by
  have hrecord : o.toJson = .ofFields ["metadata", "spec", "status"]
    [some o.metadata.toJson, some o.spec.toJson, some (statusToJson o.conditions)] := rfl
  rw [hrecord]
  refine ⟨exact_ofFields ?_, ?_⟩
  · simp [o.metadata.denotes.exact, o.spec.denotes.exact, (denotes_status o.conditions).exact]
  · rw [ofJson?, fields?_ofFields (by decide) rfl]
    simp [Datum.required, Datum.defaulted, o.metadata.denotes.read_eq, o.spec.denotes.read_eq,
      (denotes_status o.conditions).read_eq]

end ApiService

/-- **A desired API service is read as it was written.** -/
theorem Desired.denotes (d : Desired) : Denotes ofJson? d.toJson d := by
  have hrecord : d.toJson = .ofFields ["name", "annotations", "spec"]
    [some (.string d.name), some (Annotations.toJson d.annotations), some d.spec.toJson] := rfl
  rw [hrecord]
  refine ⟨exact_ofFields ?_, ?_⟩
  · simp [(Annotations.denotes _).exact, d.spec.denotes.exact]
  · rw [ofJson?, fields?_ofFields (by decide) rfl]
    simp [Datum.required, (Denotes.string _).read_eq, (Annotations.denotes _).read_eq,
      d.spec.denotes.read_eq]

end ApiAvailability
