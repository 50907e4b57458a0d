import ApiAvailability.Operator.State

/-!
# Proofs/Operator/Record — writing the same entry again

A second write of an entry that says the same leaves the record as the first one left it, its times
and its order included (`setCondition_again`, `setVersion_again`).
-/

namespace ApiAvailability

section Upsert

variable {α : Type} {key : α → String} {merge : α → α → α} {entry entry' : α}

/-- **A second write changes nothing**, if it does not change what the first one put there. -/
theorem upsert_again (hkey : key entry' = key entry)
    (hmerge : ∀ old, key (merge old entry) = key entry)
    (hentry : merge entry entry' = entry)
    (hmerged : ∀ old, merge (merge old entry) entry' = merge old entry) (xs : List α) :
    upsert key merge entry' (upsert key merge entry xs) = upsert key merge entry xs := by
  induction xs with
  | nil => rw [upsert, upsert, if_pos hkey.symm, hentry]
  | cons x xs ih =>
    rw [upsert]
    split
    · rw [upsert, if_pos ((hmerge x).trans hkey.symm), hmerged]
    · rename_i hne
      rw [upsert, if_neg (hkey ▸ hne), ih]

end Upsert

namespace OperatorCondition

theorem sameState_iff {a b : OperatorCondition} : a.sameState b = true ↔
    a.type = b.type ∧ a.status = b.status ∧ a.reason = b.reason ∧ a.message = b.message := by
  simp [sameState, and_assoc]

/-- A condition that says the same does not take another's place. -/
theorem supersede_of_sameState {a b : OperatorCondition} (h : a.sameState b = true) :
    a.supersede b = a := by
  obtain ⟨htype, hstatus, hreason, hmessage⟩ := sameState_iff.mp h
  rcases a with ⟨type, status, reason, message, time⟩
  simp only at htype hstatus hreason hmessage
  simp [supersede, htype, hstatus, hreason, hmessage]

theorem sameState_supersede {a b : OperatorCondition} (h : a.sameState b = true)
    (old : OperatorCondition) : (old.supersede a).sameState b = true :=
  sameState_iff.mpr (sameState_iff.mp h)

end OperatorCondition

namespace OperatorState

/-- **Writing a condition again** that says the same, whenever that is. -/
theorem setCondition_again {a b : OperatorCondition} (h : a.sameState b = true)
    (s : OperatorState) : (s.setCondition a).setCondition b = s.setCondition a := by
  have htype : b.type = a.type := (OperatorCondition.sameState_iff.mp h).1.symm
  have hmerged (old : OperatorCondition) : (old.supersede a).supersede b = old.supersede a :=
    OperatorCondition.supersede_of_sameState (OperatorCondition.sameState_supersede h old)
  have hlist := @upsert_again _ OperatorCondition.type _ a b htype
    (OperatorCondition.type_supersede · a) (OperatorCondition.supersede_of_sameState h) hmerged
    s.status.conditions
  exact congrArg (fun cs => { s with status := { s.status with conditions := cs } }) hlist

/-- **Writing the same version again.** -/
theorem setVersion_again (name version : String) (s : OperatorState) :
    (s.setVersion name version).setVersion name version = s.setVersion name version := by
  have hlist := @upsert_again _ ComponentVersion.name (fun _ new => new) ⟨name, version⟩
    ⟨name, version⟩ rfl (fun _ => rfl) rfl (fun _ => rfl) s.status.versions
  exact congrArg (fun vs => { s with status := { s.status with versions := vs } }) hlist

/-- Conditions and versions are written apart from each other. -/
theorem setCondition_setVersion (c : OperatorCondition) (name version : String)
    (s : OperatorState) :
    (s.setVersion name version).setCondition c = (s.setCondition c).setVersion name version := rfl

end OperatorState

end ApiAvailability
