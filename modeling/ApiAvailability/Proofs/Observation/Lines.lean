import ApiAvailability.Observation.Verdict
import Mathlib.Data.List.Sort
import Mathlib.Data.String.Basic

/-!
# Proofs/Observation/Lines — a verdict is its sorted lines

Status, reason and message of a verdict are read off the lines of its failures, and these are the
lines of the observations in order (`aggregate_stating`).  Sorting forgets in which order the
observations came (`sort_eq_of_perm`).
-/

namespace ApiAvailability

/-- The line that an observation adds to a verdict, if it adds one. -/
def Observation.line? (o : Observation) : Option String :=
  (Failure.ofObservation? o).map Failure.line

theorem Failure.ofObservation?_eq_some_iff {o : Observation} {f : Failure} :
    Failure.ofObservation? o = some f ↔
      ∃ text, o.outcome.complaint? = some text ∧ f = ⟨o.name, oneLine text⟩ := by
  rw [Failure.ofObservation?, Option.map_eq_some_iff]
  simp only [eq_comm]

/-- A verdict's failures are those of the observations. -/
theorem mem_failures {os : List Observation} {f : Failure} : f ∈ (aggregate os).failures ↔
    ∃ o ∈ os, ∃ text, o.outcome.complaint? = some text ∧ f = ⟨o.name, oneLine text⟩ := by
  rw [aggregate_failures, List.mem_mergeSort, List.mem_filterMap]
  simp only [Failure.ofObservation?_eq_some_iff]

/-- A failure tells of an API service that is observed to be failing. -/
theorem exists_failing {os : List Observation} {f : Failure} (h : f ∈ (aggregate os).failures) :
    ∃ o ∈ os, o.outcome ≠ .available ∧ o.name = f.name := by
  obtain ⟨o, ho, text, htext, rfl⟩ := mem_failures.mp h
  refine ⟨o, ho, fun havailable => ?_, rfl⟩
  rw [havailable] at htext
  contradiction

/-- The order of lines. -/
def lineOrder (a b : String) : Bool := a ≤ b

theorem lineOrder_trans (a b c : String) (hab : lineOrder a b = true)
    (hbc : lineOrder b c = true) : lineOrder a c = true := by
  simp only [lineOrder, decide_eq_true_eq] at *
  exact le_trans hab hbc

theorem lineOrder_total (a b : String) : (lineOrder a b || lineOrder b a) = true := by
  simpa [lineOrder] using le_total a b

theorem pairwise_sort (ls : List String) : (ls.mergeSort lineOrder).Pairwise (· ≤ ·) :=
  (List.pairwise_mergeSort lineOrder_trans lineOrder_total ls).imp
    fun hab => of_decide_eq_true hab

/-- **Sorted lines do not depend on the order in which they came.** -/
theorem sort_eq_of_perm {ls ls' : List String} (h : ls.Perm ls') :
    ls.mergeSort lineOrder = ls'.mergeSort lineOrder :=
  List.Perm.eq_of_pairwise (fun _ _ _ _ hab hba => le_antisymm hab hba) (pairwise_sort ls)
    (pairwise_sort ls') ((List.mergeSort_perm ls _).trans (h.trans (List.mergeSort_perm ls' _).symm))

namespace Verdict

/-- **A verdict that states some lines**: positive without lines, and otherwise negative for the
one reason, with the lines for its message. -/
structure Stating (lines : List String) (v : Verdict) : Prop where
  status : v.status = if lines = [] then .true else .false
  reason : v.reason = if lines = [] then none else some errorReason
  message : v.message = if lines = [] then none else some ("\n".intercalate lines)

theorem Stating.isAvailable_eq {lines : List String} {v v' : Verdict} (h : Stating lines v)
    (h' : Stating lines v') : v.isAvailable = v'.isAvailable := by
  rw [isAvailable, isAvailable, h.status, h'.status]

/-- Verdicts that state the same lines make the same condition. -/
theorem Stating.toCondition_eq {lines : List String} {v v' : Verdict} (h : Stating lines v)
    (h' : Stating lines v') (now : Time.Timestamp) : v.toCondition now = v'.toCondition now := by
  rw [toCondition, toCondition, h.status, h.reason, h.message, h'.status, h'.reason, h'.message]

theorem stating_ofFailures (fs : List Failure) : Stating (fs.map Failure.line) (ofFailures fs) := by
  cases fs with
  | nil => exact ⟨rfl, rfl, rfl⟩
  | cons f fs => exact ⟨rfl, rfl, rfl⟩

end Verdict

/-- The lines of a verdict's failures are the lines observed, in order. -/
theorem map_line_failures (os : List Observation) : (aggregate os).failures.map Failure.line =
    (os.filterMap Observation.line?).mergeSort lineOrder := by
  have hmap : (os.filterMap Failure.ofObservation?).map Failure.line =
      os.filterMap Observation.line? := List.map_filterMap
  rw [aggregate_failures, ← hmap]
  exact List.map_mergeSort (r := Failure.lineLe) (s := lineOrder) (f := Failure.line)
    fun a _ b _ => rfl

/-- **The verdict over observations states their lines, in order.** -/
theorem aggregate_stating (os : List Observation) :
    Verdict.Stating ((os.filterMap Observation.line?).mergeSort lineOrder) (aggregate os) := by
  rw [← map_line_failures, aggregate_failures]
  exact Verdict.stating_ofFailures _

/-- A verdict is positive if nothing is observed that would make a line. -/
theorem isAvailable_aggregate (os : List Observation) :
    (aggregate os).isAvailable = (os.filterMap Observation.line?).isEmpty := by
  have hempty : (os.filterMap Observation.line?).mergeSort lineOrder = [] ↔
      os.filterMap Observation.line? = [] := by
    rw [← List.length_eq_zero_iff, List.length_mergeSort, List.length_eq_zero_iff]
  rw [Verdict.isAvailable, (aggregate_stating os).status]
  simp only [hempty]
  cases os.filterMap Observation.line? <;> rfl

/-- A positive verdict has neither reason nor message. -/
theorem aggregate_of_isAvailable {os : List Observation} (h : (aggregate os).isAvailable = true) :
    (aggregate os).status = .true ∧ (aggregate os).reason = none ∧
      (aggregate os).message = none := by
  have hstates := aggregate_stating os
  have hstatus : (aggregate os).status = .true := of_decide_eq_true h
  have hlines : (os.filterMap Observation.line?).mergeSort lineOrder = [] := by
    by_contra hne
    rw [hstates.status, if_neg hne] at hstatus
    contradiction
  refine ⟨hstatus, ?_, ?_⟩
  · rw [hstates.reason, if_pos hlines]
  · rw [hstates.message, if_pos hlines]

end ApiAvailability
