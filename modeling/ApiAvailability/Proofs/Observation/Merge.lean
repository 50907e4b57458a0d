import ApiAvailability.Proofs.Observation.Ties
import ApiAvailability.Proofs.Text.Bytes
import Mathlib.Data.List.Forall2

/-!
# Proofs/Observation/Merge — a verdict merges what was observed, and loses nothing

A verdict has one failure for each observation of an API service that is not available, as often as
it was observed, and says nothing but what these failures say (`Verdict.SumsUp`).

Sorting is stable, so that failures that read alike are merged in the order of the two halves
(`toldBy_merge`), and what a verdict over two lists of observations says is what the verdicts over
either say (`failures_append`).
-/

namespace ApiAvailability

/-! ## What an observation says -/

namespace Text

/-- **A character put on one line**: a blank for a carriage return or a line feed, and otherwise the
character itself. -/
def Flat (c c' : Char) : Prop := if c = '\r' ∨ c = '\n' then c' = ' ' else c' = c

/-- **A text put on one line**, character by character. -/
def Flattened (s s' : String) : Prop := List.Forall₂ Flat s.toList s'.toList

theorem flat_iff {c c' : Char} :
    Flat c c' ↔ (if c = '\r' ∨ c = '\n' then ' ' else c) = c' := by
  rw [Flat]
  split <;> exact eq_comm

theorem flattened_iff {s s' : String} : Flattened s s' ↔ oneLine s = s' := by
  have hflat : Flat = fun c c' => (if c = '\r' ∨ c = '\n' then ' ' else c) = c' :=
    funext fun c => funext fun c' => propext flat_iff
  rw [oneLine, ← String.toList_inj, String.toList_map, ← List.forall₂_eq_eq_eq,
    List.forall₂_map_left_iff, Flattened, hflat]

/-- A line break of two characters becomes two blanks. -/
example : oneLine "first\r\nsecond" = "first  second" := by decide +kernel

end Text

/-- **What an observation says**: why the object could not be ensured or fetched, or that it is not
available, and in which words. -/
inductive Observation.Says : Observation → String → Prop
  | ensureFailed (name cause : String) : Says ⟨name, .ensureFailed cause⟩ cause
  | fetchFailed (name cause : String) : Says ⟨name, .fetchFailed cause⟩ cause
  | unavailable (name text : String) : Says ⟨name, .unavailable text⟩ ("not available: " ++ text)

theorem Observation.says_iff {o : Observation} {text : String} :
    o.Says text ↔ o.outcome.complaint? = some text := by
  refine ⟨fun h => by cases h <;> rfl, fun h => ?_⟩
  rcases o with ⟨name, outcome⟩
  cases outcome with
  | available => contradiction
  | ensureFailed cause =>
    obtain rfl : cause = text := Option.some.inj h
    exact .ensureFailed name cause
  | fetchFailed cause =>
    obtain rfl : cause = text := Option.some.inj h
    exact .fetchFailed name cause
  | unavailable words =>
    obtain rfl : "not available: " ++ words = text := Option.some.inj h
    exact .unavailable name words

namespace Failure

/-- **A failure tells of an observation**: it has the name, and what was said, on one line. -/
def TellsOf (f : Failure) (o : Observation) : Prop :=
  f.name = o.name ∧ ∃ text, o.Says text ∧ Text.Flattened text f.cause

theorem tellsOf_iff {f : Failure} {o : Observation} : f.TellsOf o ↔ ofObservation? o = some f := by
  rw [ofObservation?_eq_some_iff, TellsOf]
  simp only [Observation.says_iff, Text.flattened_iff]
  constructor
  · rintro ⟨hname, text, htext, hcause⟩
    exact ⟨text, htext, by rw [← hname, hcause]⟩
  · rintro ⟨text, htext, rfl⟩
    exact ⟨rfl, text, htext, rfl⟩

/-- **There is one failure for each observation of what is not available**, and no other. -/
theorem forall₂_tellsOf (os : List Observation) :
    List.Forall₂ TellsOf (os.filterMap ofObservation?)
      (os.filter (·.outcome ≠ .available)) := by
  induction os with
  | nil => exact .nil
  | cons o os ih =>
    cases h : ofObservation? o with
    | none =>
      have havailable : o.outcome = .available := by
        rwa [ofObservation?, Option.map_eq_none_iff, Outcome.complaint?_eq_none_iff] at h
      rwa [List.filterMap_cons_none h, List.filter_cons_of_neg (by simpa using havailable)]
    | some f =>
      have hfailing : o.outcome ≠ .available := by
        intro havailable
        rw [ofObservation?, Outcome.complaint?_eq_none_iff.mpr havailable] at h
        contradiction
      rw [List.filterMap_cons_some h, List.filter_cons_of_pos (by simpa using hfailing)]
      exact .cons (tellsOf_iff.mpr h) ih

/-! ## Merging failures -/

theorem toldBy_append (l : String) (fs gs : List Failure) :
    toldBy l (fs ++ gs) = toldBy l fs ++ toldBy l gs := List.filter_append ..

/-- No line tells of failures that all come later. -/
theorem toldBy_eq_nil {l : String} {fs : List Failure} (h : ∀ f ∈ fs, l < f.line) :
    toldBy l fs = [] :=
  List.filter_eq_nil_iff.mpr fun f hf he => (h f hf).ne' (of_decide_eq_true he)

/-- **Failures that read alike are merged one half behind the other.** -/
theorem toldBy_merge (l : String) {fs : List Failure}
    (hf : fs.Pairwise fun a b => a.lineLe b = true) (gs : List Failure) :
    toldBy l (fs.merge gs lineLe) = toldBy l fs ++ toldBy l gs := by
  induction fs generalizing gs with
  | nil => rw [List.nil_merge, ← toldBy_append, List.nil_append]
  | cons f fs ih =>
    have htail := (List.pairwise_cons.mp hf).2
    induction gs with
    | nil => rw [List.merge_right, ← toldBy_append, List.append_nil]
    | cons g gs ih' =>
      by_cases hfg : f.lineLe g = true
      · rw [List.cons_merge_cons_pos _ _ _ hfg, toldBy_cons, toldBy_cons, ih htail]
        split <;> rfl
      · rw [List.cons_merge_cons_neg _ _ _ hfg, toldBy_cons, toldBy_cons (f := g), ih']
        split
        · next hg =>
          -- the first half is all behind the line of `g`
          have hlt : g.line < f.line := not_le.mp fun hle => hfg (decide_eq_true hle)
          have hbehind : ∀ f' ∈ f :: fs, l < f'.line := by
            intro f' hf'
            rcases List.mem_cons.mp hf' with rfl | hf'
            · exact hg ▸ hlt
            · have hle := of_decide_eq_true ((List.pairwise_cons.mp hf).1 f' hf')
              exact hg ▸ hlt.trans_le hle
          rw [toldBy_eq_nil hbehind]
          rfl
        · rfl

end Failure

/-- **The failures over two lists of observations are those over either, merged.** -/
theorem failures_append (os os' : List Observation) : (aggregate (os ++ os')).failures =
    (aggregate os).failures.merge (aggregate os').failures Failure.lineLe := by
  refine Failure.eq_of_toldBy (pairwise_failures _) ?_ fun l => ?_
  · exact List.pairwise_merge Failure.lineLe_trans Failure.lineLe_total _ _ (pairwise_failures os)
      (pairwise_failures os')
  · rw [Failure.toldBy_merge l (pairwise_failures os), aggregate_failures, aggregate_failures,
      aggregate_failures, Failure.toldBy_mergeSort, Failure.toldBy_mergeSort,
      Failure.toldBy_mergeSort, List.filterMap_append, Failure.toldBy_append]

/-! ## Verdicts -/

namespace Verdict

/-- **A verdict sums up observations.**  It has a failure for each observation of what is not
available, in the order of the bytes of their lines; it is positive if it has none, and otherwise
negative for the one reason, and its message is their lines. -/
structure SumsUp (os : List Observation) (v : Verdict) : Prop where
  failures : ∃ fs, v.failures.Perm fs ∧
    List.Forall₂ Failure.TellsOf fs (os.filter (·.outcome ≠ .available))
  ascending : v.failures.Pairwise fun f g => Text.bytes f.line ≤ Text.bytes g.line
  positive : v.failures = [] → v.status = .true ∧ v.reason = none ∧ v.message = none
  negative : v.failures ≠ [] → v.status = .false ∧ v.reason = some "Error" ∧
    v.message = some ("\n".intercalate (v.failures.map Failure.line))

theorem sumsUp_aggregate (os : List Observation) : SumsUp os (aggregate os) where
  failures := by
    rw [aggregate_failures]
    exact ⟨_, List.mergeSort_perm .., Failure.forall₂_tellsOf os⟩
  ascending := (pairwise_failures os).imp fun h => Text.bytes_le_iff.mpr (of_decide_eq_true h)
  positive h := by
    have hstates := aggregate_stating os
    rw [← map_line_failures, h] at hstates
    exact ⟨hstates.status, hstates.reason, hstates.message⟩
  negative h := by
    have hstates := aggregate_stating os
    have hlines : (aggregate os).failures.map Failure.line ≠ [] :=
      fun hnil => h (List.map_eq_nil_iff.mp hnil)
    rw [← map_line_failures] at hstates
    refine ⟨?_, ?_, ?_⟩
    · rw [hstates.status, if_neg hlines]
    · rw [hstates.reason, if_neg hlines, errorReason]
    · rw [hstates.message, if_neg hlines]

/-- A verdict is positive exactly if it has no failures. -/
theorem SumsUp.isAvailable_iff {os : List Observation} {v : Verdict} (h : SumsUp os v) :
    v.isAvailable = true ↔ v.failures = [] := by
  rw [isAvailable, decide_eq_true_eq]
  refine ⟨fun hstatus => ?_, fun hnone => (h.positive hnone).1⟩
  by_contra hsome
  rw [(h.negative hsome).1] at hstatus
  contradiction

end Verdict

/-- **A verdict is a lossless merge.**  It sums up the observations, each as often as it was made;
the failures over two lists of observations are those over either, merged in order; and a verdict is
positive exactly if the verdicts over its parts are. -/
theorem aggregate_lossless (os os' : List Observation) :
    Verdict.SumsUp os (aggregate os) ∧
    (aggregate (os ++ os')).failures =
      (aggregate os).failures.merge (aggregate os').failures Failure.lineLe ∧
    ((aggregate (os ++ os')).isAvailable = true ↔
      (aggregate os).isAvailable = true ∧ (aggregate os').isAvailable = true) := by
  have happend := failures_append os os'
  have hsums := Verdict.sumsUp_aggregate
  refine ⟨hsums os, happend, ?_⟩
  rw [(hsums _).isAvailable_iff, (hsums os).isAvailable_iff, (hsums os').isAvailable_iff, happend,
    ← List.length_eq_zero_iff, List.length_merge, Nat.add_eq_zero_iff, List.length_eq_zero_iff,
    List.length_eq_zero_iff]

end ApiAvailability
