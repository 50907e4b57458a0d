import ApiAvailability.Config.Valid
import ApiAvailability.Proofs.Observation.Lines
import ApiAvailability.Proofs.Pass.Addition
import ApiAvailability.Proofs.Text.Bytes

/-!
# Proofs/Pass/Lines — how many lines the verdict of a pass takes

The message of a verdict is joined from lines and split at line feeds again.  What comes of it is
told by the line feeds in the names: causes have none, they are put on one line.

* `lines_aggregate` — a verdict's lines are the lines of its failures, each split in turn;
* `length_lines_aggregate` — one line for each failing API service, and one for each line feed in
  its name;
* `oneLineEach_iff` — one line each, exactly if no failing API service has a line feed in its name.

A pass observes what it is told to (`map_name_observe_perm`), and a valid configuration may have
line feeds in its identities (`lines_broken`).
-/

namespace ApiAvailability

open Rehearsal

/-! ## Lines of texts -/

namespace Text

/-- The lines of a text: what stands between its line feeds. -/
def lines (s : String) : List String := (s.toList.splitOn '\n').map String.ofList

/-- The number of line feeds in a text. -/
def breaks (s : String) : Nat := s.toList.count '\n'

theorem breaks_eq_zero {s : String} : breaks s = 0 ↔ '\n' ∉ s.toList := List.count_eq_zero

theorem length_splitOn (cs : List Char) : (cs.splitOn '\n').length = cs.count '\n' + 1 := by
  induction cs with
  | nil => rfl
  | cons c cs ih =>
    rw [List.splitOn_cons_eq_if_modifyHead]
    by_cases hc : c = '\n'
    · rw [if_pos (by simpa using hc), List.length_cons, ih, hc, List.count_cons_self]
    · rw [if_neg (by simpa using hc), List.length_modifyHead, ih, List.count_cons_of_ne hc]

theorem length_lines (s : String) : (lines s).length = breaks s + 1 := by
  rw [lines, List.length_map, length_splitOn, breaks]

theorem lines_eq_singleton {s : String} (h : '\n' ∉ s.toList) : lines s = [s] := by
  rw [lines, List.splitOn_eq_singleton h, List.map_singleton, String.ofList_toList]

theorem splitOn_intercalate (c : Char) {ls : List (List Char)} (h : ls ≠ []) :
    ([c].intercalate ls).splitOn c = ls.flatMap (List.splitOn c) := by
  induction ls with
  | nil => exact absurd rfl h
  | cons l ls ih =>
    cases ls with
    | nil => simp
    | cons l' ls =>
      rw [List.intercalate_cons_cons, List.append_assoc, List.singleton_append,
        List.splitOn_append_cons_self, ih (List.cons_ne_nil _ _)]
      rfl

/-- **What is joined from lines has the lines of these.** -/
theorem lines_intercalate {ls : List String} (h : ls ≠ []) :
    lines ("\n".intercalate ls) = ls.flatMap lines := by
  have hmap : ls.map String.toList ≠ [] := fun he => h (List.map_eq_nil_iff.mp he)
  rw [lines, String.toList_intercalate, show "\n".toList = ['\n'] from rfl,
    splitOn_intercalate '\n' hmap, List.flatMap_map, List.map_flatMap]
  rfl

end Text

/-! ## Lines of verdicts -/

theorem breaks_oneLine (s : String) : Text.breaks (oneLine s) = 0 := by
  rw [Text.breaks_eq_zero, oneLine, String.toList_map, List.mem_map]
  rintro ⟨c, -, hc⟩
  split at hc
  · exact absurd hc (by decide)
  · exact absurd hc (by tauto)

variable {os : List Observation}

theorem breaks_line (f : Failure) :
    Text.breaks f.line = Text.breaks f.name + Text.breaks f.cause := by
  have hresource : resourceName.toList.count '\n' = 0 := by decide
  simp [Text.breaks, Failure.line, String.toList_append, List.count_append, hresource]

theorem breaks_line_of_mem {f : Failure} (h : f ∈ (aggregate os).failures) :
    Text.breaks f.line = Text.breaks f.name := by
  obtain ⟨o, -, text, -, rfl⟩ := mem_failures.mp h
  rw [breaks_line, breaks_oneLine, Nat.add_zero]

/-- **The lines of a verdict are the lines of its failures**, each split at its line feeds. -/
theorem lines_aggregate (os : List Observation) : (aggregate os).lines =
    (aggregate os).failures.flatMap fun f => Text.lines f.line := by
  have hstates := Verdict.stating_ofFailures (aggregate os).failures
  rw [aggregate_failures, ← aggregate, ← aggregate_failures] at hstates
  rw [Verdict.lines, hstates.message]
  cases hfs : (aggregate os).failures with
  | nil => rfl
  | cons f fs =>
    have hne : (f :: fs).map Failure.line ≠ [] := List.cons_ne_nil _ _
    rw [if_neg hne]
    exact (Text.lines_intercalate hne).trans (List.flatMap_map ..)

/-- The API services that fail are those that are observed to be failing. -/
theorem map_name_failures_perm (os : List Observation) :
    ((aggregate os).failures.map Failure.name).Perm
      ((os.filter fun o => !o.outcome.isAvailable).map Observation.name) := by
  have hnames : (os.filterMap Failure.ofObservation?).map Failure.name =
      (os.filter fun o => !o.outcome.isAvailable).map Observation.name := by
    induction os with
    | nil => rfl
    | cons o os ih =>
      rcases o with ⟨name, outcome⟩
      cases outcome with
      | available => exact ih
      | _ => exact congrArg (name :: ·) ih
  rw [aggregate_failures, ← hnames]
  exact (List.mergeSort_perm _ _).map _

theorem length_flatMap_lines {fs : List Failure}
    (h : ∀ f ∈ fs, Text.breaks f.line = Text.breaks f.name) :
    (fs.flatMap fun f => Text.lines f.line).length =
      (fs.map Failure.name).length + ((fs.map Failure.name).flatMap String.toList).count '\n' := by
  induction fs with
  | nil => rfl
  | cons f fs ih =>
    have hf : (Text.lines f.line).length = f.name.toList.count '\n' + 1 := by
      rw [Text.length_lines, h f List.mem_cons_self, Text.breaks]
    rw [List.flatMap_cons, List.length_append, hf, ih fun f' h' => h f' (List.mem_cons_of_mem f h'),
      List.map_cons, List.flatMap_cons, List.length_cons, List.count_append]
    omega

/-- **A verdict has one line for each failing API service, and one for each line feed in its
name.** -/
theorem length_lines_aggregate (os : List Observation) : (aggregate os).lines.length =
    (os.countP fun o => !o.outcome.isAvailable) +
      ((os.filter fun o => !o.outcome.isAvailable).flatMap fun o => o.name.toList).count '\n' := by
  have hnames := map_name_failures_perm os
  rw [lines_aggregate, length_flatMap_lines fun f hf => breaks_line_of_mem hf, hnames.length_eq,
    (hnames.flatMap_right String.toList).count_eq, List.length_map, ← List.countP_eq_length_filter,
    List.flatMap_map]

/-! ## One line each -/

theorem Outcome.not_isAvailable_iff {o : Outcome} : (!o.isAvailable) = true ↔ o ≠ available := by
  cases o <;> simp [isAvailable]

/-- **One line for each failing API service**, which is the line of its failure, in the order of
their bytes. -/
structure OneLineEach (os : List Observation) : Prop where
  count : (aggregate os).lines.length = os.countP fun o => !o.outcome.isAvailable
  lines : (aggregate os).lines = (aggregate os).failures.map Failure.line
  ascending : (aggregate os).lines.Pairwise fun l l' => Text.bytes l ≤ Text.bytes l'

/-- **Each failing API service has one line, exactly if none has a line feed in its name.** -/
theorem oneLineEach_iff : OneLineEach os ↔
    ∀ o ∈ os, o.outcome ≠ .available → '\n' ∉ o.name.toList := by
  have hcount : (aggregate os).lines.length = (os.countP fun o => !o.outcome.isAvailable) ↔
      ∀ o ∈ os, o.outcome ≠ .available → '\n' ∉ o.name.toList := by
    rw [length_lines_aggregate, Nat.add_eq_left, List.count_eq_zero, List.mem_flatMap]
    simp only [List.mem_filter, Outcome.not_isAvailable_iff, not_exists, not_and, and_imp]
  refine ⟨fun h => hcount.mp h.count, fun h => ?_⟩
  have hlines : (aggregate os).lines = (aggregate os).failures.map Failure.line := by
    rw [lines_aggregate, List.map_eq_flatMap]
    refine List.flatMap_congr fun f hf => Text.lines_eq_singleton ?_
    rw [← Text.breaks_eq_zero, breaks_line_of_mem hf, Text.breaks_eq_zero]
    obtain ⟨o, ho, hfailing, hname⟩ := exists_failing hf
    rw [← hname]
    exact h o ho hfailing
  refine ⟨hcount.mpr h, hlines, ?_⟩
  simp only [Text.bytes_le_iff]
  rw [hlines, map_line_failures]
  exact pairwise_sort _

/-! ## Lines of passes -/

section Passes

variable {σ : Type}

/-- Whatever comes of ensuring, an entry is given up or it is ready. -/
theorem names_perm (ensured : List (Desired × Except StoreError Ensured)) :
    ((ensured.filterMap Observation.ofEnsured?).map Observation.name ++
      (ensured.filterMap ready?).map Desired.name).Perm (ensured.map fun p => p.1.name) := by
  induction ensured with
  | nil => exact .refl []
  | cons p ensured ih =>
    rcases p with ⟨d, e | how⟩
    · exact ih.cons d.name
    · exact List.perm_middle.trans (ih.cons d.name)

/-- **A pass observes each desired API service once**, whatever it works with. -/
theorem map_name_observe_perm (registry : Registry (StateM σ)) (record : Event → StateM σ Unit)
    (ds : List Desired) (w : σ) :
    ((observe registry record ds w).1.map Observation.name).Perm (ds.map Desired.name) := by
  have hensured : (ensureAll registry record ds w).1.map Prod.fst = ds := map_fst_mapM ..
  rw [observe, bind_apply, bind_apply, pure_apply]
  generalize ensureAll registry record ds w = ensured at *
  have hfetched : (fetchAll registry (ensured.1.filterMap ready?) ensured.2).1.map Prod.fst =
      ensured.1.filterMap ready? := map_fst_mapM ..
  have hnames := names_perm ensured.1
  rw [← hfetched] at hnames
  rw [← hensured]
  simpa [Function.comp_def] using hnames

/-- What a pass observes has the names that the configuration gives. -/
theorem name_mem_names {c : Config} {r : Reconciler (StateM σ)} {w : σ} {o : Observation}
    (h : o ∈ (r.observe c.desired w).1) : o.name ∈ c.names := by
  rw [← c.map_name_desired]
  exact (map_name_observe_perm r.registry r.recordEvent c.desired w).mem_iff.mp
    (List.mem_map_of_mem h)

/-- **How many lines the message of a verdict takes**: the lines of the failures, each split at its
line feeds, so that there is one for each failing API service, and one for each line feed in its
name.  Each failing API service has one line exactly if none has a line feed in its name; this holds
for the passes of every configuration without line feeds in its identities. -/
theorem lines_account (os : List Observation) (c : Config) (r : Reconciler (StateM σ)) (w : σ) :
    (aggregate os).lines = ((aggregate os).failures.flatMap fun f => Text.lines f.line) ∧
    (aggregate os).lines.length = (os.countP fun o => !o.outcome.isAvailable) +
      ((os.filter fun o => !o.outcome.isAvailable).flatMap fun o => o.name.toList).count '\n' ∧
    (OneLineEach os ↔ ∀ o ∈ os, o.outcome ≠ .available → '\n' ∉ o.name.toList) ∧
    ((∀ name ∈ c.names, '\n' ∉ name.toList) → OneLineEach (r.observe c.desired w).1) := by
  refine ⟨lines_aggregate os, length_lines_aggregate os, oneLineEach_iff, fun hc => ?_⟩
  exact oneLineEach_iff.mpr fun o ho _ => hc o.name (name_mem_names ho)

/-- A pass for one API service. -/
theorem lines_account_single :
    OneLineEach (Stage.complete.assembled.observe Config.single.desired World.troubled).1 :=
  (lines_account [] Config.single Stage.complete.assembled World.troubled).2.2.2 (by decide +kernel)

theorem aggregate_singleton (o : Observation) :
    aggregate [o] = .ofFailures (Failure.ofObservation? o).toList := by
  rw [aggregate]
  cases h : Failure.ofObservation? o <;> simp [h]

/-- A configuration with a line feed in the group of its API service. -/
def Config.broken : Config :=
  { Config.single with apiServices := [⟨"build\nopenshift", "v1", none, none⟩] }

/-- What a pass observes for it. -/
def Observation.broken : Observation := ⟨"v1.build\nopenshift", .unavailable Health.noCondition⟩

/-- **One API service, two lines**: the configuration is valid, and its API service is failing. -/
theorem lines_broken :
    Config.broken.validate = .ok () ∧
    (Stage.complete.assembled.observe Config.broken.desired World.troubled).1 = [.broken] ∧
    (aggregate [.broken]).lines = ["apiservices.apiregistration.k8s.io/v1.build",
      "openshift: not available: no Available condition reported"] ∧
    ¬OneLineEach [.broken] := by
  have hvalid : Config.broken.violation? = none := by decide +kernel
  refine ⟨by rw [Config.validate, hvalid], by decide +kernel, ?_, fun h => ?_⟩
  · rw [aggregate_singleton]
    decide +kernel
  · have hbreak : '\n' ∈ Observation.broken.name.toList := by decide +kernel
    exact oneLineEach_iff.mp h .broken List.mem_cons_self (Outcome.noConfusion ·) hbreak

end Passes

end ApiAvailability
