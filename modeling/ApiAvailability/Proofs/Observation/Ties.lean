import ApiAvailability.Proofs.Observation.Lines

/-!
# Proofs/Observation/Ties — failures that one line tells of

A verdict has its failures in the order of their lines, and a line does not tell where the name ends
and the cause begins: `v1.a: b` with the cause `c` reads like `v1.a` with the cause `b: c`.  Failures
that read alike stay in the order in which they were observed (`toldBy_mergeSort`), and they are all
that a verdict keeps of that order:

* `aggregate_eq_iff` — verdicts are equal exactly if each line tells of the same failures, in the
  order in which they were observed;
* `eq_of_line_eq` — a line tells of one failure only, as long as there is no `: ` in names;
* `aggregate_perm` — what two verdicts have in common over the same observations in another order.
-/

namespace ApiAvailability

namespace Failure

/-! ## The order of failures -/

theorem lineLe_trans (a b c : Failure) (hab : a.lineLe b = true) (hbc : b.lineLe c = true) :
    a.lineLe c = true := lineOrder_trans a.line b.line c.line hab hbc

theorem lineLe_total (a b : Failure) : (a.lineLe b || b.lineLe a) = true :=
  lineOrder_total a.line b.line

/-- Failures either of which may stand before the other have the same line. -/
theorem line_eq_of_lineLe {a b : Failure} (hab : a.lineLe b = true) (hba : b.lineLe a = true) :
    a.line = b.line := by
  simp only [lineLe, decide_eq_true_eq] at hab hba
  exact le_antisymm hab hba

/-- Sorted failures are in the order of their lines. -/
theorem pairwise_mergeSort (fs : List Failure) :
    (fs.mergeSort lineLe).Pairwise fun a b => a.lineLe b = true :=
  List.pairwise_mergeSort lineLe_trans lineLe_total fs

/-! ## Failures that read alike -/

/-- **The failures that a line tells of**, among some. -/
def toldBy (l : String) (fs : List Failure) : List Failure := fs.filter (·.line = l)

theorem toldBy_cons (l : String) (f : Failure) (fs : List Failure) :
    toldBy l (f :: fs) = if f.line = l then f :: toldBy l fs else toldBy l fs := by
  simp [toldBy, List.filter_cons]

theorem mem_toldBy {l : String} {f : Failure} {fs : List Failure} :
    f ∈ toldBy l fs ↔ f ∈ fs ∧ f.line = l := by
  simp [toldBy]

/-- **Failures that read alike stay in their order.** -/
theorem toldBy_mergeSort (l : String) (fs : List Failure) :
    toldBy l (fs.mergeSort lineLe) = toldBy l fs := by
  -- they are in order as they come, so that sorting leaves them one behind the other
  have hordered : (toldBy l fs).Pairwise fun a b => a.lineLe b = true := by
    refine List.pairwise_of_forall_mem_list fun a ha b hb => ?_
    rw [lineLe, (mem_toldBy.mp ha).2, (mem_toldBy.mp hb).2]
    exact decide_eq_true (le_refl l)
  have hsub : (toldBy l fs).Sublist (fs.mergeSort lineLe) :=
    List.sublist_mergeSort lineLe_trans lineLe_total hordered List.filter_sublist
  have hagain : toldBy l (toldBy l fs) = toldBy l fs := by
    simp [toldBy]
  have hlength : (toldBy l fs).length = (toldBy l (fs.mergeSort lineLe)).length :=
    ((List.mergeSort_perm fs lineLe).filter _).length_eq.symm
  have hkept : (toldBy l (toldBy l fs)).Sublist (toldBy l (fs.mergeSort lineLe)) := hsub.filter _
  rw [hagain] at hkept
  exact (hkept.eq_of_length hlength).symm

/-- Lists with the same failures for every line have the same failures. -/
theorem mem_iff_of_toldBy {fs gs : List Failure} (h : ∀ l, toldBy l fs = toldBy l gs)
    {f : Failure} : f ∈ fs ↔ f ∈ gs := by
  have hf : f ∈ toldBy f.line fs ↔ f ∈ toldBy f.line gs := by rw [h]
  rwa [mem_toldBy, mem_toldBy, and_iff_left rfl, and_iff_left rfl] at hf

/-- Failures in order are told by what each line tells of. -/
theorem eq_of_toldBy {fs gs : List Failure} (hf : fs.Pairwise fun a b => a.lineLe b = true)
    (hg : gs.Pairwise fun a b => a.lineLe b = true) (h : ∀ l, toldBy l fs = toldBy l gs) :
    fs = gs := by
  induction fs generalizing gs with
  | nil =>
    cases gs with
    | nil => rfl
    | cons g gs => exact absurd ((mem_iff_of_toldBy h).mpr List.mem_cons_self) List.not_mem_nil
  | cons f fs ih =>
    cases gs with
    | nil => exact absurd ((mem_iff_of_toldBy h).mp List.mem_cons_self) List.not_mem_nil
    | cons g gs =>
      rw [List.pairwise_cons] at hf hg
      -- the first line of all is that of either first failure
      have hline : f.line = g.line := by
        rcases List.mem_cons.mp ((mem_iff_of_toldBy h).mp List.mem_cons_self) with rfl | hfg
        · rfl
        rcases List.mem_cons.mp ((mem_iff_of_toldBy h).mpr List.mem_cons_self) with rfl | hgf
        · rfl
        · exact line_eq_of_lineLe (hf.1 g hgf) (hg.1 f hfg)
      have hfirst := h f.line
      rw [toldBy_cons, toldBy_cons, if_pos rfl, if_pos hline.symm, List.cons.injEq] at hfirst
      obtain ⟨rfl, -⟩ := hfirst
      have hrest (l : String) : toldBy l fs = toldBy l gs := by
        have hl := h l
        rw [toldBy_cons, toldBy_cons] at hl
        split at hl
        · exact (List.cons.inj hl).2
        · exact hl
      rw [ih hf.2 hg.2 hrest]

/-! ## Names that a line tells -/

/-- A text up to the first `: ` in it. -/
theorem eq_of_append_mark {xs ys us vs : List Char} (hx : ¬[':', ' '] <:+: xs)
    (hy : ¬[':', ' '] <:+: ys) (h : xs ++ ':' :: ' ' :: us = ys ++ ':' :: ' ' :: vs) :
    xs = ys ∧ us = vs := by
  induction xs generalizing ys with
  | nil =>
    match ys with
    | [] => simpa using h
    | [c] => simp at h
    | c :: c' :: ys =>
      obtain ⟨rfl, rfl, -⟩ : ':' = c ∧ ' ' = c' ∧ _ := by simpa using h
      exact absurd (List.prefix_append [':', ' '] ys).isInfix hy
  | cons x xs ih =>
    match ys, xs with
    | [], [] => simp at h
    | [], x' :: xs =>
      obtain ⟨rfl, rfl, -⟩ : x = ':' ∧ x' = ' ' ∧ _ := by simpa using h
      exact absurd (List.prefix_append [':', ' '] xs).isInfix hx
    | y :: ys, xs =>
      have hcons (c : Char) (zs : List Char) (hz : [':', ' '] <:+: zs) : [':', ' '] <:+: c :: zs :=
        hz.trans (List.suffix_cons c zs).isInfix
      rw [List.cons_append, List.cons_append] at h
      obtain ⟨rfl, htail⟩ := List.cons.inj h
      obtain ⟨rfl, rfl⟩ := ih (fun hz => hx (hcons _ _ hz)) (fun hz => hy (hcons _ _ hz)) htail
      exact ⟨rfl, rfl⟩

/-- **A line tells of one failure only**, as long as there is no `: ` in names. -/
theorem eq_of_line_eq {f g : Failure} (hf : ¬[':', ' '] <:+: f.name.toList)
    (hg : ¬[':', ' '] <:+: g.name.toList) (h : f.line = g.line) : f = g := by
  have hline (f : Failure) : f.line.toList =
      (resourceName ++ "/").toList ++ (f.name.toList ++ ':' :: ' ' :: f.cause.toList) := by
    simp [line, String.toList_append]
  have hrest := congrArg String.toList h
  rw [hline, hline, List.append_cancel_left_eq] at hrest
  obtain ⟨hname, hcause⟩ := eq_of_append_mark hf hg hrest
  rcases f with ⟨name, cause⟩
  rcases g with ⟨name', cause'⟩
  obtain rfl : name = name' := String.toList_inj.mp hname
  obtain rfl : cause = cause' := String.toList_inj.mp hcause
  rfl

end Failure

/-! ## Verdicts over the same observations -/

variable {os os' : List Observation}

/-- A verdict is told by its failures. -/
theorem aggregate_eq_of_failures_eq (h : (aggregate os).failures = (aggregate os').failures) :
    aggregate os = aggregate os' := by
  rw [aggregate_failures, aggregate_failures] at h
  rw [aggregate, aggregate, h]

/-- **Verdicts are equal exactly if each line tells of the same failures**, in the order in which
they were observed. -/
theorem aggregate_eq_iff : aggregate os = aggregate os' ↔
    ∀ l, Failure.toldBy l (os.filterMap Failure.ofObservation?) =
      Failure.toldBy l (os'.filterMap Failure.ofObservation?) := by
  refine ⟨fun h l => ?_, fun h => aggregate_eq_of_failures_eq ?_⟩
  · rw [← Failure.toldBy_mergeSort, ← aggregate_failures, h, aggregate_failures,
      Failure.toldBy_mergeSort]
  · rw [aggregate_failures, aggregate_failures]
    refine Failure.eq_of_toldBy (Failure.pairwise_mergeSort _) (Failure.pairwise_mergeSort _)
      fun l => ?_
    rw [Failure.toldBy_mergeSort, Failure.toldBy_mergeSort, h]

/-- In another order, the same failures are told. -/
theorem perm_failures (h : os.Perm os') :
    (aggregate os).failures.Perm (aggregate os').failures := by
  rw [aggregate_failures, aggregate_failures]
  exact (List.mergeSort_perm _ _).trans ((h.filterMap _).trans (List.mergeSort_perm _ _).symm)

/-- In another order, the same lines are told in the same order. -/
theorem map_line_failures_eq (h : os.Perm os') :
    (aggregate os).failures.map Failure.line = (aggregate os').failures.map Failure.line := by
  rw [map_line_failures, map_line_failures, sort_eq_of_perm (h.filterMap _)]

theorem pairwise_failures (os : List Observation) :
    (aggregate os).failures.Pairwise fun f g => f.lineLe g = true := by
  rw [aggregate_failures]
  exact Failure.pairwise_mergeSort _

/-- A verdict does not depend on the order of observations that all read differently. -/
theorem aggregate_eq_of_perm (h : os.Perm os')
    (hos : ∀ f ∈ (aggregate os).failures, ∀ g ∈ (aggregate os).failures, f.line = g.line → f = g) :
    aggregate os = aggregate os' := by
  have hperm := perm_failures h
  refine aggregate_eq_of_failures_eq ?_
  refine List.Perm.eq_of_pairwise (fun f g hf hg hfg hgf => ?_) (pairwise_failures os)
    (pairwise_failures os') hperm
  exact hos f hf g (hperm.mem_iff.mpr hg) (Failure.line_eq_of_lineLe hfg hgf)

/-- **What a verdict keeps of the order of observations**: status, reason, message and the lines of
the failures do not depend on it.  The failures are the same, and so are the verdicts, exactly if
each line tells of the same failures in the same order; this is so where no failing API service has
`: ` in its name. -/
theorem aggregate_perm (h : os.Perm os') :
    ((aggregate os).status = (aggregate os').status ∧
      (aggregate os).reason = (aggregate os').reason ∧
      (aggregate os).message = (aggregate os').message) ∧
    (aggregate os).failures.map Failure.line = (aggregate os').failures.map Failure.line ∧
    (aggregate os).failures.Perm (aggregate os').failures ∧
    (aggregate os = aggregate os' ↔
      ∀ l, Failure.toldBy l (os.filterMap Failure.ofObservation?) =
        Failure.toldBy l (os'.filterMap Failure.ofObservation?)) ∧
    ((∀ o ∈ os, o.outcome ≠ .available → ¬[':', ' '] <:+: o.name.toList) →
      aggregate os = aggregate os') := by
  refine ⟨?_, map_line_failures_eq h, perm_failures h, aggregate_eq_iff, fun hos => ?_⟩
  · have hstates := aggregate_stating os
    have hstates' := aggregate_stating os'
    rw [← sort_eq_of_perm (h.filterMap Observation.line?)] at hstates'
    exact ⟨hstates.status.trans hstates'.status.symm, hstates.reason.trans hstates'.reason.symm,
      hstates.message.trans hstates'.message.symm⟩
  · have hname (f : Failure) (hf : f ∈ (aggregate os).failures) :
        ¬[':', ' '] <:+: f.name.toList := by
      obtain ⟨o, ho, hfailing, hname⟩ := exists_failing hf
      rw [← hname]
      exact hos o ho hfailing
    exact aggregate_eq_of_perm h fun f hf g hg => Failure.eq_of_line_eq (hname f hf) (hname g hg)

/-- An API service that is down, one that cannot be read, twice, and one that is serving. -/
def Observation.sample : List Observation :=
  [⟨"v1.build", .unavailable "down"⟩, ⟨"v1.apps", .fetchFailed "timeout"⟩, ⟨"v1.image", .available⟩,
    ⟨"v1.apps", .fetchFailed "timeout"⟩]

theorem aggregate_perm_sample :
    aggregate Observation.sample.reverse = aggregate Observation.sample :=
  (aggregate_perm (List.reverse_perm Observation.sample)).2.2.2.2 (by decide +kernel)

/-- Two API services that one line tells of. -/
def Observation.alike : List Observation :=
  [⟨"v1.a: b", .ensureFailed "c"⟩, ⟨"v1.a", .ensureFailed "b: c"⟩]

/-- **One line, two API services**: the message is the same either way, the verdict is not, as its
failures come in the order in which they were observed. -/
theorem aggregate_reverse_alike :
    Observation.alike.reverse.Perm Observation.alike ∧
      (aggregate Observation.alike.reverse).message = (aggregate Observation.alike).message ∧
      aggregate Observation.alike.reverse ≠ aggregate Observation.alike := by
  have hperm := List.reverse_perm Observation.alike
  have hlines := sort_eq_of_perm (hperm.filterMap Observation.line?)
  have hmessage := (aggregate_stating Observation.alike.reverse).message
  rw [hlines, ← (aggregate_stating Observation.alike).message] at hmessage
  refine ⟨hperm, hmessage, fun h => ?_⟩
  have htold := aggregate_eq_iff.mp h "apiservices.apiregistration.k8s.io/v1.a: b: c"
  exact absurd htold (by decide +kernel)

end ApiAvailability
