import ApiAvailability.Proofs.Effects
import ApiAvailability.Proofs.Pass.Deeds
import ApiAvailability.Proofs.Pass.Verdict
import ApiAvailability.Proofs.Rehearsal.Steady

/-!
# Proofs/Pass/Due — conditions and versions are written when they are due

A pass writes its verdict once, or nothing, and it records the version if it wrote a positive
verdict.  With stores in memory the record and the counts of both follow (`wrote_sync`), and over
any number of passes they count the passes (`written_when_due`).
-/

namespace ApiAvailability

/-- Whether a pass has written its verdict. -/
def isReconciled : Except PassError PassOutcome → Bool
  | .ok (.reconciled _) => true
  | _ => false

/-- Whether a pass has written a positive verdict. -/
def isConverged : Except PassError PassOutcome → Bool
  | .ok outcome => outcome.converged
  | .error _ => false

theorem not_isReconciled_of_endsEarly {result : Except PassError PassOutcome}
    (h : EndsEarly result) : isReconciled result = false ∧ isConverged result = false := by
  rcases result with e | _ | v
  · exact ⟨rfl, rfl⟩
  · exact ⟨rfl, rfl⟩
  · exact h.elim

namespace Rehearsal

/-- **A world rests**: nothing is changed that a pass works on. -/
structure World.Rests (w w' : World) : Prop where
  cluster : w'.cluster = w.cluster
  status : w'.status = w.status
  versions : w'.versions = w.versions
  tree : w'.tree = w.tree
  events : w'.events = w.events

instance : IsPreorder World World.Rests where
  refl _ := ⟨rfl, rfl, rfl, rfl, rfl⟩
  trans _ _ _ h h' := ⟨h'.cluster.trans h.cluster, h'.status.trans h.status,
    h'.versions.trans h.versions, h'.tree.trans h.tree, h'.events.trans h.events⟩

namespace Stage

variable {s : Stage} {now : Time.Timestamp} {w w₁ w₂ : World}

/-- **The first half of a pass lets the world rest.** -/
theorem opening_rests (s : Stage) : s.assembled.Opening World.Rests where
  read w := by
    rw [snd_read]
    exact ⟨rfl, rfl, rfl, rfl, rfl⟩
  precondition w := by
    obtain ⟨n, checked, stopping, -, h⟩ := precondition_assembled (s := s) w
    rw [h]
    exact ⟨rfl, rfl, rfl, rfl, rfl⟩
  provider w := by
    rw [provider_assembled]
    exact refl w

/-! ## One pass, with stores in memory -/

/-- Whether an edit is one of the operator's record, on a certain stage. -/
def inRecord (s : Stage) : Edit → Bool
  | .condition _ => true
  | .version .. => s.versionsInStatus

@[simp] theorem inRecord_condition (c : OperatorCondition) : s.inRecord (.condition c) = true := rfl

@[simp] theorem inRecord_version (component version : String) :
    s.inRecord (.version component version) = s.versionsInStatus := rfl

section Memory

variable (hs : s.backend = .memory)

include hs

/-- Before the verdict is written, record and versions are as they were. -/
theorem status_of_reaches_write {v : Verdict} (h : s.assembled.Reaches now w (.write v) w₁) :
    w₁.status = w.status ∧ w₁.versions = w.versions := by
  cases h with
  | @observed ds os w₀ _ hwork hobserve =>
    have hrests := (opening_rests s).work hwork
    obtain ⟨c, es, hmoved⟩ := observe_moved hs ds w₀
    obtain rfl : w₁ = s.moved w₀ c es := (congrArg Prod.snd hobserve).symm.trans hmoved
    exact ⟨hrests.status, hrests.versions⟩

/-- A condition that cannot be written leaves the record and the versions. -/
theorem status_of_upsert_error {c : OperatorCondition} {e : StoreError}
    (h : s.assembled.status.upsert c w₁ = (.error e, w₂)) :
    w₂.status = w₁.status ∧ w₂.versions = w₁.versions := by
  rw [upsert_memory hs] at h
  split at h
  · obtain ⟨-, rfl⟩ := Prod.mk.inj h
    exact ⟨rfl, rfl⟩
  · cases h

/-- A condition that is written is one edit of the record. -/
theorem status_of_upsert_ok {c : OperatorCondition}
    (h : s.assembled.status.upsert c w₁ = (.ok (), w₂)) :
    w₂.status.state = w₁.status.state.setCondition c ∧ w₂.status.writes = w₁.status.writes + 1 ∧
      w₂.versions = w₁.versions := by
  rw [upsert_memory hs] at h
  split at h
  · cases h
  · obtain ⟨-, rfl⟩ := Prod.mk.inj h
    exact ⟨rfl, rfl, rfl⟩

theorem recordVersion_memory (component version : String) (w : World) :
    (s.assembled.recordVersion component version w).2 =
      if s.versionsInStatus then { w with status := w.status.setVersion component version }
      else { w with versions := w.versions.record component version } := by
  change (s.recordVersion component version w).2 = _
  rw [recordVersion, hs]
  split <;> rfl

end Memory

/-- **What a pass with a certain result has written** on a stage in memory. -/
structure Wrote (s : Stage) (now : Time.Timestamp) (result : Except PassError PassOutcome)
    (w w' : World) : Prop where
  state : w'.status.state =
    ((s.assembled.due now result).filter s.inRecord).foldl OperatorState.edit w.status.state
  writes : w'.status.writes = w.status.writes + [result].countP isReconciled
  versions : w'.versions = if isConverged result && !s.versionsInStatus then
    w.versions.record s.component s.operandVersion else w.versions

theorem Wrote.of_endsEarly {result : Except PassError PassOutcome} (h : EndsEarly result)
    (hrests : w.Rests w₁) : s.Wrote now result w w₁ := by
  obtain ⟨hreconciled, hconverged⟩ := not_isReconciled_of_endsEarly h
  refine ⟨?_, ?_, ?_⟩
  · rw [Reconciler.due_of_endsEarly h, hrests.status]
    rfl
  · rw [hrests.status, List.countP_singleton, hreconciled]
    rfl
  · rw [hrests.versions, hconverged]
    rfl

/-- Versions that are recorded apart are counted, one for a pass with a positive verdict. -/
theorem Wrote.calls {result : Except PassError PassOutcome} (h : s.Wrote now result w w₁)
    (hapart : s.versionsInStatus = false) :
    w₁.versions.calls = w.versions.calls + [result].countP isConverged := by
  rw [h.versions, hapart, List.countP_singleton]
  cases isConverged result <;> rfl

/-- Without a positive verdict no version is recorded, wherever that would be. -/
theorem Wrote.versions_eq {result : Except PassError PassOutcome} (h : s.Wrote now result w w₁)
    (hnone : isConverged result = false) : w₁.versions = w.versions ∧
      w₁.status.state.status.versions = w.status.state.status.versions := by
  refine ⟨by rw [h.versions, hnone]; rfl, ?_⟩
  rw [h.state]
  rcases result with e | reason | v
  · rfl
  · rfl
  · have hv : v.isAvailable = false := hnone
    rw [Reconciler.due, hv]
    rfl

/-- **A pass writes what is due.** -/
theorem wrote_sync (hs : s.backend = .memory) (now : Time.Timestamp) (w : World) :
    s.Wrote now (s.assembled.sync now w).1 w (s.assembled.sync now w).2 := by
  rcases Reconciler.course s.assembled now w with ⟨o, w₂, hmeets⟩ | ⟨v, w₂, hconclude⟩
  · rw [hmeets.sync_eq]
    by_cases ho : o.IsEarly
    · exact .of_endsEarly (Obstacle.endsEarly_result.mpr ho) ((opening_rests s).meets hmeets ho)
    -- a verdict that cannot be written is behind the work on objects, which does not rest
    · cases hmeets with
      | unwritten hwrite hupsert =>
        obtain ⟨hstatus, hversions⟩ := status_of_reaches_write hs hwrite
        obtain ⟨hstatus', hversions'⟩ := status_of_upsert_error hs hupsert
        have hkept := hstatus'.trans hstatus
        exact ⟨congrArg (·.state) hkept, congrArg (·.writes) hkept, hversions'.trans hversions⟩
      | _ => exact absurd trivial ho
  · rw [hconclude.sync_eq_concluded]
    cases hconclude with
    | written hwrite hupsert =>
      obtain ⟨hstatus, hversions⟩ := status_of_reaches_write hs hwrite
      obtain ⟨hstate', hwrites', hversions'⟩ := status_of_upsert_ok hs hupsert
      rw [hstatus] at hstate' hwrites'
      rw [hversions] at hversions'
      rw [Reconciler.concluded, recordVersion_memory hs]
      by_cases hv : v.isAvailable = true
      · rw [if_pos hv]
        by_cases hkept : s.versionsInStatus = true
        · rw [if_pos hkept]
          refine ⟨?_, hwrites', ?_⟩
          · simp [Reconciler.due, hv, hkept, List.filter_cons, OperatorState.edit, ← hstate',
              MemoryStatus.setVersion]
          · simp [hversions', hkept]
        · rw [if_neg hkept]
          refine ⟨?_, hwrites', ?_⟩
          · simp [Reconciler.due, hv, hkept, List.filter_cons, OperatorState.edit, hstate']
          · simp [hversions', isConverged, PassOutcome.converged, hv, hkept, assembled]
      · rw [if_neg hv]
        refine ⟨?_, hwrites', ?_⟩
        · simp [Reconciler.due, hv, List.filter_cons, OperatorState.edit, hstate']
        · simp [hversions', isConverged, PassOutcome.converged, hv]

end Stage

end Rehearsal

/-! ## Runs -/

open Rehearsal

/-- **What happens to a world**: a pass, which is labelled with its result, or anything else that
leaves the counts and the recorded versions. -/
inductive Passing (r : Reconciler (StateM World)) :
    World → List (Except PassError PassOutcome) → World → Prop
  | pass (now : Time.Timestamp) (w : World) : Passing r w [(r.sync now w).1] (r.sync now w).2
  | change {w w' : World} (hwrites : w'.status.writes = w.status.writes)
      (hversions : w'.versions = w.versions)
      (hrecorded : w'.status.state.status.versions = w.status.state.status.versions) :
      Passing r w [] w'

/-- **Conditions and versions are written exactly when they are due.**  Each pass of a reconciler in
memory writes its verdict, once, if it comes to one, and the configured version after it, once, if
the verdict is positive; no other pass writes anything.  So after any run the counts are those of
such passes, and without a positive verdict the recorded versions are still the first ones. -/
theorem written_when_due {s : Stage} {r : Reconciler (StateM World)} (hs : s.backend = .memory)
    (hr : s.reconciler = .ok r) :
    (∀ now w, (r.deeds now w).filterMap Deed.edit? = r.due now (r.sync now w).1) ∧
    ∀ {w w' : World} {results : List (Except PassError PassOutcome)},
      Steps (Passing r) w results w' →
      w'.status.writes = w.status.writes + results.countP isReconciled ∧
      (s.versionsInStatus = false →
        w'.versions.calls = w.versions.calls + results.countP isConverged) ∧
      (results.countP isConverged = 0 → w'.versions = w.versions ∧
        w'.status.state.status.versions = w.status.state.status.versions) := by
  obtain rfl := Stage.eq_assembled hr
  refine ⟨s.assembled.edits_deeds, fun hsteps => ⟨?_, fun hapart => ?_, fun hnone => ⟨?_, ?_⟩⟩⟩
  · refine hsteps.countP (·.status.writes) fun w as w' hstep => ?_
    cases hstep with
    | pass now w => exact (Stage.wrote_sync hs now w).writes
    | change hwrites _ _ => exact hwrites
  · refine hsteps.countP (·.versions.calls) fun w as w' hstep => ?_
    cases hstep with
    | pass now w => exact (Stage.wrote_sync hs now w).calls hapart
    | change _ hversions _ => exact congrArg (·.calls) hversions
  · refine hsteps.unchanged (·.versions) (fun w as w' hstep hnone => ?_) hnone
    cases hstep with
    | pass now w => exact ((Stage.wrote_sync hs now w).versions_eq (by simpa using hnone)).1
    | change _ hversions _ => exact hversions
  · refine hsteps.unchanged (·.status.state.status.versions) (fun w as w' hstep hnone => ?_) hnone
    cases hstep with
    | pass now w => exact ((Stage.wrote_sync hs now w).versions_eq (by simpa using hnone)).2
    | change _ _ hrecorded => exact hrecorded

/-- A stage in memory that records versions apart from the conditions. -/
def Rehearsal.Stage.apart : Stage := { Stage.complete with versionsInStatus := false }

/-- The empty world, with the counts and the recorded versions of another. -/
def Rehearsal.World.cleared (w : World) : World :=
  { World.empty with
    versions := w.versions
    status := {
      MemoryStatus.ofState ⟨.managed, ⟨[], w.status.state.status.versions⟩⟩ with
      writes := w.status.writes } }

/-- Of two passes, the first in a world with troubles and the second after all was taken away, both
write a condition, and only the second records the version. -/
theorem written_when_due_troubled :
    let r := Stage.apart.assembled
    let w := (r.sync (World.time 0) World.troubled).2
    let w' := (r.sync (World.time 1) w.cleared).2
    (w.status.writes = 1 ∧ w.versions = .empty) ∧ w'.status.writes = 2 ∧ w'.versions.calls = 1 := by
  intro r w w'
  obtain ⟨-, hruns⟩ := written_when_due (s := .apart) rfl (Stage.reconciler_of_without rfl)
  have htroubled : Stage.apart.Unhindered World.troubled := ⟨rfl, rfl, rfl, rfl, rfl⟩
  have hfirst : (r.sync (World.time 0) World.troubled).1 =
      .ok (.reconciled (aggregate (World.troubled.cluster.observations World.troubled.desired))) :=
    (sync_memory (s := .apart) rfl World.stateless_troubled World.nodup_troubled
      (htroubled.opening rfl) _).result
  have hcleared (w : World) : (r.sync (World.time 1) w.cleared).1 =
      .ok (.reconciled (aggregate [])) := by
    have hunhindered : Stage.apart.Unhindered w.cleared := ⟨rfl, rfl, rfl, rfl, rfl⟩
    have hstateless : w.cleared.cluster.Stateless := fun _ h => absurd h List.not_mem_nil
    have hnothing : (([] : List Desired).map (·.name)).Nodup := List.nodup_nil
    exact (sync_memory (s := .apart) rfl hstateless hnothing (hunhindered.opening rfl) _).result
  have hnegative : (aggregate
      (World.troubled.cluster.observations World.troubled.desired)).isAvailable = false := by
    rw [isAvailable_aggregate]
    decide +kernel
  have hpositive : (aggregate []).isAvailable = true := isAvailable_aggregate []
  have hpass (now : Time.Timestamp) (w : World) {results : List (Except PassError PassOutcome)}
      {w' : World} (rest : Steps (Passing r) (r.sync now w).2 results w') :
      Steps (Passing r) w ((r.sync now w).1 :: results) w' := .one (.pass now w) rest
  have hchange (w : World) {results : List (Except PassError PassOutcome)} {w' : World}
      (rest : Steps (Passing r) w.cleared results w') : Steps (Passing r) w results w' := by
    have hcleared : Passing r w [] w.cleared := .change rfl rfl rfl
    exact .one hcleared rest
  have hone := hpass (World.time 0) World.troubled (.none w)
  have htwo := hpass (World.time 0) World.troubled
    (hchange w (hpass (World.time 1) w.cleared (.none w')))
  rw [hfirst] at hone htwo
  rw [hcleared w] at htwo
  obtain ⟨hwrites, -, hversions⟩ := hruns hone
  obtain ⟨hwrites', hcalls', -⟩ := hruns htwo
  refine ⟨⟨hwrites, (hversions ?_).1⟩, hwrites', (hcalls' rfl).trans ?_⟩
  · simp [isConverged, PassOutcome.converged, hnegative]
  · simp [isConverged, PassOutcome.converged, hnegative, hpositive]
    rfl

end ApiAvailability
