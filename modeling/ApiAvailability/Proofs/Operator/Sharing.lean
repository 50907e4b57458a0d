import ApiAvailability.Proofs.Pass.Due

/-!
# Proofs/Operator/Sharing — passes share the operator's record with others

The record that a pass writes to is written to by others as well, before it, after it and in
between.  Whatever is written by whom, the record after any number of writes and passes is the one
before with all edits made (`state_of_sharing`), so that everyone finds what was written last and
finds all else untouched (`sharing_amends`).
-/

namespace ApiAvailability

open Rehearsal

/-- **What happens to a record in memory**, labelled with the edits that are made: someone writes a
condition or a version, a pass is made, or something else happens that leaves the record. -/
inductive Sharing (s : Stage) (r : Reconciler (StateM World)) : World → List Edit → World → Prop
  | condition {c : OperatorCondition} {w : World} {status : MemoryStatus}
      (h : w.status.upsert c = (.ok (), status)) : Sharing s r w [.condition c] { w with status }
  | version (component version : String) (w : World) :
      Sharing s r w [.version component version]
        { w with status := w.status.setVersion component version }
  | pass (now : Time.Timestamp) (w : World) :
      Sharing s r w ((r.due now (r.sync now w).1).filter s.inRecord) (r.sync now w).2
  | other {w w' : World} (h : w'.status.state = w.status.state) : Sharing s r w [] w'

variable {s : Stage} {r : Reconciler (StateM World)} {w w' : World} {es : List Edit}

/-- **The record follows the edits.** -/
theorem state_of_sharing (hs : s.backend = .memory)
    (h : Steps (Sharing s s.assembled) w es w') :
    w'.status.state = es.foldl OperatorState.edit w.status.state := by
  refine h.foldl (·.status.state) fun w es w' hstep => ?_
  cases hstep with
  | @condition c w status hupsert =>
    rw [MemoryStatus.upsert] at hupsert
    split at hupsert
    · cases hupsert
    · obtain ⟨-, rfl⟩ := Prod.mk.inj hupsert
      rfl
  | version => rfl
  | pass now w => exact (Stage.wrote_sync hs now w).state
  | other h => exact h

/-- A pass writes conditions of one type only. -/
theorem type_of_due {now : Time.Timestamp} {result : Except PassError PassOutcome} {type : String}
    (h : type ∈ (r.due now result).filterMap Edit.type?) : type = Verdict.conditionType := by
  rcases result with e | _ | v
  · contradiction
  · contradiction
  · rw [Reconciler.due] at h
    split at h
    · exact List.mem_singleton.mp h
    · exact List.mem_singleton.mp h

/-- A pass writes versions of one component only. -/
theorem name_of_due {now : Time.Timestamp} {result : Except PassError PassOutcome} {name : String}
    (h : name ∈ (r.due now result).filterMap Edit.name?) : name = r.component := by
  rcases result with e | _ | v
  · contradiction
  · contradiction
  · rw [Reconciler.due] at h
    split at h
    · exact List.mem_singleton.mp h
    · contradiction

/-- **Everyone finds in a shared record what was written last, and finds all else untouched.**  Over
any number of writes and passes, of edits `es` in all:

* whether the operator is to act stays as it is;
* entries stay in their places, those whose key no edit names and those behind the first of a key
  stay as they are, and a new entry comes behind all others, if its key was missing; so keys that
  were different from each other still are;
* what is looked up is what was written last.

Edits of different keys may change places, and a pass leaves all conditions but those of its type
and all versions but those of its component. -/
theorem sharing_amends (hs : s.backend = .memory) (hr : s.reconciler = .ok r) :
    (∀ {w w' : World} {es : List Edit}, Steps (Sharing s r) w es w' →
      let old := w.status.state
      let new := w'.status.state
      new.managementState = old.managementState ∧
      Amends (·.type) (es.filterMap Edit.type?) old.status.conditions new.status.conditions ∧
      Amends (·.name) (es.filterMap Edit.name?) old.status.versions new.status.versions ∧
      ((old.status.conditions.map (·.type)).Nodup →
        (new.status.conditions.map (·.type)).Nodup) ∧
      ((old.status.versions.map (·.name)).Nodup → (new.status.versions.map (·.name)).Nodup) ∧
      (∀ before c after, es = before ++ .condition c :: after →
        c.type ∉ after.filterMap Edit.type? →
        ∃ found, new.status.condition? c.type = some found ∧
          found.status = c.status ∧ found.reason = c.reason ∧ found.message = c.message) ∧
      ∀ before name version after, es = before ++ .version name version :: after →
        name ∉ after.filterMap Edit.name? → new.status.version? name = some version) ∧
    (∀ {a b : Edit}, a.key ≠ b.key → ∀ state : OperatorState,
      (∀ type, ((state.edit a).edit b).status.condition? type =
        ((state.edit b).edit a).status.condition? type) ∧
      ∀ name, ((state.edit a).edit b).status.version? name =
        ((state.edit b).edit a).status.version? name) ∧
    ∀ now w, let old := w.status.state.status
      let new := (r.sync now w).2.status.state.status
      new.conditions.filter (·.type ≠ Verdict.conditionType) =
        old.conditions.filter (·.type ≠ Verdict.conditionType) ∧
      new.versions.filter (·.name ≠ r.component) = old.versions.filter (·.name ≠ r.component) := by
  obtain rfl := Stage.eq_assembled hr
  refine ⟨?_, ?_, ?_⟩
  · intro w w' es hsteps old new
    have hstate : new = es.foldl OperatorState.edit old := state_of_sharing hs hsteps
    have hconditions := OperatorState.amends_conditions es old
    have hversions := OperatorState.amends_versions es old
    rw [hstate]
    refine ⟨OperatorState.managementState_foldl_edit es old, hconditions, hversions,
      hconditions.nodup, hversions.nodup, ?_, ?_⟩
    · rintro before c after rfl hlast
      obtain ⟨found, hfound, hsame⟩ := OperatorState.condition?_foldl_edit before c hlast old
      exact ⟨found, hfound, (OperatorCondition.sameState_iff.mp hsame).2⟩
    · rintro before name version after rfl hlast
      exact OperatorState.version?_foldl_edit before name version hlast old
  · intro a b hne state
    exact OperatorState.edit_comm_lookup hne state
  · intro now w old new
    let es := (s.assembled.due now (s.assembled.sync now w).1).filter s.inRecord
    have hstate : (s.assembled.sync now w).2.status.state =
        es.foldl OperatorState.edit w.status.state := (Stage.wrote_sync hs now w).state
    have hnew : new = (es.foldl OperatorState.edit w.status.state).status :=
      congrArg OperatorState.status hstate
    have hdue {β : Type} (f : Edit → Option β) {b : β} (hb : b ∈ es.filterMap f) :
        b ∈ (s.assembled.due now (s.assembled.sync now w).1).filterMap f :=
      (List.filter_sublist.filterMap f).subset hb
    rw [hnew]
    refine ⟨(OperatorState.amends_conditions es w.status.state).others _ fun c hc => ?_,
      (OperatorState.amends_versions es w.status.state).others _ fun v hv => ?_⟩
    · simpa using type_of_due (hdue Edit.type? hc)
    · simpa using name_of_due (hdue Edit.name? hv)

/-- A condition of someone else's that says that the operator is degraded. -/
def OperatorCondition.degraded : OperatorCondition :=
  ⟨"Degraded", .true, none, some "disk full", World.time 0⟩

/-- A world with troubles, in which someone has written that condition. -/
def Rehearsal.World.degraded : World :=
  { World.troubled with status := (World.troubled.status.upsert .degraded).2 }

/-- What someone else has written is found after a pass over a world with troubles. -/
theorem sharing_amends_degraded :
    let w := (Stage.complete.assembled.sync (World.time 1) World.degraded).2
    ∃ found, w.status.state.status.condition? "Degraded" = some found ∧
      found.status = .true ∧ found.reason = none ∧ found.message = some "disk full" := by
  obtain ⟨hruns, -, -⟩ := sharing_amends (s := .complete) rfl (Stage.reconciler_of_without rfl)
  have hwrite : Sharing .complete Stage.complete.assembled World.troubled [.condition .degraded]
      World.degraded := .condition rfl
  have hsteps := Steps.one hwrite (.one (.pass (World.time 1) World.degraded) (.none _))
  rw [List.singleton_append, List.append_nil] at hsteps
  obtain ⟨-, -, -, -, -, hlookup, -⟩ := hruns hsteps
  refine hlookup [] .degraded _ rfl fun hlast => ?_
  have htype := type_of_due ((List.filter_sublist.filterMap Edit.type?).subset hlast)
  exact absurd htype (by decide)

end ApiAvailability
