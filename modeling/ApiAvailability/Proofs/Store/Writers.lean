import ApiAvailability.Proofs.Store.StatusFile
import ApiAvailability.Proofs.Turns
import Mathlib.Data.List.Nodup

/-!
# Proofs/Store/Writers — several writers of the operator's record in one file

A condition is written by reading the whole record, changing it and putting it back.  Writers that
go through one handle wait for each other; a writer that goes through another handle on the same
path, such as another program, waits for nobody.

* `upsertInTurns_oneByOne` — undisturbed, the two steps of a call are the write of the status store,
  and one call after the other is one of the schedules;
* `upsertInTurns_keeps` — no write is lost as long as calls through different handles do not
  overlap, which calls through one handle never do (`exclusive_of_one_handle`);
* `upsertInTurns_loses` — where they overlap, a record that was read before a write and put back
  after it takes the write away.
-/

namespace ApiAvailability

open Files

/-- **What is left of writing a condition** through the handle of a number: to read the record, or
to put it back changed. -/
inductive Upserting where
  | load (handle : Nat) (c : OperatorCondition)
  | save (handle : Nat) (c : OperatorCondition) (state : OperatorState)

/-- Jobs that write conditions. -/
abbrev UpsertJob := Job Upserting (OperatorCondition × Except StoreError Unit)

/-- **Files that are shared**, and the handles that are in use. -/
structure Shared where
  tree : Tree
  held : List Nat

namespace Upserting

/-- The handle. -/
def handle : Upserting → Nat
  | load handle _ | save handle _ _ => handle

/-- The condition. -/
def condition : Upserting → OperatorCondition
  | load _ c | save _ c _ => c

/-- **One step of a call.** To read the record it takes the handle, and waits if that is in use;
when the record has been put back the handle is free again. -/
def work (s : StatusFile) : Upserting → StateM Shared UpsertJob
  | load handle c => fun w =>
    if handle ∈ w.held then (.due (load handle c), w)
    else
      match s.load Tree.system w.tree with
      | (.error e, tree) => (.done (c, .error e), { w with tree })
      | (.ok state, tree) => (.due (save handle c (state.setCondition c)), ⟨tree, handle :: w.held⟩)
  | save handle c state => fun w =>
    let (result, tree) := s.save Tree.system state w.tree
    (.done (c, result), ⟨tree, w.held.erase handle⟩)

end Upserting

/-- The jobs of calls, each through the handle of a number. -/
def upsertJobs (calls : List (Nat × OperatorCondition)) : List UpsertJob :=
  calls.map fun (handle, c) => .due (.load handle c)

/-- **Conditions are written in turns**: how that went for each, if the schedule brings all to an
end. -/
def upsertInTurns (s : StatusFile) (schedule : List Nat) (calls : List (Nat × OperatorCondition)) :
    StateM Shared (Option (List (OperatorCondition × Except StoreError Unit))) :=
  return Job.results? (← Job.takeTurns (Upserting.work s) schedule (upsertJobs calls))

variable {s : StatusFile} {t : Tree} {w : Shared}

theorem upsertInTurns_apply (s : StatusFile) (schedule : List Nat)
    (calls : List (Nat × OperatorCondition)) (w : Shared) :
    upsertInTurns s schedule calls w =
      (Job.results? (Job.takeTurns (Upserting.work s) schedule (upsertJobs calls) w).1,
        (Job.takeTurns (Upserting.work s) schedule (upsertJobs calls) w).2) := rfl

namespace Upserting

variable {handle : Nat} {c : OperatorCondition} {state : OperatorState}

/-- A handle that is in use is waited for. -/
theorem work_waiting (h : handle ∈ w.held) :
    work s (load handle c) w = (.due (load handle c), w) := by
  simp only [work, if_pos h]

theorem work_load (h : handle ∉ w.held) (hload : s.load Tree.system w.tree = (.ok state, t)) :
    work s (load handle c) w =
      (.due (save handle c (state.setCondition c)), ⟨t, handle :: w.held⟩) := by
  simp only [work, if_neg h, hload]

theorem work_load_error {e : StoreError} (h : handle ∉ w.held)
    (hload : s.load Tree.system w.tree = (.error e, t)) :
    work s (load handle c) w = (.done (c, .error e), ⟨t, w.held⟩) := by
  simp only [work, if_neg h, hload]

theorem work_take {held : List Nat} (h : handle ∉ held)
    (hload : s.load Tree.system t = (.ok state, t)) :
    work s (load handle c) ⟨t, held⟩ =
      (.due (save handle c (state.setCondition c)), ⟨t, handle :: held⟩) :=
  work_load (w := ⟨t, held⟩) h hload

theorem work_save : work s (save handle c state) w =
    (.done (c, (s.save Tree.system state w.tree).1),
      ⟨(s.save Tree.system state w.tree).2, w.held.erase handle⟩) := rfl

theorem work_put {held : List Nat} {t' : Tree} {result : Except StoreError Unit}
    (hsave : s.save Tree.system state t = (result, t')) :
    work s (save handle c state) ⟨t, handle :: held⟩ = (.done (c, result), ⟨t', held⟩) := by
  rw [work_save, hsave, List.erase_cons_head]

/-- **Undisturbed, a call is the write of the status store.** -/
theorem alone_load (h : handle ∉ w.held) (c : OperatorCondition) :
    Job.alone (work s) 2 (.due (load handle c)) w =
      (.done (c, ((s.store Tree.system).upsert c w.tree).1),
        ⟨((s.store Tree.system).upsert c w.tree).2, w.held⟩) := by
  have hupsert : (s.store Tree.system).upsert c = s.update Tree.system (·.setCondition c) := rfl
  rw [hupsert, StatusFile.update]
  rw [Job.alone]
  rw [bind_apply, bind_apply, Job.goOn]
  rcases hload : s.load Tree.system w.tree with ⟨e | state, tree⟩
  · rw [work_load_error h hload]
    rfl
  · rw [work_load h hload, Job.alone]
    rw [bind_apply, Job.goOn, work_save, List.erase_cons_head]
    rfl

end Upserting

/-- Conditions written by the status store, one after the other, through whatever handles. -/
def StatusFile.upsertAll (s : StatusFile) (calls : List (Nat × OperatorCondition)) :
    StateM Tree (List (OperatorCondition × Except StoreError Unit)) :=
  calls.mapM fun call => return (call.2, ← (s.store Tree.system).upsert call.2)

theorem mapM_alone_load (calls : List (Nat × OperatorCondition)) (t : Tree) :
    (upsertJobs calls).mapM (Job.alone (Upserting.work s) 2) ⟨t, []⟩ =
      ((s.upsertAll calls t).1.map .done, ⟨(s.upsertAll calls t).2, []⟩) := by
  rw [upsertJobs, StatusFile.upsertAll]
  induction calls generalizing t with
  | nil => rfl
  | cons call calls ih =>
    rw [List.map_cons, mapM_cons_apply, mapM_cons_apply, Upserting.alone_load List.not_mem_nil, ih]
    rfl

/-- **Call by call** is one of the orders in which conditions are written. -/
theorem upsertInTurns_oneByOne (calls : List (Nat × OperatorCondition)) (t : Tree) :
    upsertInTurns s (Job.oneByOne 2 calls.length) calls ⟨t, []⟩ =
      (some (s.upsertAll calls t).1, ⟨(s.upsertAll calls t).2, []⟩) := by
  have hturns := Job.takeTurns_oneByOne (Upserting.work s) 2 (upsertJobs calls) ⟨t, []⟩
  rw [mapM_alone_load, upsertJobs, List.length_map] at hturns
  rw [upsertInTurns_apply, upsertJobs, hturns]
  simp only [Job.results?_map_done]

/-! ## Calls that do not overlap -/

/-- **Calls through different handles do not overlap**: at no moment is more than one in use. -/
def Exclusive (s : StatusFile) (schedule : List Nat) (js : List UpsertJob) (w : Shared) : Prop :=
  ∀ first second, schedule = first ++ second →
    (Job.takeTurns (Upserting.work s) first js w).2.held.length ≤ 1

/-- The condition of a job. -/
def UpsertJob.condition : UpsertJob → OperatorCondition
  | .due t => t.condition
  | .done (c, _) => c

/-- A record after conditions were written, one after the other. -/
def OperatorState.setConditions (state : OperatorState) (cs : List OperatorCondition) :
    OperatorState :=
  cs.foldl OperatorState.setCondition state

/-- **Calls one at a time**, which have saved conditions to a record `before`: no call fails to read
it, and at most one, whose handle is in use, has read it and is to put it back. -/
structure OneAtATime (s : StatusFile) (cs : List OperatorCondition) (before : OperatorState)
    (saved : List OperatorCondition) (js : List UpsertJob) (w : Shared) : Prop where
  entries : js.map UpsertJob.condition = cs
  load : s.load Tree.system w.tree = (.ok (before.setConditions saved), w.tree)
  /-- What has been saved are conditions of the calls, among them those of all that are done. -/
  mem : ∀ c ∈ saved, c ∈ cs
  done : ∀ (k : Nat) c r, js[k]? = some (.done (c, r)) → r = .ok () ∧ c ∈ saved
  /-- A record that is to be put back is the record now, changed. -/
  saving : ∀ (k : Nat) handle c state, js[k]? = some (.due (.save handle c state)) →
    w.held = [handle] ∧ state = (before.setConditions saved).setCondition c
  single : ∀ (k k' : Nat) handle handle' c c' state state',
    js[k]? = some (.due (.save handle c state)) →
    js[k']? = some (.due (.save handle' c' state')) → k = k'

/-- Some call has failed. -/
def SomeFailed (js : List UpsertJob) : Prop :=
  ∃ (k : Nat) (c : OperatorCondition) (e : StoreError), js[k]? = some (.done (c, .error e))

section Step

variable {cs saved : List OperatorCondition} {before state : OperatorState} {js : List UpsertJob}
  {i handle : Nat} {c : OperatorCondition} {u : Upserting}

theorem SomeFailed.set (h : SomeFailed js) (hi : js[i]? = some (.due u)) (j : UpsertJob) :
    SomeFailed (js.set i j) := by
  obtain ⟨k, c, e, hk⟩ := h
  refine ⟨k, c, e, (Job.getElem?_set_iff hi).mpr (.inr ⟨?_, hk⟩)⟩
  rintro rfl
  rw [hi] at hk
  cases hk

namespace OneAtATime

/-- **The record is read** by a call while no handle is in use. -/
theorem loaded (h : OneAtATime s cs before saved js w)
    (hi : js[i]? = some (.due (.load handle c))) (hheld : w.held = []) :
    OneAtATime s cs before saved
      (js.set i (.due (.save handle c ((before.setConditions saved).setCondition c))))
      ⟨w.tree, [handle]⟩ := by
  -- a call that has read the record would have a handle in use
  have hnone (k : Nat) (handle' : Nat) (c' : OperatorCondition) (state : OperatorState) :
      js[k]? ≠ some (.due (.save handle' c' state)) := by
    intro hk
    have hsaving := (h.saving k _ _ _ hk).1
    rw [hheld] at hsaving
    contradiction
  refine ⟨?_, h.load, h.mem, ?_, ?_, ?_⟩
  · rw [← h.entries]
    exact Job.map_set_of_eq hi rfl
  · intro k c' r hk
    obtain ⟨-, hk⟩ | ⟨-, hk⟩ := (Job.getElem?_set_iff hi).mp hk
    · cases hk
    · exact h.done k c' r hk
  · intro k handle' c' state hk
    obtain ⟨-, hk⟩ | ⟨-, hk⟩ := (Job.getElem?_set_iff hi).mp hk
    · cases hk
      exact ⟨rfl, rfl⟩
    · exact absurd hk (hnone _ _ _ _)
  · intro k k' handle₁ handle₂ c₁ c₂ state₁ state₂ hk hk'
    obtain ⟨rfl, -⟩ | ⟨-, hk⟩ := (Job.getElem?_set_iff hi).mp hk
    · obtain ⟨rfl, -⟩ | ⟨-, hk'⟩ := (Job.getElem?_set_iff hi).mp hk'
      · rfl
      · exact absurd hk' (hnone _ _ _ _)
    · exact absurd hk (hnone _ _ _ _)

/-- **The record is put back** by the call that has read it. -/
theorem put (h : OneAtATime s cs before saved js w)
    (hi : js[i]? = some (.due (.save handle c state)))
    (hsave : s.save Tree.system state w.tree = (.ok (), t)) :
    OneAtATime s cs before (saved ++ [c]) (js.set i (.done (c, .ok ()))) ⟨t, []⟩ := by
  obtain ⟨-, hstate⟩ := h.saving i handle c state hi
  have hafter : before.setConditions (saved ++ [c]) = state := by
    rw [hstate, OperatorState.setConditions, List.foldl_append]
    rfl
  have hnone (k : Nat) (hne : k ≠ i) (handle' : Nat) (c' : OperatorCondition)
      (state' : OperatorState) : js[k]? ≠ some (.due (.save handle' c' state')) :=
    fun hk => hne (h.single k i _ _ _ _ _ _ hk hi)
  refine ⟨?_, ?_, ?_, ?_, ?_, ?_⟩
  · rw [← h.entries]
    exact Job.map_set_of_eq hi rfl
  · rw [hafter]
    exact StatusFile.load_of_holds (.inr (StatusFile.read_of_save hsave))
  · refine List.forall_mem_append.mpr ⟨h.mem, List.forall_mem_singleton.mpr ?_⟩
    rw [← h.entries]
    exact List.mem_map_of_mem (f := UpsertJob.condition) (List.mem_of_getElem? hi)
  · intro k c' r hk
    obtain ⟨-, hk⟩ | ⟨-, hk⟩ := (Job.getElem?_set_iff hi).mp hk
    · cases hk
      exact ⟨rfl, List.mem_append_right _ List.mem_cons_self⟩
    · obtain ⟨hr, hmem⟩ := h.done k c' r hk
      exact ⟨hr, List.mem_append_left _ hmem⟩
  · intro k handle' c' state' hk
    obtain ⟨-, hk⟩ | ⟨hne, hk⟩ := (Job.getElem?_set_iff hi).mp hk
    · cases hk
    · exact absurd hk (hnone k hne _ _ _)
  · intro k k' handle₁ handle₂ c₁ c₂ state₁ state₂ hk
    obtain ⟨-, hk⟩ | ⟨hne, hk⟩ := (Job.getElem?_set_iff hi).mp hk
    · cases hk
    · exact absurd hk (hnone k hne _ _ _)

/-- **Any step of any call** that leaves no two handles in use keeps the calls one at a time, unless
one fails. -/
theorem work (h : OneAtATime s cs before saved js w) (hi : js[i]? = some (.due u))
    (hone : (u.work s w).2.held.length ≤ 1) :
    SomeFailed (js.set i (u.work s w).1) ∨
      ∃ saved', OneAtATime s cs before saved' (js.set i (u.work s w).1) (u.work s w).2 := by
  cases u with
  | load handle c =>
    by_cases hheld : handle ∈ w.held
    · rw [Upserting.work_waiting hheld, Job.set_self hi]
      exact .inr ⟨saved, h⟩
    · rw [Upserting.work_load hheld h.load] at hone ⊢
      have hfree : w.held = [] := List.eq_nil_of_length_eq_zero (by simpa using hone)
      rw [hfree]
      exact .inr ⟨saved, h.loaded hi hfree⟩
  | save handle c state =>
    rw [Upserting.work_save, (h.saving i handle c state hi).1, List.erase_cons_head]
    rcases hsave : s.save Tree.system state w.tree with ⟨e | u, t⟩
    · exact .inl ⟨i, c, e, (Job.getElem?_set_iff hi).mpr (.inl ⟨rfl, rfl⟩)⟩
    · exact .inr ⟨saved ++ [c], h.put hi hsave⟩

end OneAtATime

end Step

theorem oneAtATime_start {before : OperatorState} (hload : (s.load Tree.system t).1 = .ok before)
    (calls : List (Nat × OperatorCondition)) :
    OneAtATime s (calls.map (·.2)) before [] (upsertJobs calls) ⟨t, []⟩ := by
  have hdue (k : Nat) (j : UpsertJob) (hk : (upsertJobs calls)[k]? = some j) :
      ∃ handle c, j = .due (.load handle c) := by
    rw [upsertJobs, List.getElem?_map] at hk
    obtain ⟨call, -, rfl⟩ := Option.map_eq_some_iff.mp hk
    exact ⟨_, _, rfl⟩
  refine ⟨?_, Prod.ext hload (s.snd_load_system t), fun c hc => absurd hc List.not_mem_nil,
    ?_, ?_, ?_⟩
  · rw [upsertJobs, List.map_map]
    rfl
  · intro k c r hk
    obtain ⟨_, _, hj⟩ := hdue k _ hk
    cases hj
  · intro k handle c state hk
    obtain ⟨_, _, hj⟩ := hdue k _ hk
    cases hj
  · intro k k' handle handle' c c' state state' hk
    obtain ⟨_, _, hj⟩ := hdue k _ hk
    cases hj

/-- **Calls of which none overlaps one through another handle** are one at a time, if none fails. -/
theorem OneAtATime.upsertInTurns {before : OperatorState} {schedule : List Nat}
    {calls : List (Nat × OperatorCondition)} (hload : (s.load Tree.system t).1 = .ok before)
    (hexclusive : Exclusive s schedule (upsertJobs calls) ⟨t, []⟩)
    {results : List (OperatorCondition × Except StoreError Unit)}
    (hresults : results ∈ (upsertInTurns s schedule calls ⟨t, []⟩).1)
    (hok : ∀ p ∈ results, p.2 = .ok ()) :
    ∃ saved, OneAtATime s (calls.map (·.2)) before saved (results.map .done)
      (upsertInTurns s schedule calls ⟨t, []⟩).2 := by
  let p := Job.takeTurns (Upserting.work s) schedule (upsertJobs calls) ⟨t, []⟩
  have hrun : SomeFailed p.1 ∨ ∃ saved, OneAtATime s (calls.map (·.2)) before saved p.1 p.2 := by
    refine Job.takeTurns_induction_while _ (Q := fun w => w.held.length ≤ 1)
      (P := fun js w => SomeFailed js ∨ ∃ saved, OneAtATime s (calls.map (·.2)) before saved js w)
      ?_ hexclusive (.inr ⟨[], oneAtATime_start hload calls⟩)
    rintro js w i u hi (hfailed | ⟨saved, h⟩) hone
    · exact .inl (hfailed.set hi _)
    · exact h.work hi hone
  have hjobs : p.1 = results.map .done := Job.eq_map_done hresults
  rw [hjobs] at hrun
  refine hrun.resolve_left ?_
  rintro ⟨k, c, e, hk⟩
  rw [List.getElem?_map] at hk
  obtain ⟨r, hr, hrdone⟩ := Option.map_eq_some_iff.mp hk
  obtain rfl : r = (c, .error e) := Job.done.inj hrdone
  cases hok _ (List.mem_of_getElem? hr)

/-! ## What is in the record in the end -/

namespace OperatorState

variable {before : OperatorState} {saved : List OperatorCondition}

theorem setConditions_eq_foldl_edit (before : OperatorState) (saved : List OperatorCondition) :
    before.setConditions saved = (saved.map Edit.condition).foldl edit before := by
  rw [List.foldl_map]
  rfl

theorem filterMap_type?_condition (saved : List OperatorCondition) :
    (saved.map Edit.condition).filterMap Edit.type? = saved.map (·.type) := by
  rw [List.filterMap_map]
  exact congrFun (@List.filterMap_eq_map _ _ OperatorCondition.type) saved

/-- **A condition that was written is found**, if no other of its type was. -/
theorem condition?_setConditions (before : OperatorState) {c : OperatorCondition} (hc : c ∈ saved)
    (hdistinct : ∀ c' ∈ saved, c'.type = c.type → c' = c) :
    ∃ found, (before.setConditions saved).status.condition? c.type = some found ∧
      found.sameState c = true := by
  induction saved generalizing before with
  | nil => contradiction
  | cons first saved ih =>
    by_cases hlater : c ∈ saved
    · exact ih (before.setCondition first) hlater fun c' hc' =>
        hdistinct c' (List.mem_cons_of_mem first hc')
    · obtain rfl := (List.mem_cons.mp hc).resolve_right hlater
      have hlast : c.type ∉ (saved.map Edit.condition).filterMap Edit.type? := by
        rw [filterMap_type?_condition]
        intro hmem
        obtain ⟨c', hc', htype⟩ := List.mem_map.mp hmem
        exact hlater (hdistinct c' (List.mem_cons_of_mem c hc') htype ▸ hc')
      have hfound := condition?_foldl_edit [] c hlast before
      rwa [List.nil_append, ← List.map_cons, ← setConditions_eq_foldl_edit] at hfound

/-- **Conditions of other types** are left as they are. -/
theorem filter_setConditions (before : OperatorState) {p : OperatorCondition → Bool}
    (hp : ∀ c ∈ saved, ∀ x, x.type = c.type → p x = false) :
    (before.setConditions saved).status.conditions.filter p =
      before.status.conditions.filter p := by
  rw [setConditions_eq_foldl_edit]
  refine (amends_conditions (saved.map .condition) before).others p fun x hx => ?_
  rw [filterMap_type?_condition] at hx
  obtain ⟨c, hc, htype⟩ := List.mem_map.mp hx
  exact hp c hc x htype.symm

end OperatorState

/-- **No write is lost as long as calls through different handles do not overlap.**  When calls for
conditions of pairwise distinct types have all succeeded, the record in the file has each of these
conditions as its call wrote it, its time apart, and all other conditions as they were. -/
theorem upsertInTurns_keeps {before : OperatorState}
    (hload : (s.load Tree.system t).1 = .ok before) {calls : List (Nat × OperatorCondition)}
    (hdistinct : (calls.map (·.2.type)).Nodup) {schedule : List Nat}
    (hexclusive : Exclusive s schedule (upsertJobs calls) ⟨t, []⟩)
    {results : List (OperatorCondition × Except StoreError Unit)}
    (hresults : results ∈ (upsertInTurns s schedule calls ⟨t, []⟩).1)
    (hok : ∀ p ∈ results, p.2 = .ok ()) :
    ∃ after, (s.load Tree.system (upsertInTurns s schedule calls ⟨t, []⟩).2.tree).1 = .ok after ∧
      (∀ c ∈ calls.map (·.2), ∃ found, after.status.condition? c.type = some found ∧
        found.sameState c = true) ∧
      ∀ p : OperatorCondition → Bool, (∀ c ∈ calls.map (·.2), ∀ x, x.type = c.type → p x = false) →
        after.status.conditions.filter p = before.status.conditions.filter p := by
  obtain ⟨saved, h⟩ := OneAtATime.upsertInTurns hload hexclusive hresults hok
  refine ⟨before.setConditions saved, congrArg Prod.fst h.load, fun c hc => ?_, fun p hp => ?_⟩
  · have hsaved : c ∈ saved := by
      rw [← h.entries, List.map_map] at hc
      obtain ⟨⟨c, r⟩, hr, rfl⟩ := List.mem_map.mp hc
      obtain ⟨k, hk⟩ := List.mem_iff_getElem?.mp hr
      refine (h.done k c r ?_).2
      rw [List.getElem?_map, hk]
      rfl
    refine OperatorState.condition?_setConditions before hsaved fun c' hc' htype => ?_
    have htypes : ((calls.map (·.2)).map OperatorCondition.type).Nodup := by
      rw [List.map_map]
      exact hdistinct
    exact List.inj_on_of_nodup_map htypes (h.mem c' hc') hc htype
  · exact OperatorState.filter_setConditions before fun c hc => hp c (h.mem c hc)

/-- **All calls go through one handle.** -/
structure OneHandle (handle : Nat) (js : List UpsertJob) (w : Shared) : Prop where
  held : w.held = [] ∨ w.held = [handle]
  jobs : ∀ (k : Nat) u, js[k]? = some (.due u) → u.handle = handle

theorem OneHandle.work {handle i : Nat} {js : List UpsertJob} {u : Upserting}
    (h : OneHandle handle js w) (hi : js[i]? = some (.due u)) :
    OneHandle handle (js.set i (u.work s w).1) (u.work s w).2 := by
  have hset {j : UpsertJob} {w' : Shared} (hheld : w'.held = [] ∨ w'.held = [handle])
      (hj : ∀ u', j = .due u' → u'.handle = handle) : OneHandle handle (js.set i j) w' := by
    refine ⟨hheld, fun k u' hk => ?_⟩
    obtain ⟨-, hk⟩ | ⟨-, hk⟩ := (Job.getElem?_set_iff hi).mp hk
    · exact hj u' hk.symm
    · exact h.jobs k u' hk
  have hhandle := h.jobs i u hi
  cases u with
  | load handle' c =>
    obtain rfl : handle' = handle := hhandle
    by_cases hheld : handle' ∈ w.held
    · rw [Upserting.work_waiting hheld, Job.set_self hi]
      exact h
    · obtain hfree : w.held = [] := by
        refine h.held.resolve_right fun hused => hheld ?_
        rw [hused]
        exact List.mem_cons_self
      rcases hload : s.load Tree.system w.tree with ⟨e | state, t⟩
      · rw [Upserting.work_load_error hheld hload]
        exact hset (.inl hfree) fun u' hu => by cases hu
      · rw [Upserting.work_load hheld hload, hfree]
        refine hset (.inr rfl) fun u' hu => ?_
        obtain rfl := Job.due.inj hu
        rfl
  | save handle' c state =>
    obtain rfl : handle' = handle := hhandle
    rw [Upserting.work_save]
    refine hset (.inl ?_) fun u' hu => by cases hu
    obtain hfree | hused := h.held
    · rw [hfree]
      rfl
    · rw [hused]
      exact List.erase_cons_head ..

/-- **Calls through one handle** never overlap one through another. -/
theorem exclusive_of_one_handle {calls : List (Nat × OperatorCondition)} {h : Nat}
    (hcalls : ∀ c ∈ calls, c.1 = h) (schedule : List Nat) :
    Exclusive s schedule (upsertJobs calls) ⟨t, []⟩ := by
  intro first second hsplit
  have hstart : OneHandle h (upsertJobs calls) ⟨t, []⟩ := by
    refine ⟨.inl rfl, fun k u hk => ?_⟩
    rw [upsertJobs, List.getElem?_map] at hk
    obtain ⟨call, hcall, hu⟩ := Option.map_eq_some_iff.mp hk
    obtain rfl := Job.due.inj hu
    exact hcalls call (List.mem_of_getElem? hcall)
  have hend := Job.takeTurns_induction (Upserting.work s)
    (fun js w i u hi h => OneHandle.work h hi) first hstart
  obtain hfree | hused := hend.held
  · rw [hfree]
    exact Nat.zero_le 1
  · rw [hused]
    exact Nat.le_refl 1

namespace StatusFile

section Runs

variable {state : OperatorState} (h : s.IsReady t) (hstate : s.Holds t state)
  (a b : OperatorCondition)

include h hstate

/-- **One call waits for another** through the same handle. -/
theorem upsertInTurns_waiting (handle : Nat) :
    (upsertInTurns s [0, 1, 0, 1, 1] [(handle, a), (handle, b)] ⟨t, []⟩).1 =
      some [(a, .ok ()), (b, .ok ())] := by
  obtain ⟨t₁, hsave, hready, hwritten⟩ := save_ready h (state.setCondition a)
  obtain ⟨t₂, hsave', -, -⟩ := save_ready hready ((state.setCondition a).setCondition b)
  have hload : s.load Tree.system t = (.ok state, t) := load_of_holds hstate
  have hload' : s.load Tree.system t₁ = (.ok (state.setCondition a), t₁) :=
    load_of_holds (.inr hwritten.read)
  have hjobs : upsertJobs [(handle, a), (handle, b)] =
      [.due (.load handle a), .due (.load handle b)] := rfl
  have hrun : Job.takeTurns (Upserting.work s) [0, 1, 0, 1, 1]
      (upsertJobs [(handle, a), (handle, b)]) ⟨t, []⟩ =
        ([.done (a, .ok ()), .done (b, .ok ())], ⟨t₂, []⟩) := by
    rw [hjobs, Job.takeTurns_due _ rfl (Upserting.work_take List.not_mem_nil hload),
      Job.takeTurns_due _ rfl (Upserting.work_waiting List.mem_cons_self),
      Job.takeTurns_due _ rfl (Upserting.work_put hsave),
      Job.takeTurns_due _ rfl (Upserting.work_take List.not_mem_nil hload'),
      Job.takeTurns_due _ rfl (Upserting.work_put hsave'), Job.takeTurns]
    rfl
  rw [upsertInTurns_apply, hrun]
  rfl

/-- **A write is lost** where calls through different handles overlap: what the first call has read
before the second one puts the record back, it puts back afterwards. -/
theorem upsertInTurns_overlapping {handle handle' : Nat} (hne : handle ≠ handle') :
    let p := upsertInTurns s [0, 1, 1, 0] [(handle, a), (handle', b)] ⟨t, []⟩
    p.1 = some [(a, .ok ()), (b, .ok ())] ∧
      (s.load Tree.system p.2.tree).1 = .ok (state.setCondition a) := by
  obtain ⟨t₁, hsave, hready, -⟩ := save_ready h (state.setCondition b)
  obtain ⟨t₂, hsave', -, hwritten⟩ := save_ready hready (state.setCondition a)
  have hload : s.load Tree.system t = (.ok state, t) := load_of_holds hstate
  have hfree : handle' ∉ [handle] := by simpa using hne.symm
  have hjobs : upsertJobs [(handle, a), (handle', b)] =
      [.due (.load handle a), .due (.load handle' b)] := rfl
  have hrun : Job.takeTurns (Upserting.work s) [0, 1, 1, 0]
      (upsertJobs [(handle, a), (handle', b)]) ⟨t, []⟩ =
        ([.done (a, .ok ()), .done (b, .ok ())], ⟨t₂, []⟩) := by
    rw [hjobs, Job.takeTurns_due _ rfl (Upserting.work_take List.not_mem_nil hload),
      Job.takeTurns_due _ rfl (Upserting.work_take hfree hload),
      Job.takeTurns_due _ rfl (Upserting.work_put hsave),
      Job.takeTurns_due _ rfl (Upserting.work_put hsave'), Job.takeTurns]
    rfl
  rw [upsertInTurns_apply, hrun]
  exact ⟨rfl, congrArg Prod.fst (load_of_holds (.inr hwritten.read))⟩

end Runs

theorem plain_holds_initial : plain.Holds .empty .initial := .inl ⟨by decide +kernel, rfl⟩

/-- A condition of one writer, -/
def degraded : OperatorCondition :=
  ⟨"Degraded", .true, none, none, ⟨19723, 0, 0, by decide, by decide, by decide⟩⟩

/-- and one of another. -/
def progressing : OperatorCondition :=
  ⟨"Progressing", .false, none, none, ⟨19723, 0, 0, by decide, by decide, by decide⟩⟩

/-- Two calls through one handle, the second of which waits for the first. -/
theorem upsertInTurns_keeps_plain :
    let calls := [(0, degraded), (0, progressing)]
    let p := upsertInTurns plain [0, 1, 0, 1, 1] calls ⟨.empty, []⟩
    (calls.map (·.2.type)).Nodup ∧
      Exclusive plain [0, 1, 0, 1, 1] (upsertJobs calls) ⟨.empty, []⟩ ∧
      p.1 = some [(degraded, .ok ()), (progressing, .ok ())] ∧
      ∃ after, (plain.load Tree.system p.2.tree).1 = .ok after ∧
        (∃ found, after.status.condition? "Degraded" = some found ∧
          found.sameState degraded = true) ∧
        ∃ found, after.status.condition? "Progressing" = some found ∧
          found.sameState progressing = true := by
  have hload : (plain.load Tree.system .empty).1 = .ok .initial :=
    congrArg Prod.fst (load_of_holds plain_holds_initial)
  have hdistinct : ([(0, degraded), (0, progressing)].map (·.2.type)).Nodup := by decide
  have hexclusive : Exclusive plain [0, 1, 0, 1, 1]
      (upsertJobs [(0, degraded), (0, progressing)]) ⟨.empty, []⟩ :=
    exclusive_of_one_handle (h := 0) (by simp) _
  have hresults := upsertInTurns_waiting plain_isReady plain_holds_initial degraded progressing 0
  obtain ⟨after, hafter, hfound, -⟩ := upsertInTurns_keeps hload hdistinct hexclusive
    (Option.mem_def.mpr hresults) (by simp)
  exact ⟨hdistinct, hexclusive, hresults, after, hafter, hfound degraded (by simp),
    hfound progressing (by simp)⟩

/-- Two calls through different handles on a file that is missing, of which the quicker one is
lost. -/
theorem upsertInTurns_loses :
    let calls := [(0, degraded), (1, progressing)]
    let p := upsertInTurns plain [0, 1, 1, 0] calls ⟨.empty, []⟩
    (calls.map (·.2.type)).Nodup ∧ p.1 = some [(degraded, .ok ()), (progressing, .ok ())] ∧
      ∃ after, (plain.load Tree.system p.2.tree).1 = .ok after ∧
        after.status.condition? "Progressing" = none := by
  obtain ⟨hresults, hload⟩ := upsertInTurns_overlapping plain_isReady plain_holds_initial degraded
    progressing Nat.zero_ne_one
  exact ⟨by decide, hresults, _, hload, by decide⟩

end StatusFile

end ApiAvailability
