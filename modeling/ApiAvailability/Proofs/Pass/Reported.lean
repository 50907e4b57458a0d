import ApiAvailability.CommandLine.Program
import ApiAvailability.Proofs.Files.Missing
import ApiAvailability.Proofs.Operator.Record
import ApiAvailability.Proofs.Pass.Untouched
import ApiAvailability.Proofs.Store.Shown

/-!
# Proofs/Pass/Reported — what the operator reports is what it has stored

The operator's commands agree with each other: a pass that says that all is available has stored so,
with the version, and a look at the record shows it; a pass that says otherwise has stored what is
wrong, or done nothing; and a pass that fails leaves the record as it was (`App.sync_reports`).

The version is recorded after the verdict, and whether that succeeds is not told.  It does, because
what was written once can be written again (`App.ready_of_update`).
-/

namespace ApiAvailability

open CommandLine Files

/-! ## Conditions that are reported -/

namespace OperatorCondition

/-- **A condition says that all is available.** -/
structure IsPositive (c : OperatorCondition) : Prop where
  status : c.status = .true
  reason : c.reason = none
  message : c.message = none

/-- **A condition says what is wrong.** -/
structure IsNegative (c : OperatorCondition) : Prop where
  status : c.status = .false
  reason : c.reason = some "Error"
  message : ∃ message, c.message = some message ∧ message ≠ ""

variable {a b : OperatorCondition}

/-- A condition that says the same as a positive one is positive. -/
theorem IsPositive.of_sameState (h : b.IsPositive) (hsame : a.sameState b = true) :
    a.IsPositive := by
  obtain ⟨-, hstatus, hreason, hmessage⟩ := sameState_iff.mp hsame
  exact ⟨hstatus.trans h.status, hreason.trans h.reason, hmessage.trans h.message⟩

/-- A condition that says the same as a negative one is negative. -/
theorem IsNegative.of_sameState (h : b.IsNegative) (hsame : a.sameState b = true) :
    a.IsNegative := by
  obtain ⟨-, hstatus, hreason, hmessage⟩ := sameState_iff.mp hsame
  exact ⟨hstatus.trans h.status, hreason.trans h.reason, hmessage ▸ h.message⟩

end OperatorCondition

/-- **A verdict over failures** says that all is available if there are none, and otherwise what is
wrong. -/
theorem Verdict.toCondition_ofFailures (fs : List Failure) (now : Time.Timestamp) :
    if (ofFailures fs).isAvailable then ((ofFailures fs).toCondition now).IsPositive
    else ((ofFailures fs).toCondition now).IsNegative := by
  cases fs with
  | nil => exact ⟨rfl, rfl, rfl⟩
  | cons f fs =>
    have hline : f.line ≠ "" := by simp [Failure.line]
    refine ⟨rfl, rfl, _, rfl, ?_⟩
    cases fs with
    | nil => simpa using hline
    | cons f' fs => simp [String.intercalate_cons_cons]

/-! ## What is printed -/

namespace CommandLine

/-- **A machine with its files in a tree**, at a time. -/
def Machine.ofTree (now : Time.Timestamp) : Machine (StateM Tree) where
  system := Tree.system
  clock := pure now
  wait _ := pure ()
  limit := 0
  recordEvent _ := pure ()

/-- What is printed of what a pass returned. -/
def Report.ofPass : Except AppError Bool → Report
  | .error e => .failure e.chain
  | .ok available => .result (if available then "available\n" else "not available\n")

theorem Report.out_failure (words : List String) : (failure words).out = "" := by
  rcases words with _ | ⟨first, _ | ⟨second, rest⟩⟩ <;> rfl

/-- That all is available is printed of a pass that returned so, and of no other. -/
theorem Report.eq_of_out_ofPass {r : Except AppError Bool}
    (h : (Report.ofPass r).out = "available\n") : r = .ok true := by
  rcases r with e | _ | _
  · rw [ofPass, out_failure] at h
    contradiction
  · contradiction
  · rfl

end CommandLine

namespace App

variable {c : Config} {dir : Files.Path} {app : App (StateM Tree)} {now : Time.Timestamp}
  {t t' : Tree}

/-! ## The record after a pass -/

/-- The record that a pass leaves with its verdict. -/
def recorded (c : Config) (now : Time.Timestamp) (v : Verdict) (before : OperatorState) :
    OperatorState :=
  let after := before.setCondition (v.toCondition now)
  if v.isAvailable then after.setVersion c.component c.operandVersion else after

/-- The verdict is found in it. -/
theorem condition?_recorded (c : Config) (now : Time.Timestamp) (v : Verdict)
    (before : OperatorState) : ∃ found,
    (recorded c now v before).status.condition? Verdict.conditionType = some found ∧
      found.sameState (v.toCondition now) = true := by
  have hfound := before.status.condition?_setCondition (v.toCondition now)
  refine ⟨(before.status.condition? Verdict.conditionType).elim (v.toCondition now)
    (·.supersede (v.toCondition now)), ?_, ?_⟩
  · rw [recorded]
    split
    · exact hfound
    · exact hfound
  · cases before.status.condition? Verdict.conditionType <;>
      exact OperatorCondition.sameState_iff.mpr ⟨rfl, rfl, rfl, rfl⟩

/-- **The operator's record can be changed once more** after it was changed. -/
theorem ready_of_update {change : OperatorState → OperatorState}
    (h : StatusFile.update Tree.system ⟨dir.join statusName⟩ change t = (.ok (), t')) :
    StatusFile.IsReady ⟨dir.join statusName⟩ t' := by
  obtain ⟨state, -, hsave⟩ := StatusFile.update_eq_ok h
  have hpath : (StatusFile.mk (dir.join statusName)).path = dir.join statusName := rfl
  exact StatusFile.ready_of_save hsave hpath (temporary_eq dir)
    (.of_long (by decide) (by decide)) (.of_long (by decide) (by decide)) (by decide) (by decide)
    (by decide)

section Pass

variable (h : App.new Tree.system (fun _ => pure ()) c dir = .ok app)

include h

/-- **The operator's record is shown** among files of which each is in a directory, if no two dots
in the path of its own stand behind a missing one. -/
theorem isShown_of_settled (hrooted : t.Rooted) (hsettled : t.Settled dir) :
    app.statusFile.IsShown t := by
  rw [statusFile_eq h]
  exact hsettled.lookup_eq_none hrooted (.of_long (by decide) (by decide))

/-- **A pass that has written its verdict** has stored it, and the version with it if it is
positive. -/
theorem read_of_concluded (hshown : app.statusFile.IsShown t) {v : Verdict}
    (hw : app.reconciler.Reaches now t (.conclude v) t') :
    ∃ os before, v = aggregate os ∧ app.statusFile.stored? t = some before ∧
      before.managementState = .managed ∧
      (app.reconciler.concluded v t').read app.statusFile.path =
        .ok (StatusFile.document (recorded c now v before)).toUTF8 := by
  cases hw with
  | @written _ w₁ _ hw hupsert =>
    obtain ⟨os, before, w₂, hv, hread, hmanaged⟩ := hw.exists_read
    let may := Directory.IsNewIn ⟨dir.join objectsName⟩ t.home c.desired
    have hfs : Tree.system.Keeping t.home [] may (Tree.Extends t.home [] may) :=
      Tree.keeping_system fun _ => .inl rfl
    have hpaving := Tree.keeping_paves t.home [] may
    have hgrows := ((working h hfs).write (create_keeps h hfs) hw rfl).2
    have hpaves : t.Paves w₁ := (working h hpaving).write (create_keeps h hpaving) hw
    rw [statusFile_eq h] at hshown ⊢
    rw [reconciler_eq h] at hread hupsert
    have hready := ready_of_update hupsert
    obtain ⟨state, hload, hsave⟩ := StatusFile.update_eq_ok hupsert
    obtain rfl : state = before := hshown.load_eq hpaves
      (lookup_file_iff List.not_mem_nil hgrows) (congrArg Prod.fst hread)
      (congrArg Prod.fst hload)
    refine ⟨os, state, hv, hshown.stored?_of_load (congrArg Prod.fst hread), hmanaged, ?_⟩
    have hwritten := StatusFile.read_of_save hsave
    rw [Reconciler.concluded, recorded]
    split
    · obtain ⟨t₂, hupdate, -, hagain⟩ :=
        StatusFile.update_ready hready (.inr hwritten) (·.setVersion c.component c.operandVersion)
      have hversion : (app.reconciler.recordVersion app.reconciler.component
          app.reconciler.operandVersion t').2 = t₂ := by
        rw [reconciler_eq h]
        exact congrArg Prod.snd hupdate
      rw [hversion]
      exact hagain.read
    · exact hwritten

end Pass

/-! ## What commands report -/

/-- The operator passes on that its pass failed. -/
theorem sync_of_error {e : PassError} (hsync : app.reconciler.sync now t = (.error e, t')) :
    app.sync now t = (.error (.passFailed e), t') := by
  rw [sync, bind_apply, hsync]
  rfl

/-- The operator tells of a pass whether all is available. -/
theorem sync_of_ok {o : PassOutcome} (hsync : app.reconciler.sync now t = (.ok o, t')) :
    app.sync now t = (.ok o.converged, t') := by
  rw [sync, bind_apply, hsync]
  rfl

/-- **What the result of a pass says** about the files `t` before it and `t'` after it.  That all is
available: a look at the record shows a condition that says so, and the version of the component is
stored.  That it is not: the record of an operator that is to act shows a condition that says what
is wrong, with the versions that were stored before, and all files of any other operator are as they
were.  That the pass failed: the record's file holds what it held, if there was one. -/
def Reports (app : App (StateM Tree)) (c : Config) (t t' : Tree) : Except AppError Bool → Prop
  | .ok true => ∃ found after, app.status t' = (.ok (some found), t') ∧ found.IsPositive ∧
      app.statusFile.stored? t' = some after ∧
      after.status.version? c.component = some c.operandVersion
  | .ok false => ∃ before, app.statusFile.stored? t = some before ∧
      if before.managementState = .managed then
        ∃ found after, app.status t' = (.ok (some found), t') ∧ found.IsNegative ∧
          app.statusFile.stored? t' = some after ∧ after.status.versions = before.status.versions
      else t' = t
  | .error _ => ∀ content,
      t'.lookup (app.statusFile.path.place t.home) = some (.file content) ↔
        t.lookup (app.statusFile.path.place t.home) = some (.file content)

/-- What the command of one pass prints is what the pass returns. -/
theorem carryOut_sync (app : App (StateM Tree)) (now : Time.Timestamp) (t : Tree) :
    (Machine.ofTree now).carryOut app .sync t =
      (.ofPass (app.sync now t).1, (app.sync now t).2) := by
  have hclock : (Machine.ofTree now).clock t = (now, t) := rfl
  rw [Machine.carryOut, bind_apply, hclock, bind_apply]
  rcases app.sync now t with ⟨e | available, t'⟩
  · rfl
  · rfl

/-- And what a look at the record prints is the condition. -/
theorem carryOut_status {found : OperatorCondition}
    (hstatus : app.status t = (.ok (some found), t')) (now : Time.Timestamp) :
    (Machine.ofTree now).carryOut app .status t =
      (.result (found.toJson.toText ++ "\n"), t') := by
  rw [Machine.carryOut, bind_apply, hstatus]
  rfl

section Reports

variable (h : App.new Tree.system (fun _ => pure ()) c dir = .ok app)

include h

/-- The operator shows the condition of the record that its file holds. -/
theorem status_of_read {state : OperatorState}
    (hread : t.read app.statusFile.path = .ok (StatusFile.document state).toUTF8) :
    app.status t = (.ok (state.status.condition? Verdict.conditionType), t) := by
  rw [status, bind_apply, system_eq h, StatusFile.load_of_holds (.inr hread)]
  rfl

/-- A pass that has written its verdict reports what it has stored. -/
theorem reports_of_read {os : List Observation} {before : OperatorState}
    (hbefore : app.statusFile.stored? t = some before)
    (hmanaged : before.managementState = .managed)
    (hread : t'.read app.statusFile.path =
      .ok (StatusFile.document (recorded c now (aggregate os) before)).toUTF8) :
    app.Reports c t t' (.ok (aggregate os).isAvailable) := by
  obtain ⟨found, hfound, hsame⟩ := condition?_recorded c now (aggregate os) before
  have hstatus := status_of_read h hread
  have hstored := StatusFile.stored?_of_document hread
  have hsays := Verdict.toCondition_ofFailures
    ((os.filterMap Failure.ofObservation?).mergeSort Failure.lineLe) now
  rw [← aggregate] at hsays
  rw [hfound] at hstatus
  rw [recorded] at hstored
  cases havailable : (aggregate os).isAvailable with
  | true =>
    rw [havailable] at hsays hstored
    exact ⟨found, _, hstatus, .of_sameState hsays hsame, hstored,
      OperatorStatus.version?_setVersion ..⟩
  | false =>
    rw [havailable] at hsays hstored
    refine ⟨before, hbefore, ?_⟩
    rw [if_pos hmanaged]
    exact ⟨found, _, hstatus, .of_sameState hsays hsame, hstored, rfl⟩

/-- **What a pass of the operator reports is what it has stored.** -/
theorem sync_reports (hshown : app.statusFile.IsShown t) (now : Time.Timestamp) :
    app.Reports c t (app.sync now t).2 (app.sync now t).1 := by
  rcases Reconciler.course app.reconciler now t with ⟨o, t', hmeets⟩ | ⟨v, t', hw⟩
  · have hsync := hmeets.sync_eq
    have hkept (ho : o.IsEarly) : t' = t := by
      have hend : EndsEarly (app.reconciler.sync now t).1 → _ := sync_of_endsEarly h
      rw [hsync] at hend
      exact hend (Obstacle.endsEarly_result.mpr ho)
    cases hmeets with
    | @unmanaged state reason _ _ hbegin hread hskip =>
      obtain rfl := hkept trivial
      rw [sync_of_ok hsync]
      have hunmanaged : state.managementState ≠ .managed := by
        intro hmanaged
        rw [ManagementState.skip?_eq_none.mpr hmanaged] at hskip
        contradiction
      rw [hbegin.eq, reconciler_eq h] at hread
      rw [statusFile_eq h] at hshown
      refine ⟨state, ?_, ?_⟩
      · rw [statusFile_eq h]
        exact hshown.stored?_of_load (congrArg Prod.fst hread)
      · rw [if_neg hunmanaged]
    | unready _ hcheck =>
      rw [reconciler_eq h] at hcheck
      cases congrArg Prod.fst hcheck
    | unwritten _ _ =>
      rw [sync_of_error hsync]
      have hrefused := lookup_of_refused h (congrArg Prod.fst hsync)
      rw [hsync] at hrefused
      exact hrefused
    | unread _ _ | unchecked _ _ | unprovided _ _ =>
      obtain rfl := hkept trivial
      rw [sync_of_error hsync]
      exact fun _ => .rfl
  · obtain ⟨os, before, rfl, hbefore, hmanaged, hread⟩ := read_of_concluded h hshown hw
    rw [sync_of_ok hw.sync_eq_concluded]
    exact reports_of_read h hbefore hmanaged hread

/-- **The commands of the operator agree**, on any files on which its record is shown: a pass
reports what it has stored, and it prints that all is available only if a look at the record after
it prints a condition that is true. -/
theorem commands_agree (hshown : app.statusFile.IsShown t) (now later : Time.Timestamp) :
    app.Reports c t (app.sync now t).2 (app.sync now t).1 ∧
      let synced := (Machine.ofTree now).carryOut app .sync t
      synced.1.out = "available\n" → ∃ found : OperatorCondition, found.status = .true ∧
        ((Machine.ofTree later).carryOut app .status synced.2).1 =
          .result (found.toJson.toText ++ "\n") := by
  have hreports := sync_reports h hshown now
  refine ⟨hreports, ?_⟩
  rw [carryOut_sync]
  intro synced hout
  rw [Report.eq_of_out_ofPass hout] at hreports
  obtain ⟨found, -, hstatus, hpositive, -⟩ := hreports
  exact ⟨found, hpositive.status, congrArg Prod.fst (carryOut_status hstatus later)⟩

/-- **A pass ends with a negative verdict** that its work came to, if it may work and the file can
be written afterwards. -/
theorem sync_of_unavailable {before state : OperatorState} {os : List Observation} {t₁ : Tree}
    (hload : app.statusFile.load Tree.system t = (.ok before, t))
    (hmanaged : before.managementState = .managed)
    (hobserve : app.reconciler.observe c.desired t = (os, t₁))
    (hready : app.statusFile.IsReady t₁) (hholds : app.statusFile.Holds t₁ state)
    (hunavailable : (aggregate os).isAvailable = false) (now : Time.Timestamp) :
    ∃ t', app.sync now t = (.ok false, t') ∧
      t'.read app.statusFile.path = .ok (StatusFile.document
        (state.setCondition ((aggregate os).toCondition now))).toUTF8 := by
  obtain ⟨t', hupdate, -, hwritten⟩ := StatusFile.update_ready hready hholds
    (·.setCondition ((aggregate os).toCondition now))
  have hw : app.reconciler.Reaches now t (.conclude (aggregate os)) t' := by
    obtain rfl := Except.ok.inj h
    exact .written (.observed (.provided (.ready (.managed .begin hload hmanaged) rfl) rfl)
      hobserve) hupdate
  have hsync := sync_of_ok hw.sync_eq_concluded
  rw [Reconciler.concluded, hunavailable, if_neg Bool.false_ne_true] at hsync
  refine ⟨t', ?_, hwritten.read⟩
  rw [hsync, PassOutcome.converged, hunavailable]

end Reports

/-- The operator's record can be written where its files have legal paths and nothing is in the
way. -/
theorem isReady_of_legal (hpath : Tree.refusal? (dir.join statusName) = none)
    (htemporary : Tree.refusal? (dir.join "status.json.tmp") = none)
    (hparents : (StatusFile.makeParent Tree.system ⟨dir.join statusName⟩ t).1 = .ok ())
    (hfree : ∀ q ∈ StatusFile.places ⟨dir.join statusName⟩ t.home,
      (StatusFile.makeParent Tree.system ⟨dir.join statusName⟩ t).2.lookup q ≠ some .directory) :
    StatusFile.IsReady ⟨dir.join statusName⟩ t where
  path := ⟨hpath, dir, statusName, rfl, .of_long (by decide) (by decide), by decide⟩
  temporary := by
    rw [temporary_eq]
    exact ⟨htemporary, dir, _, rfl, .of_long (by decide) (by decide), by decide⟩
  parents := hparents
  free := hfree

/-- A pass on a file that holds no object. -/
theorem commands_agree_littered :
    ∃ app, App.new Tree.system (fun _ => pure ()) Config.single ⟨"/var"⟩ = .ok app ∧
      app.statusFile.IsShown Tree.littered ∧
      let p := app.sync (Rehearsal.World.time 0) Tree.littered
      p.1 = .ok false ∧ ∃ found after, app.status p.2 = (.ok (some found), p.2) ∧
        found.IsNegative ∧ app.statusFile.stored? p.2 = some after ∧
        after.status.versions = [] := by
  obtain ⟨app, happ⟩ : ∃ app,
      App.new Tree.system (fun _ => pure ()) Config.single ⟨"/var"⟩ = .ok app := ⟨_, rfl⟩
  have hfile := statusFile_eq happ
  have hpath : (⟨"/var"⟩ : Files.Path).join statusName = ⟨"/var/status.json"⟩ := by decide +kernel
  have hread : Tree.littered.read app.statusFile.path = .error .notFound := by
    rw [hfile, hpath]
    rfl
  have hshown : app.statusFile.IsShown Tree.littered :=
    isShown_of_settled happ (by decide +kernel) (Tree.settled_of_not_mem (by decide +kernel))
  have hready : app.statusFile.IsReady Tree.littered := by
    rw [hfile]
    exact isReady_of_legal (by decide +kernel) (by decide +kernel) (by decide +kernel)
      (by decide +kernel)
  have hholds : app.statusFile.Holds Tree.littered .initial := .inl ⟨hread, rfl⟩
  obtain ⟨os, hobserve, hunavailable⟩ : ∃ os, app.reconciler.observe Config.single.desired
      Tree.littered = (os, Tree.littered) ∧ (aggregate os).isAvailable = false := by
    rw [reconciler_eq happ]
    exact ⟨_, rfl, by decide +kernel⟩
  obtain ⟨t', hsync, -⟩ := sync_of_unavailable happ (StatusFile.load_of_holds hholds) rfl hobserve
    hready hholds hunavailable (Rehearsal.World.time 0)
  obtain ⟨hreports, -⟩ := commands_agree happ hshown (Rehearsal.World.time 0)
    (Rehearsal.World.time 1)
  refine ⟨app, happ, hshown, ?_⟩
  rw [hsync] at hreports ⊢
  obtain ⟨before, hbefore, hagrees⟩ := hreports
  obtain rfl : .initial = before :=
    Option.some.inj ((hshown.stored?_of_load
      (congrArg Prod.fst (StatusFile.load_of_holds hholds))).symm.trans hbefore)
  have hmanaged : OperatorState.initial.managementState = .managed := rfl
  rw [if_pos hmanaged] at hagrees
  exact ⟨rfl, hagrees⟩

/-! ## A record that is hidden -/

/-- **Two dots behind a missing directory hide a record** that is there.  It looks as if there were
none, so a pass acts; it makes the directory, and so it finds the record to write its verdict to. -/
theorem sync_hidden {record : ByteArray} {state : OperatorState}
    (hrecord : record = (StatusFile.document state).toUTF8) (now : Time.Timestamp) :
    ∃ app, App.new Tree.system (fun _ => pure ()) Config.single ⟨"/x/.."⟩ = .ok app ∧
      app.statusFile.stored? (hidden record) = some state ∧
      app.status (hidden record) = (.ok none, hidden record) ∧
      ∃ t' after, app.sync now (hidden record) = (.ok false, t') ∧ t' ≠ hidden record ∧
        app.statusFile.stored? t' = some after ∧ after.status.versions = state.status.versions := by
  let opened := (hidden record).put ["x"] .directory
  obtain ⟨app, happ⟩ : ∃ app,
      App.new Tree.system (fun _ => pure ()) Config.single ⟨"/x/.."⟩ = .ok app := ⟨_, rfl⟩
  have hfile := statusFile_eq_aside happ
  have hread : (hidden record).read app.statusFile.path = .error .notFound := by
    rw [hfile]
    rfl
  have hread' : opened.read app.statusFile.path = .ok record := by
    rw [hfile]
    rfl
  have hstored : app.statusFile.stored? (hidden record) =
      (Json.Value.ofBytes? record).bind OperatorState.ofJson? := by
    rw [hfile]
    rfl
  have hready : app.statusFile.IsReady opened := by
    have hmade : StatusFile.makeParent Tree.system
      ⟨(⟨"/x/.."⟩ : Files.Path).join statusName⟩ opened = (.ok (), opened) := rfl
    have hthere : opened.lookup ["status.json"] = some (.file record) := rfl
    have hgone : opened.lookup ["status.json.tmp"] = none := rfl
    have hplace : Files.Path.place opened.home ⟨"/x/.."⟩ = [] := by
      change Files.Path.place [] ⟨"/x/.."⟩ = []
      decide +kernel
    rw [statusFile_eq happ]
    refine isReady_of_legal (by decide +kernel) (by decide +kernel) (congrArg Prod.fst hmade) ?_
    rw [hmade, places_eq, hplace]
    refine List.forall_mem_cons.mpr ⟨?_, List.forall_mem_singleton.mpr ?_⟩
    · simp [hthere]
    · simp [hgone]
  obtain ⟨os, hobserve, hunavailable⟩ := observe_hidden happ record
  have hload := StatusFile.load_of_holds (s := app.statusFile) (.inl ⟨hread, rfl⟩)
  rw [hrecord] at hread'
  obtain ⟨t', hsync, hwritten⟩ := sync_of_unavailable happ hload rfl hobserve hready
    (.inr hread') hunavailable now
  refine ⟨app, happ, ?_, ?_, t', _, hsync, ?_, StatusFile.stored?_of_document hwritten, rfl⟩
  · rw [hstored, hrecord, StatusFile.document, state.denotes.of_bytes]
  · rw [status, bind_apply, system_eq happ, hload]
    rfl
  · rintro rfl
    rw [hread] at hwritten
    contradiction

/-- The record of an operator that is to act no more. -/
def retired : OperatorState := ⟨.unmanaged, ⟨[], [⟨"openshift-apiserver", "4.1.0"⟩]⟩⟩

/-- The hidden record of an operator that is to act no more. -/
theorem commands_agree_hidden :
    let t := hidden (StatusFile.document retired).toUTF8
    ∃ app, App.new Tree.system (fun _ => pure ()) Config.single ⟨"/x/.."⟩ = .ok app ∧
      app.statusFile.stored? t = some retired ∧ retired.managementState = .unmanaged ∧
      (app.status t).1 = .ok none ∧
      let p := app.sync (Rehearsal.World.time 0) t
      p.1 = .ok false ∧ p.2 ≠ t ∧
        ∃ after, app.statusFile.stored? p.2 = some after ∧ after.status.versions ≠ [] := by
  intro t
  obtain ⟨app, happ, hstored, hstatus, t', after, hsync, hne, hafter, hversions⟩ :=
    sync_hidden (Eq.refl (StatusFile.document retired).toUTF8) (Rehearsal.World.time 0)
  refine ⟨app, happ, hstored, rfl, congrArg Prod.fst hstatus, ?_⟩
  rw [hsync]
  refine ⟨rfl, hne, after, hafter, ?_⟩
  rw [hversions]
  exact List.cons_ne_nil _ _

end App

end ApiAvailability
