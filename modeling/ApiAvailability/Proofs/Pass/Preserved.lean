import ApiAvailability.Proofs.Pass.Reported
import ApiAvailability.Proofs.Store.Intact

/-!
# Proofs/Pass/Preserved — a record that cannot be read is not lost

A record is read before it is changed, so one that cannot be decoded stays what it is, and a pass
that finds it ends at once.

* `record_preserved` — what writing does to the files, and that passes do nothing to a record that
  is found and cannot be decoded;
* `record_preserved_hidden` — behind a missing directory a record is not found, so that a pass works
  for nothing, and writing in vain may bring it to light or take its place.
-/

namespace ApiAvailability

open Files

/-- **The file of the record is found and holds none.** -/
structure StatusFile.IsGarbled (s : StatusFile) (t : Tree) : Prop where
  found : t.read s.path ≠ .error .notFound
  undecoded : ∀ content, t.read s.path = .ok content →
    (Json.Value.ofBytes? content).bind OperatorState.ofJson? = none

theorem StatusFile.IsGarbled.of_read {s : StatusFile} {t : Tree} {content : ByteArray}
    (h : t.read s.path = .ok content)
    (hnone : (Json.Value.ofBytes? content).bind OperatorState.ofJson? = none) : s.IsGarbled t where
  found := by simp [h]
  undecoded content' h' := by
    obtain rfl : content = content' := Except.ok.inj (h.symm.trans h')
    exact hnone

/-- A record that cannot be decoded cannot be read. -/
theorem StatusFile.IsGarbled.exists_load {s : StatusFile} {t : Tree} (h : s.IsGarbled t) :
    ∃ e, s.load Tree.system t = (.error e, t) := by
  rcases hload : (s.load Tree.system t).1 with e | state
  · exact ⟨e, Prod.ext hload (snd_load_system s t)⟩
  rcases read_of_load hload with ⟨hmissing, -⟩ | ⟨content, hread, hstate⟩
  · exact absurd hmissing h.found
  · rw [h.undecoded content hread] at hstate
    contradiction

namespace App

variable {c : Config} {dir : Files.Path} {app : App (StateM Tree)} {t : Tree}

/-- **Passes that cannot read the record** fail, one like the other, and do nothing. -/
theorem syncs_of_garbled (h : App.new Tree.system (fun _ => pure ()) c dir = .ok app)
    (hgarbled : app.statusFile.IsGarbled t) : ∃ e, ∀ times : List Time.Timestamp,
      times.mapM app.sync t =
        (times.map fun _ => .error (.passFailed (.statusReadFailed e)), t) := by
  obtain ⟨e, hload⟩ := hgarbled.exists_load
  refine ⟨e, fun times => mapM_of_still fun now _ => sync_of_error ?_⟩
  have hread : app.reconciler.status.read t = (.error e, t) := by
    rw [reconciler_eq h]
    rwa [statusFile_eq h] at hload
  exact (Reconciler.Meets.unread .begin hread).sync_eq

end App

/-- **A record is preserved.**  The temporary file that it is written to is never its own.  Writing
a condition or a version in vain leaves the record's file with what it held, and where there was
nothing there is nothing, unless the way to the record goes through its own place, where a directory
may be new.  Otherwise the file holds the changed record, no temporary file is left, and all else is
as it was but for directories on the way.  And as long as a record is found that cannot be decoded,
the passes of the operator fail for that reason, however many there are, and change no file. -/
theorem record_preserved :
    (∀ s : StatusFile, s.path.fileName?.isSome = true →
      (∀ home, s.temporary.place home ≠ s.path.place home) ∧
      (∀ t condition, s.Replaces (·.setCondition condition) t
        ((s.store Tree.system).upsert condition t).1
        ((s.store Tree.system).upsert condition t).2) ∧
      ∀ t component version, s.Replaces (·.setVersion component version) t
        (s.update Tree.system (·.setVersion component version) t).1
        (s.setVersion Tree.system component version t).2) ∧
    ∀ {c : Config} {dir : Files.Path} {app : App (StateM Tree)},
      App.new Tree.system (fun _ => pure ()) c dir = .ok app →
      ∀ t, app.statusFile.IsGarbled t → ∃ e, ∀ times : List Time.Timestamp,
        times.mapM app.sync t =
          (times.map fun _ => .error (.passFailed (.statusReadFailed e)), t) :=
  ⟨fun _ hname => ⟨StatusFile.temporary_ne hname, fun t _ => StatusFile.replaces hname _ t,
      fun t _ _ => StatusFile.replaces hname _ t⟩,
    fun h _ hgarbled => App.syncs_of_garbled h hgarbled⟩

/-- A text that is no record. -/
def garbage : ByteArray := "garbled".toUTF8

/-- Files of the operator with a text in the place of its record. -/
def Files.Tree.garbled : Tree := Tree.littered.install ⟨"/var/status.json"⟩ (.file garbage)

theorem decode_garbage : (Json.Value.ofBytes? garbage).bind OperatorState.ofJson? = none := by
  decide +kernel

/-- Two passes over a text that is no record. -/
theorem record_preserved_garbled :
    (StatusFile.mk ⟨"/var/status.json/."⟩).temporary.place [] ≠ ["var", "status.json"] ∧
    ∃ app, App.new Tree.system (fun _ => pure ()) Config.single ⟨"/var"⟩ = .ok app ∧
      ∃ e, [Rehearsal.World.time 0, Rehearsal.World.time 1].mapM app.sync Tree.garbled =
        ([.error (.passFailed (.statusReadFailed e)), .error (.passFailed (.statusReadFailed e))],
          Tree.garbled) := by
  obtain ⟨hwriting, hpasses⟩ := record_preserved
  obtain ⟨app, happ⟩ : ∃ app,
      App.new Tree.system (fun _ => pure ()) Config.single ⟨"/var"⟩ = .ok app := ⟨_, rfl⟩
  have hplace : Files.Path.place [] ⟨"/var/status.json/."⟩ = ["var", "status.json"] := by
    decide +kernel
  refine ⟨hplace ▸ (hwriting ⟨⟨"/var/status.json/."⟩⟩ (by decide +kernel)).1 [], app, happ, ?_⟩
  have hread : Tree.garbled.read app.statusFile.path = .ok garbage := by
    have hpath : (⟨"/var"⟩ : Files.Path).join App.statusName = ⟨"/var/status.json"⟩ := by
      decide +kernel
    rw [App.statusFile_eq happ, hpath]
    rfl
  obtain ⟨e, htimes⟩ := hpasses happ Tree.garbled (.of_read hread decode_garbage)
  exact ⟨e, htimes _⟩

/-! ## A record that is hidden -/

namespace App

variable {app : App (StateM Tree)}

/-- **A pass over a hidden record that cannot be decoded** works, which opens the way to the record,
and fails only when it is to write its verdict. -/
theorem sync_hidden_garbled
    (h : App.new Tree.system (fun _ => pure ()) Config.single ⟨"/x/.."⟩ = .ok app) :
    ∃ e, app.sync (Rehearsal.World.time 0) (hidden garbage) =
      (.error (.passFailed (.statusWriteFailed e)), (hidden garbage).put ["x"] .directory) := by
  let opened := (hidden garbage).put ["x"] .directory
  have hmissing : (hidden garbage).read app.statusFile.path = .error .notFound := by
    rw [statusFile_eq_aside h]
    rfl
  have hgarbled : app.statusFile.IsGarbled opened := by
    have hfound : opened.read app.statusFile.path = .ok garbage := by
      rw [statusFile_eq_aside h]
      rfl
    exact .of_read hfound decode_garbage
  have hload := StatusFile.load_of_holds (.inl ⟨hmissing, rfl⟩)
  obtain ⟨os, hobserve, -⟩ := observe_hidden h garbage
  obtain ⟨e, hunread⟩ := hgarbled.exists_load
  have hmeets : app.reconciler.Meets (Rehearsal.World.time 0) (hidden garbage) (.unwritten e)
      opened := meets_unwritten h hload rfl hobserve (StatusFile.update_of_load_error hunread)
  exact ⟨e, sync_of_error hmeets.sync_eq⟩

/-- **Writing a hidden record in vain** may open the way to it. -/
theorem update_blocked (record : ByteArray) (change : OperatorState → OperatorState) :
    aside.update Tree.system change (blocked record) =
      (.error (aside.refused .isDirectory), (blocked record).put ["x"] .directory) := by
  have hload : aside.load Tree.system (blocked record) = (.ok .initial, blocked record) :=
    StatusFile.load_of_holds (.inl ⟨by rfl, rfl⟩)
  have hmade : Tree.system.makeDirs ⟨"/x/.."⟩ (blocked record) =
      (.ok (), (blocked record).put ["x"] .directory) := rfl
  exact StatusFile.update_of_write_error hload hmade (write_blocked record) change

/-- A record whose path passes through its own place. -/
def doubled : StatusFile := ⟨⟨"a/../a"⟩⟩

/-- **Writing such a record** makes a directory in its place, if nothing is there, and fails. -/
theorem update_doubled (change : OperatorState → OperatorState) :
    ∃ e t', doubled.update Tree.system change .empty = (.error e, t') ∧
      Tree.empty.lookup (doubled.path.place []) = none ∧
      t'.lookup (doubled.path.place []) = some .directory := by
  let made := Tree.empty.put ["a"] .directory
  have hload : doubled.load Tree.system .empty = (.ok .initial, .empty) :=
    StatusFile.load_of_holds (.inl ⟨by rfl, rfl⟩)
  have hmade : doubled.makeParent Tree.system .empty = (.ok (), made) := by rfl
  have htemporary : doubled.temporary = ⟨"a/../a.json.tmp"⟩ := by decide +kernel
  let written (content : ByteArray) := made.put ["a.json.tmp"] (.file content)
  have hwrite (content : ByteArray) :
      made.write doubled.temporary content = (written content, .ok ()) := by
    rw [htemporary]
    rfl
  -- the record's place has been taken by the directory
  have hrename (content : ByteArray) :
      (written content).rename doubled.temporary doubled.path =
        (written content, .error .isDirectory) := by
    rw [htemporary]
    rfl
  refine ⟨doubled.refused .isDirectory,
    written (StatusFile.document (change .initial)).toUTF8, ?_, rfl, rfl⟩
  rw [StatusFile.update, bind_apply, hload]
  simp only [StatusFile.save, bind_apply, hmade, Tree.system_write (hwrite _),
    Tree.system_rename (hrename _)]
  rfl

end App

/-- **Behind a missing directory a record is not found**, even where it is there.  Although it cannot
be decoded, a pass works and changes files.  And although nothing can be written, a record comes to
light that was not there by its path before, or a directory comes to stand where nothing was. -/
theorem record_preserved_hidden :
    (∃ app, App.new Tree.system (fun _ => pure ()) Config.single ⟨"/x/.."⟩ = .ok app ∧
      (App.hidden garbage).lookup (app.statusFile.path.place []) = some (.file garbage) ∧
      (Json.Value.ofBytes? garbage).bind OperatorState.ofJson? = none ∧
      (∃ e t', app.sync (Rehearsal.World.time 0) (App.hidden garbage) =
        (.error (.passFailed (.statusWriteFailed e)), t') ∧ t' ≠ App.hidden garbage) ∧
      (App.blocked garbage).read app.statusFile.path = .error .notFound ∧ ∃ condition e t',
        (app.statusFile.store Tree.system).upsert condition (App.blocked garbage) =
            (.error e, t') ∧
          t'.read app.statusFile.path = .ok garbage) ∧
    ∃ condition e t',
      (App.doubled.store Tree.system).upsert condition .empty = (.error e, t') ∧
        Tree.empty.lookup (App.doubled.path.place []) = none ∧
        t'.lookup (App.doubled.path.place []) = some .directory := by
  let condition := (aggregate []).toCondition (Rehearsal.World.time 0)
  obtain ⟨app, happ⟩ : ∃ app,
      App.new Tree.system (fun _ => pure ()) Config.single ⟨"/x/.."⟩ = .ok app := ⟨_, rfl⟩
  have hfile := App.statusFile_eq_aside happ
  obtain ⟨e, hsync⟩ := App.sync_hidden_garbled happ
  refine ⟨⟨app, happ, ?_, decode_garbage, ⟨e, _, hsync, fun he => ?_⟩, ?_, ?_⟩,
    condition, App.update_doubled _⟩
  · rw [hfile]
    rfl
  · have hthere : ((App.hidden garbage).put ["x"] .directory).lookup ["x"] = some .directory :=
      Tree.lookup_put_self (List.cons_ne_nil _ _)
    rw [he] at hthere
    cases hthere
  · rw [hfile]
    rfl
  · rw [hfile]
    exact ⟨condition, _, _, App.update_blocked garbage _, by rfl⟩

end ApiAvailability
