import ApiAvailability.Proofs.Pass.Due
import ApiAvailability.Proofs.Pass.Refused

/-!
# Proofs/Pass/Untouched — what passes without a verdict leave alone

A pass that ends early does nothing at all, and a pass whose verdict cannot be written leaves
conditions and versions as they are, although it may have created objects and told events.

* `untouched_without_verdict` — both kinds of passes, for every backend;
* `untouched_without_verdict_hidden` — what may come to light, or into the place of the record, when
  the operator makes a directory on the way to it.
-/

namespace ApiAvailability

open Files Rehearsal

namespace App

variable {c : Config} {dir : Files.Path} {app : App (StateM Tree)} {now : Time.Timestamp} {t : Tree}

/-- A pass of the operator that ends early leaves all files as they are. -/
theorem sync_of_endsEarly (h : App.new Tree.system (fun _ => pure ()) c dir = .ok app)
    (hend : EndsEarly (app.reconciler.sync now t).1) : (app.reconciler.sync now t).2 = t := by
  have hopening : app.reconciler.Opening (· = ·) := by
    rw [reconciler_eq h]
    exact {
      read := StatusFile.load_keeps_of_read ⟨dir.join statusName⟩ fun p t => rfl
      precondition := .pure _
      provider := .pure _ }
  exact (hopening.sync_of_endsEarly hend).symm

end App

/-! ## For every backend -/

/-- **Passes without a verdict leave the world alone.**  A pass that ends early does nothing at all,
whatever its collaborators are; so on every stage the stores, the calls and the events are as they
were, and the operator leaves all its files as they were.  A pass whose verdict cannot be written
leaves conditions and versions: in memory they are the same, and on files all but the temporary file
only has new objects, so that a record that was found is read as before.

For the operator the file of its record holds what it held, and where there was none there is none.
The conditions and versions are read as before if the file was found, or is one that stays missing
when its directory is made.  And if only nothing stood there unseen, what is read afterwards, if it
can be, is what was read before. -/
theorem untouched_without_verdict :
    (∀ {σ : Type} (r : Reconciler (StateM σ)) now w,
      EndsEarly (r.sync now w).1 → r.deeds now w = []) ∧
    (∀ {s : Stage} {r : Reconciler (StateM World)}, s.reconciler = .ok r → ∀ now w,
      EndsEarly (r.sync now w).1 → w.Rests (r.sync now w).2) ∧
    (∀ {c : Config} {dir : Files.Path} {app : App (StateM Tree)},
      App.new Tree.system (fun _ => pure ()) c dir = .ok app → ∀ now t,
      EndsEarly (app.reconciler.sync now t).1 → (app.reconciler.sync now t).2 = t) ∧
    (∀ {s : Stage} {r : Reconciler (StateM World)}, s.backend = .memory → s.reconciler = .ok r →
      ∀ now w e, (r.sync now w).1 = .error (.statusWriteFailed e) →
      let w' := (r.sync now w).2
      w'.status.state = w.status.state ∧ w'.status.writes = w.status.writes ∧
        w'.versions = w.versions) ∧
    (∀ {s : Stage} {r : Reconciler (StateM World)} {objects : Directory} {file : StatusFile},
      s.backend = .files objects file → s.reconciler = .ok r →
      ∀ now w e, (r.sync now w).1 = .error (.statusWriteFailed e) →
      let w' := (r.sync now w).2
      let own := [file.temporary.place w.tree.home]
      w'.status = w.status ∧ w'.versions = w.versions ∧
        Grows (objects.IsNewIn w.tree.home w.desired) (w.tree.outside own) (w'.tree.outside own) ∧
        (file.path.fileName?.isSome = true → ∀ content,
          w.tree.read file.path = .ok content → w'.tree.read file.path = .ok content)) ∧
    ∀ {c : Config} {dir : Files.Path} {app : App (StateM Tree)},
      App.new Tree.system (fun _ => pure ()) c dir = .ok app →
      ∀ now t e, (app.reconciler.sync now t).1 = .error (.statusWriteFailed e) →
      let t' := (app.reconciler.sync now t).2
      let file := app.statusFile
      let path := file.path
      (∀ content, (t'.lookup (path.place t.home) = some (.file content) ↔
          t.lookup (path.place t.home) = some (.file content)) ∧
        (t.read path = .ok content → t'.read path = .ok content)) ∧
      (file.StaysMissing t → ∃ before, (file.load Tree.system t).1 = .ok before ∧
        (file.load Tree.system t').1 = .ok before) ∧
      (file.IsShown t → ∀ before after, (file.load Tree.system t).1 = .ok before →
        (file.load Tree.system t').1 = .ok after → after = before) := by
  refine ⟨fun r now w => Reconciler.deeds_of_endsEarly, ?_, ?_, ?_, ?_, ?_⟩
  · intro s r hr now w hend
    obtain rfl := Stage.eq_assembled hr
    exact (Stage.opening_rests s).sync_of_endsEarly hend
  · intro c dir app happ now t hend
    exact App.sync_of_endsEarly happ hend
  · intro s r hs hr now w e hrefused w'
    obtain rfl := Stage.eq_assembled hr
    have hwrote := Stage.wrote_sync hs now w
    rw [hrefused] at hwrote
    exact ⟨hwrote.state, hwrote.writes, hwrote.versions⟩
  · intro s r objects file hs hr now w e hrefused
    obtain rfl := Stage.eq_assembled hr
    obtain ⟨hstatus, hversions, hgrows⟩ := Stage.sync_refused_files hs hrefused
    exact ⟨hstatus, hversions, hgrows, fun hname _ => Stage.read_of_refused hs hrefused hname⟩
  · intro c dir app happ now t e hrefused t' file path
    have hfile := App.lookup_of_refused happ hrefused
    refine ⟨fun content => ⟨hfile content, App.read_of_refused happ hrefused⟩,
      App.load_of_refused happ hrefused, fun hshown before after hload hload' => ?_⟩
    exact hshown.load_eq (App.sync_paves happ) hfile hload hload'

/-- A world with troubles, in which the operator is not to act. -/
def Rehearsal.World.unmanaged : World :=
  { World.troubled with status := .ofState ⟨.unmanaged, ⟨[], []⟩⟩ }

/-- A world with troubles, in which no condition can be written. -/
def Rehearsal.World.unwritable : World :=
  { World.troubled with
    status := { MemoryStatus.ofState .initial with writeFailure := some (.backend "full") } }

/-- Files of the operator with a directory in the place of its record. -/
def Files.Tree.unreadable : Tree := Tree.littered.install ⟨"/var/status.json"⟩ .directory

/-- Files of the operator with a directory in the place of the temporary file. -/
def Files.Tree.cluttered : Tree := Tree.littered.install ⟨"/var/status.json.tmp"⟩ .directory

/-- A directory in the place of the temporary file is in the way of a missing record. -/
theorem App.meets_cluttered {app : App (StateM Tree)} {now : Time.Timestamp}
    (h : App.new Tree.system (fun _ => pure ()) Config.single ⟨"/var"⟩ = .ok app) :
    app.statusFile.StaysMissing Tree.cluttered ∧ ∃ e,
      app.reconciler.Meets now Tree.cluttered (.unwritten e) Tree.cluttered := by
  have hfile : app.statusFile = ⟨⟨"/var/status.json"⟩⟩ := by
    have hpath : (⟨"/var"⟩ : Files.Path).join statusName = ⟨"/var/status.json"⟩ := by decide +kernel
    rw [statusFile_eq h, hpath]
  have htemporary : StatusFile.temporary ⟨⟨"/var/status.json"⟩⟩ = ⟨"/var/status.json.tmp"⟩ := by
    decide +kernel
  have hmade : StatusFile.makeParent Tree.system ⟨⟨"/var/status.json"⟩⟩ Tree.cluttered =
    (.ok (), Tree.cluttered) := rfl
  have hload : StatusFile.load Tree.system ⟨⟨"/var/status.json"⟩⟩ Tree.cluttered =
      (.ok .initial, Tree.cluttered) :=
    StatusFile.load_of_holds (.inl ⟨by rfl, rfl⟩)
  have hwrite (content : ByteArray) : Tree.cluttered.write
      (StatusFile.temporary ⟨⟨"/var/status.json"⟩⟩) content =
        (Tree.cluttered, .error .isDirectory) := by
    rw [htemporary]
    rfl
  obtain ⟨os, hobserve⟩ : ∃ os, app.reconciler.observe Config.single.desired Tree.cluttered =
      (os, Tree.cluttered) := by
    rw [reconciler_eq h]
    exact ⟨_, rfl⟩
  have hplace : Files.Path.place Tree.cluttered.home ⟨"/var/status.json"⟩ =
      ["var", "status.json"] := by
    change Files.Path.place [] ⟨"/var/status.json"⟩ = _
    decide +kernel
  have hupdate := StatusFile.update_of_write_error hload hmade hwrite
  rw [← hfile] at hmade hload hupdate
  refine ⟨fun _ => ⟨Tree.cluttered, hmade, ?_⟩, _, meets_unwritten h hload rfl hobserve hupdate⟩
  rw [hfile, hplace]
  rfl

/-- Four passes without a verdict: an operator that is not to act, a record that takes no conditions,
a record in a file that cannot be read, and one that is missing and cannot be written. -/
theorem untouched_without_verdict_troubled :
    let r := Stage.complete.assembled
    let now := World.time 0
    (r.deeds now .unmanaged = [] ∧ World.unmanaged.Rests (r.sync now .unmanaged).2) ∧
    (r.sync now .unwritable).2.status.state = .initial ∧
    ∃ app, App.new Tree.system (fun _ => pure ()) Config.single ⟨"/var"⟩ = .ok app ∧
      (app.reconciler.sync now Tree.unreadable).2 = Tree.unreadable ∧
      ∃ e before, (app.reconciler.sync now Tree.cluttered).1 = .error (.statusWriteFailed e) ∧
        (app.statusFile.load Tree.system Tree.cluttered).1 = .ok before ∧
        (app.statusFile.load Tree.system (app.reconciler.sync now Tree.cluttered).2).1 =
          .ok before := by
  intro r now
  obtain ⟨hdeeds, hstage, happ, hmemory, -, hrecord⟩ := untouched_without_verdict
  have hr : Stage.complete.reconciler = .ok r := Stage.reconciler_of_without rfl
  refine ⟨?_, ?_, ?_⟩
  · have hskipped : r.Meets now World.unmanaged (.unmanaged .unmanaged) World.unmanaged :=
      .unmanaged .begin rfl rfl
    have hend : EndsEarly (r.sync now .unmanaged).1 := by
      rw [hskipped.sync_eq]
      trivial
    exact ⟨hdeeds r now _ hend, hstage hr now _ hend⟩
  · have hopening : Stage.complete.opening World.unwritable (r.status.read World.unwritable).1 =
        .ok World.troubled.desired :=
      Stage.opening_eq_ok_iff.mpr ⟨⟨.initial, rfl, rfl⟩, rfl, rfl, rfl⟩
    have hstateless : World.unwritable.cluster.Stateless := World.stateless_troubled
    have hrefused : (r.sync now .unwritable).1 = .error (.statusWriteFailed (.backend "full")) :=
      (sync_memory rfl hstateless World.nodup_troubled hopening now).result
    exact (hmemory rfl hr now _ _ hrefused).1
  · obtain ⟨app, hnew⟩ : ∃ app,
        App.new Tree.system (fun _ => pure ()) Config.single ⟨"/var"⟩ = .ok app := ⟨_, rfl⟩
    let file : StatusFile := ⟨(⟨"/var"⟩ : Files.Path).join App.statusName⟩
    have hpath : file.path = ⟨"/var/status.json"⟩ := by decide +kernel
    have hread : Tree.unreadable.read file.path = .error .isDirectory := by
      rw [hpath]
      rfl
    have hload := StatusFile.load_of_read_error hread nofun
    have hend : EndsEarly (app.reconciler.sync now Tree.unreadable).1 := by
      rw [App.reconciler_eq hnew, (Reconciler.Meets.unread .begin hload).sync_eq]
      trivial
    obtain ⟨hstays, e, hmeets⟩ := App.meets_cluttered hnew
    have hrefused : (app.reconciler.sync now Tree.cluttered).1 = .error (.statusWriteFailed e) :=
      congrArg Prod.fst hmeets.sync_eq
    obtain ⟨-, hsame, -⟩ := hrecord hnew now Tree.cluttered e hrefused
    obtain ⟨before, hbefore, hafter⟩ := hsame hstays
    exact ⟨app, hnew, happ hnew now _ hend, e, before, hrefused, hbefore, hafter⟩

/-! ## Records that are hidden -/

namespace App

/-- The observation of an entry whose object is missing and cannot be made. -/
theorem observe_of_unmade {σ : Type} {registry : Registry (StateM σ)} {d : Desired}
    {e e' : StoreError} {w w' : σ} (hget : registry.get d.name w = (.error e, w))
    (he : e.isNotFound = true) (hcreate : registry.create d.toObject w = (.error e', w'))
    (he' : e'.isAlreadyExists = false) :
    observe registry (fun _ => pure ()) [d] w = ([⟨d.name, .ensureFailed e'.message⟩], w') := by
  have hlook : d.look registry (fun _ => pure ()) w = (none, w) := by
    rw [Desired.look, bind_apply, hget]
    dsimp only
    rw [if_pos he]
    rfl
  have hmake : d.make registry (fun _ => pure ()) w = (.error e', w') := by
    rw [Desired.make, bind_apply, hcreate]
    dsimp only
    rw [he']
    rfl
  have hensure : d.ensure registry (fun _ => pure ()) w = (.error e', w') := by
    rw [Desired.ensure, bind_apply, hlook]
    exact hmake
  have hall : ensureAll registry (fun _ => pure ()) [d] w = ([(d, .error e')], w') := by
    simp only [ensureAll, mapM_cons_apply, mapM_nil_apply, bind_apply, hensure, pure_apply]
  rw [observe, bind_apply, hall]
  rfl

/-- An object cannot be made where its directory cannot. -/
theorem observe_of_makeDirs {dir : Files.Path} {app : App (StateM Tree)} {t t' : Tree}
    {e : FileError} (h : App.new Tree.system (fun _ => pure ()) Config.single dir = .ok app)
    (hread : t.read ((dir.join objectsName).join "v1.build.json") = .error .notFound)
    (hdirs : Tree.system.makeDirs (dir.join objectsName) t = (.error e, t')) :
    ∃ os, app.reconciler.observe Config.single.desired t = (os, t') ∧
      (aggregate os).isAvailable = false := by
  obtain ⟨d, hd, hname⟩ : ∃ d, Config.single.desired = [d] ∧ d.name = "v1.build" := ⟨_, rfl, rfl⟩
  have hobject : d.toObject.name = "v1.build" := hname
  have hpath : Directory.pathOf ⟨dir.join objectsName⟩ "v1.build" =
      .ok ((dir.join objectsName).join "v1.build.json") := rfl
  refine ⟨[⟨d.name, .ensureFailed (StoreError.io d.name e.message).message⟩], ?_,
    isAvailable_aggregate _⟩
  rw [reconciler_eq h, hd]
  refine observe_of_unmade (e := .notFound resourceName d.name) ?_ rfl ?_ rfl
  · change Directory.get Tree.system ⟨dir.join objectsName⟩ d.name t = _
    have hmissing : Tree.system.read ((dir.join objectsName).join "v1.build.json") t =
      (.error .notFound, t) := Prod.ext hread rfl
    rw [hname, Directory.get, hpath]
    dsimp only
    rw [bind_apply, hmissing]
    rfl
  · change Directory.create Tree.system ⟨dir.join objectsName⟩ d.toObject t = _
    rw [Directory.create, hobject, hname, hpath]
    dsimp only
    rw [bind_apply, hdirs]
    rfl

/-- Files with a file in the place of the directory of objects. -/
def crowded : Tree := Tree.empty.put ["apiservices"] (.file .empty)

/-- Files with a record's, and a file in the place of the directory of objects. -/
def hidden (record : ByteArray) : Tree :=
  (Tree.empty.put ["apiservices"] (.file .empty)).put ["status.json"] (.file record)

/-- Files with a hidden record, and a directory in the place of the temporary file. -/
def blocked (record : ByteArray) : Tree := (hidden record).put ["status.json.tmp"] .directory

/-- A record that is found by way of a directory beside it. -/
def aside : StatusFile := ⟨⟨"/x/../status.json"⟩⟩

theorem statusFile_eq_aside {app : App (StateM Tree)}
    (h : App.new Tree.system (fun _ => pure ()) Config.single ⟨"/x/.."⟩ = .ok app) :
    app.statusFile = aside := by
  have hpath : (⟨"/x/.."⟩ : Files.Path).join statusName = ⟨"/x/../status.json"⟩ := by
    decide +kernel
  rw [statusFile_eq h, hpath]
  rfl

/-- Behind a missing directory a pass makes that and no object, if a file is in the way. -/
theorem observe_behind {app : App (StateM Tree)} {t : Tree}
    (h : App.new Tree.system (fun _ => pure ()) Config.single ⟨"/x/.."⟩ = .ok app)
    (hread : t.read ⟨"/x/../apiservices/v1.build.json"⟩ = .error .notFound)
    (hdirs : Tree.system.makeDirs ⟨"/x/../apiservices"⟩ t =
      (.error .fileExists, t.put ["x"] .directory)) :
    ∃ os, app.reconciler.observe Config.single.desired t = (os, t.put ["x"] .directory) ∧
      (aggregate os).isAvailable = false := by
  have hobjects : (⟨"/x/.."⟩ : Files.Path).join objectsName = ⟨"/x/../apiservices"⟩ := by
    decide +kernel
  have hobject : (⟨"/x/../apiservices"⟩ : Files.Path).join "v1.build.json" =
      ⟨"/x/../apiservices/v1.build.json"⟩ := by
    decide +kernel
  rw [← hobject, ← hobjects] at hread
  rw [← hobjects] at hdirs
  exact observe_of_makeDirs h hread hdirs

/-- An object cannot be made where its directory is a file, but the missing one on the way is. -/
theorem observe_hidden {app : App (StateM Tree)}
    (happ : App.new Tree.system (fun _ => pure ()) Config.single ⟨"/x/.."⟩ = .ok app)
    (record : ByteArray) : ∃ os, app.reconciler.observe Config.single.desired (hidden record) =
      (os, (hidden record).put ["x"] .directory) ∧ (aggregate os).isAvailable = false :=
  observe_behind happ rfl rfl

/-- A directory is in the way of the temporary file. -/
theorem write_blocked (record content : ByteArray) :
    ((blocked record).put ["x"] .directory).write aside.temporary content =
      ((blocked record).put ["x"] .directory, .error .isDirectory) := by
  have htemporary : aside.temporary = ⟨"/x/../status.json.tmp"⟩ := by decide +kernel
  rw [htemporary]
  rfl

/-- **A pass opens the way to a hidden record** before it fails to write its verdict. -/
theorem meets_blocked {app : App (StateM Tree)} {record : ByteArray} {state : OperatorState}
    (h : App.new Tree.system (fun _ => pure ()) Config.single ⟨"/x/.."⟩ = .ok app)
    (hrecord : record = (StatusFile.document state).toUTF8) (now : Time.Timestamp) :
    ∃ e, app.reconciler.Meets now (blocked record) (.unwritten e)
        ((blocked record).put ["x"] .directory) ∧
      (app.statusFile.load Tree.system (blocked record)).1 = .ok .initial ∧
      (app.statusFile.load Tree.system ((blocked record).put ["x"] .directory)).1 = .ok state := by
  let opened := (blocked record).put ["x"] .directory
  have hload : aside.load Tree.system (blocked record) = (.ok .initial, blocked record) :=
    StatusFile.load_of_holds (.inl ⟨by rfl, rfl⟩)
  have hload' : aside.load Tree.system opened = (.ok state, opened) := by
    have hread : opened.read aside.path = .ok record := by rfl
    exact StatusFile.load_of_holds (.inr (hrecord ▸ hread))
  have hmade : aside.makeParent Tree.system opened = (.ok (), opened) := rfl
  have hupdate := StatusFile.update_of_write_error hload' hmade (write_blocked record)
  obtain ⟨os, hobserve, -⟩ := @observe_behind app (blocked record) h rfl rfl
  rw [← statusFile_eq_aside h] at hload hload' hupdate
  exact ⟨_, meets_unwritten h hload rfl hobserve hupdate, congrArg Prod.fst hload,
    congrArg Prod.fst hload'⟩

/-- **A missing record cannot be read any more** after a pass that cannot write its verdict. -/
def Bars (dir : Files.Path) (t : Tree) : Prop :=
  ∃ app e e', App.new Tree.system (fun _ => pure ()) Config.single dir = .ok app ∧
    let p := app.reconciler.sync (World.time 0) t
    p.1 = .error (.statusWriteFailed e) ∧
      (app.statusFile.load Tree.system t).1 = .ok .initial ∧
      (app.statusFile.load Tree.system p.2).1 = .error e'

/-- Directories that are made on the way to the objects may bar that to the record. -/
theorem bars_of_makeDirs {dir : Files.Path} {t t' : Tree} {cause e : FileError}
    (hnew : ∃ app, App.new Tree.system (fun _ => pure ()) Config.single dir = .ok app)
    (hmissing : t.read (dir.join statusName) = .error .notFound)
    (hobject : t.read ((dir.join objectsName).join "v1.build.json") = .error .notFound)
    (hdirs : Tree.system.makeDirs (dir.join objectsName) t = (.error cause, t'))
    (hread : t'.read (dir.join statusName) = .error e) (he : e ≠ .notFound) : Bars dir t := by
  obtain ⟨app, h⟩ := hnew
  have hpath : app.statusFile.path = dir.join statusName :=
    congrArg StatusFile.path (statusFile_eq h)
  rw [← hpath] at hmissing hread
  have hload := StatusFile.load_of_holds (.inl ⟨hmissing, rfl⟩)
  have hload' := StatusFile.load_of_read_error hread he
  obtain ⟨os, hobserve, -⟩ := observe_of_makeDirs h hobject hdirs
  let refusal := app.statusFile.refused e
  have hmeets : app.reconciler.Meets (World.time 0) t (.unwritten refusal) t' :=
    meets_unwritten h hload rfl hobserve (StatusFile.update_of_load_error hload')
  refine ⟨app, refusal, refusal, h, ?_⟩
  rw [hmeets.sync_eq]
  exact ⟨rfl, congrArg Prod.fst hload, congrArg Prod.fst hload'⟩

/-- **A directory comes to stand in the record's place** where the way to the record goes through
that. -/
theorem bars_crowded : Bars ⟨"/status.json/.."⟩ crowded := by
  have hrecord : (⟨"/status.json/.."⟩ : Files.Path).join statusName =
      ⟨"/status.json/../status.json"⟩ := by
    decide +kernel
  have hobjects : (⟨"/status.json/.."⟩ : Files.Path).join objectsName =
      ⟨"/status.json/../apiservices"⟩ := by
    decide +kernel
  refine @bars_of_makeDirs _ crowded (crowded.put ["status.json"] .directory) .fileExists
    .isDirectory ⟨_, rfl⟩ ?_ ?_ ?_ ?_ nofun
  · rw [hrecord]
    rfl
  · rw [hobjects]
    rfl
  · rw [hobjects]
    rfl
  · rw [hrecord]
    rfl

/-- **A directory cannot be made** where a file is, which shows when the one before it is made. -/
theorem bars_beyond : Bars ⟨"/x/../apiservices"⟩ crowded := by
  have hrecord : (⟨"/x/../apiservices"⟩ : Files.Path).join statusName =
      ⟨"/x/../apiservices/status.json"⟩ := by
    decide +kernel
  have hobjects : (⟨"/x/../apiservices"⟩ : Files.Path).join objectsName =
      ⟨"/x/../apiservices/apiservices"⟩ := by
    decide +kernel
  refine @bars_of_makeDirs _ crowded (crowded.put ["x"] .directory) .fileExists
    .notDirectory ⟨_, rfl⟩ ?_ ?_ ?_ ?_ nofun
  · rw [hrecord]
    rfl
  · rw [hobjects]
    rfl
  · rw [hobjects]
    rfl
  · rw [hrecord]
    rfl

/-- The record of an operator that is to act, with a condition and a version. -/
def noted : OperatorState :=
  ⟨.managed, ⟨[⟨Verdict.conditionType, .true, none, none, World.time 0⟩],
    [⟨"openshift-apiserver", "4.1.0"⟩]⟩⟩

end App

/-- **On the way to a missing record there may be a surprise**, although the verdict cannot be
written: behind a missing directory another record, with conditions and versions of its own; or
the directory that is made takes the place of the record, or one cannot be made, and then the record
cannot be read. -/
theorem untouched_without_verdict_hidden :
    (let t := App.blocked (StatusFile.document App.noted).toUTF8
     ∃ app e, App.new Tree.system (fun _ => pure ()) Config.single ⟨"/x/.."⟩ = .ok app ∧
      let p := app.reconciler.sync (World.time 0) t
      p.1 = .error (.statusWriteFailed e) ∧
        (app.statusFile.load Tree.system t).1 = .ok .initial ∧
        (app.statusFile.load Tree.system p.2).1 = .ok App.noted ∧
        App.noted.status.conditions ≠ OperatorState.initial.status.conditions ∧
        App.noted.status.versions ≠ OperatorState.initial.status.versions) ∧
    App.Bars ⟨"/status.json/.."⟩ App.crowded ∧ App.Bars ⟨"/x/../apiservices"⟩ App.crowded := by
  refine ⟨?_, App.bars_crowded, App.bars_beyond⟩
  obtain ⟨app, happ⟩ : ∃ app,
      App.new Tree.system (fun _ => pure ()) Config.single ⟨"/x/.."⟩ = .ok app := ⟨_, rfl⟩
  obtain ⟨e, hmeets, hbefore, hafter⟩ :=
    App.meets_blocked happ (Eq.refl (StatusFile.document App.noted).toUTF8) (World.time 0)
  refine ⟨app, e, happ, ?_⟩
  rw [hmeets.sync_eq]
  exact ⟨rfl, hbefore, hafter, List.cons_ne_nil _ _, List.cons_ne_nil _ _⟩

end ApiAvailability
