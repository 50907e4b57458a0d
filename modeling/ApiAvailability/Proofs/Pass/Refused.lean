import ApiAvailability.Proofs.Files.Ways
import ApiAvailability.Proofs.Pass.Addition
import ApiAvailability.Proofs.Store.Absent

/-!
# Proofs/Pass/Refused — a verdict that cannot be written to a file

A pass whose verdict cannot be written has created objects, and has done nothing else outside of the
place of the temporary file (`Stage.sync_refused_files`, `App.sync_refused`).  So a record that was
found is read as before (`Stage.read_of_refused`, `App.read_of_refused`), and the operator's record,
which has its place beside the directory of objects, holds what it held (`App.lookup_of_refused`).

A record that was missing may come to light when its directory is made.  It is read as before if it
stays missing then (`App.load_of_refused`).
-/

namespace ApiAvailability

open Files Rehearsal

/-! ## With stores on files -/

namespace Rehearsal.Stage

variable {s : Stage} {r : Reconciler (StateM World)} {now : Time.Timestamp} {w : World}

theorem rename_spares {R : World → World → Prop} [Std.Refl R] (p p' : Files.Path) :
    Spares R (system.rename p p') := by
  intro e w w' h
  have hfailed : (w.tree.rename p p').2 = .error e := congrArg Prod.fst h
  obtain rfl : { w with tree := (w.tree.rename p p').1 } = w' := congrArg Prod.snd h
  rw [Tree.rename_of_error hfailed]
  exact refl w

/-- **A verdict that cannot be written to a file**: the pass adds objects, and does nothing else
outside of the place of the temporary file. -/
theorem sync_refused_files {objects : Directory} {file : StatusFile}
    (hs : s.backend = .files objects file) {e : StoreError}
    (hrefused : (s.assembled.sync now w).1 = .error (.statusWriteFailed e)) :
    let w' := (s.assembled.sync now w).2
    let own := [file.temporary.place w.tree.home]
    w'.status = w.status ∧ w'.versions = w.versions ∧
      Grows (objects.IsNewIn w.tree.home w.desired) (w.tree.outside own) (w'.tree.outside own) := by
  intro w' own
  -- which objects may be created depends on what is desired, so that must not change on the way
  let inv (w₁ : World) : Prop :=
    w₁.desired = w.desired ∧ w₁.status = w.status ∧ w₁.versions = w.versions
  let R := Growing (fun w₁ : World => inv w₁ ∧ w₁.tree.home = w.tree.home)
    (fun w₁ => w₁.tree.outside own) (objects.IsNewIn w.tree.home w.desired)
  have hfs : system.Keeping w.tree.home own (objects.IsNewIn w.tree.home w.desired) R :=
    keeping_system (fun _ _ h => h) fun q => .inl rfl
  have hR (w₁ w₂ : World) (h : w₁.Alike w₂) : R w₁ w₂ := by
    refine .of_eq ?_ (congrArg (Tree.outside · own) h.tree)
    rintro ⟨⟨hdesired, hstatus, hversions⟩, hhome⟩
    exact ⟨⟨h.desired.trans hdesired, h.status.trans hstatus, h.versions.trans hversions⟩,
      (congrArg Tree.home h.tree).trans hhome⟩
  have hupsert (c : OperatorCondition) : Spares R (s.store.upsert c) := by
    rw [store, hs]
    exact file.update_spares hfs List.mem_cons_self rename_spares _
  have hinv : inv w ∧ w.tree.home = w.tree.home := ⟨⟨rfl, rfl, rfl⟩, rfl⟩
  have hsync : R w w' := by
    refine (working_files hs hfs hR).sync_of_unwritten ?_ (upsert_spares hR hupsert) hrefused
    intro w₁ ds hw₁ hds d hd
    rw [← eq_of_provider_eq_ok hds, (hw₁ hinv).1.1.1] at hd
    exact create_files hs hfs (.inr ⟨d, hd, rfl, rfl⟩)
  obtain ⟨⟨⟨-, hstatus, hversions⟩, -⟩, hgrows⟩ := hsync hinv
  exact ⟨hstatus, hversions, hgrows⟩

/-- Ways stay in the files of a world. -/
def Paves (w w' : World) : Prop := w.tree.Paves w'.tree

instance : IsPreorder World Paves where
  refl w := refl w.tree
  trans w₁ w₂ w₃ h h' := IsTrans.trans w₁.tree w₂.tree w₃.tree h h'

/-- The files of a world leave ways as a tree does. -/
theorem keeping_paves (home : Place) (own : List Place) (may : Place → Node → Prop) :
    system.Keeping home own may Paves :=
  have h := Tree.keeping_paves home own may
  { read := fun p w => h.read p w.tree
    isDirectory := fun p w => h.isDirectory p w.tree
    makeDir := fun p w => h.makeDir p w.tree
    createNew := fun p content hmay w => h.createNew p content hmay w.tree
    write := fun p content hown w => h.write p content hown w.tree
    rename := fun p p' hown hown' w => h.rename p p' hown hown' w.tree }

/-- No directory is taken away by a pass with stores on files. -/
theorem sync_paves {objects : Directory} {file : StatusFile} (hs : s.backend = .files objects file)
    (now : Time.Timestamp) (w : World) : Paves w (s.assembled.sync now w).2 := by
  have hfs := keeping_paves w.tree.home (file.places w.tree.home) fun _ _ => True
  have hR (w₁ w₂ : World) (h : w₁.Alike w₂) : Paves w₁ w₂ := by
    rw [Paves, h.tree]
    exact refl w₁.tree
  have hkeeping : s.assembled.Keeping Paves :=
    keeping_files hs hfs hR (fun _ hq => hq) fun _ _ w => refl w.tree
  exact hkeeping.sync (fun _ _ _ _ _ _ => create_files hs hfs trivial) now

/-- A record that was found in a file is read as before, if the verdict cannot be written. -/
theorem read_of_refused {objects : Directory} {file : StatusFile}
    (hs : s.backend = .files objects file) {e : StoreError}
    (hrefused : (s.assembled.sync now w).1 = .error (.statusWriteFailed e))
    (hname : file.path.fileName?.isSome = true) {content : ByteArray}
    (hread : w.tree.read file.path = .ok content) :
    (s.assembled.sync now w).2.tree.read file.path = .ok content := by
  obtain ⟨-, -, hgrows⟩ := sync_refused_files hs hrefused
  have hown : file.path.place w.tree.home ∉ [file.temporary.place w.tree.home] :=
    fun hmem => StatusFile.temporary_ne hname _ (List.mem_singleton.mp hmem).symm
  have hthere := Tree.outside_eq_some_iff.mpr ⟨hown, (Tree.read_eq_ok hread).2⟩
  exact Tree.Paves.read (sync_paves hs now w) hread
    (Tree.outside_eq_some_iff.mp (hgrows.kept _ _ hthere)).2

end Rehearsal.Stage

/-! ## The operator on its files -/

namespace App

variable {c : Config} {dir : Files.Path} {app : App (StateM Tree)} {now : Time.Timestamp} {t : Tree}

/-- **A verdict that the operator cannot write to its file**: the pass adds objects, and does nothing
else outside of the place of the temporary file. -/
theorem sync_refused (h : App.new Tree.system (fun _ => pure ()) c dir = .ok app) {e : StoreError}
    (hrefused : (app.reconciler.sync now t).1 = .error (.statusWriteFailed e)) :
    let own := [(StatusFile.mk (dir.join statusName)).temporary.place t.home]
    Grows (Directory.IsNewIn ⟨dir.join objectsName⟩ t.home c.desired) (t.outside own)
      ((app.reconciler.sync now t).2.outside own) := by
  intro own
  let R := Tree.Extends t.home own (Directory.IsNewIn ⟨dir.join objectsName⟩ t.home c.desired)
  have hfs : Tree.system.Keeping t.home own
      (Directory.IsNewIn ⟨dir.join objectsName⟩ t.home c.desired) R :=
    Tree.keeping_system fun q => .inl rfl
  have hupsert (c : OperatorCondition) : Spares R (app.reconciler.status.upsert c) := by
    rw [reconciler_eq h]
    exact StatusFile.update_spares hfs ⟨dir.join statusName⟩ List.mem_cons_self
      Tree.rename_spares _
  exact ((working h hfs).sync_of_unwritten (create_keeps h hfs) hupsert hrefused rfl).2

/-- The file of the operator's record holds what it held, where objects are added only. -/
theorem lookup_file_iff {home : Place} {own : List Place} {ds : List Desired} {t t' : Tree}
    (hown : (dir.join statusName).place home ∉ own)
    (hgrows : Grows (Directory.IsNewIn ⟨dir.join objectsName⟩ home ds) (t.outside own)
      (t'.outside own)) (content : ByteArray) :
    t'.lookup ((dir.join statusName).place home) = some (.file content) ↔
      t.lookup ((dir.join statusName).place home) = some (.file content) :=
  -- a new file is that of an object, and these are in a directory of their own
  Tree.lookup_file_iff_of_grows hgrows hown (not_isNewIn dir home ds content)

/-- The file of the operator's record holds what it held, if its verdict cannot be written. -/
theorem lookup_of_refused (h : App.new Tree.system (fun _ => pure ()) c dir = .ok app)
    {e : StoreError} (hrefused : (app.reconciler.sync now t).1 = .error (.statusWriteFailed e))
    (content : ByteArray) :
    (app.reconciler.sync now t).2.lookup (app.statusFile.path.place t.home) =
        some (.file content) ↔
      t.lookup (app.statusFile.path.place t.home) = some (.file content) := by
  rw [statusFile_eq h]
  exact lookup_file_iff (not_mem_temporary dir t.home) (sync_refused h hrefused) content

/-- No directory is taken away by a pass. -/
theorem sync_paves (h : App.new Tree.system (fun _ => pure ()) c dir = .ok app) :
    t.Paves (app.reconciler.sync now t).2 :=
  have hfs := Tree.keeping_paves t.home ((StatusFile.mk (dir.join statusName)).places t.home)
    (Directory.IsNewIn ⟨dir.join objectsName⟩ t.home c.desired)
  (keeping h hfs fun _ hq => hq).sync (create_keeps h hfs) now

/-- A record that the operator could read is read as before, if its verdict cannot be written. -/
theorem read_of_refused (h : App.new Tree.system (fun _ => pure ()) c dir = .ok app)
    {e : StoreError} (hrefused : (app.reconciler.sync now t).1 = .error (.statusWriteFailed e))
    {content : ByteArray} (hread : t.read app.statusFile.path = .ok content) :
    (app.reconciler.sync now t).2.read app.statusFile.path = .ok content :=
  (sync_paves h).read hread ((lookup_of_refused h hrefused content).mpr (Tree.read_eq_ok hread).2)

/-- **A record that is missing and stays so** is missing after a pass whose verdict cannot be
written. -/
theorem missing_of_refused (h : App.new Tree.system (fun _ => pure ()) c dir = .ok app)
    {e : StoreError} (hrefused : (app.reconciler.sync now t).1 = .error (.statusWriteFailed e))
    (hstays : app.statusFile.StaysMissing t)
    (hmissing : t.read app.statusFile.path = .error .notFound) :
    (app.reconciler.sync now t).2.read app.statusFile.path = .error .notFound := by
  obtain ⟨u, hmade, hclear⟩ := hstays hmissing
  rw [statusFile_eq h] at hmade hclear hmissing ⊢
  have hstatus : IsName statusName := .of_long (by decide) (by decide)
  have hobjects : IsName objectsName := .of_long (by decide) (by decide)
  have hne : objectsName ≠ statusName := by decide
  -- up to its verdict a pass creates objects beside the record, and then it writes in vain
  let R := Kept (StatusFile.MissingSince ⟨dir.join statusName⟩ t)
  have hworking : app.reconciler.Working R := by
    rw [reconciler_eq h]
    exact {
      read := StatusFile.load_keeps_of_read ⟨dir.join statusName⟩ fun _ => .of_snd_eq fun _ => rfl
      precondition := .pure _
      provider := .pure _
      get := fun _ => Directory.get_keeps_of_read fun _ _ => .of_snd_eq fun _ => rfl
      recordEvent := fun _ => .pure () }
  have hsince : R t (app.reconciler.sync now t).2 := by
    refine hworking.sync_of_unwritten (fun _ _ _ _ d _ => ?_) (fun condition => ?_) hrefused
    · rw [reconciler_eq h]
      exact fun t₁ h₁ => h₁.create hstatus hobjects hne hmade hclear d.toObject
    · rw [reconciler_eq h]
      have hname : (dir.join statusName).fileName?.isSome = true := by
        rw [Files.Path.fileName?_join dir hstatus.separator hstatus.isVoid hstatus.dots]
        rfl
      exact fun e t₁ t₂ hupsert h₁ => h₁.update hmade hclear hname hupsert
  rcases hsince (.inl rfl) with hsame | habsent
  · rw [hsame]
    exact hmissing
  · have hlegal : Tree.refusal? (dir.join statusName) = none :=
      Tree.refusal?_of_missing hmissing (Files.Path.text_join_ne dir hstatus)
    exact habsent.read hstatus (by decide) hlegal

/-- **The record is read as before** when the verdict cannot be written, if it was found or stays
missing. -/
theorem load_of_refused (h : App.new Tree.system (fun _ => pure ()) c dir = .ok app)
    {e : StoreError} (hrefused : (app.reconciler.sync now t).1 = .error (.statusWriteFailed e))
    (hstays : app.statusFile.StaysMissing t) :
    ∃ before, (app.statusFile.load Tree.system t).1 = .ok before ∧
      (app.statusFile.load Tree.system (app.reconciler.sync now t).2).1 = .ok before := by
  obtain ⟨before, t₁, hread⟩ := Reconciler.exists_read_of_refused hrefused
  have hload : (app.statusFile.load Tree.system t).1 = .ok before := by
    rw [reconciler_eq h] at hread
    rw [statusFile_eq h]
    exact congrArg Prod.fst hread
  refine ⟨before, hload, (StatusFile.load_congr ?_).trans hload⟩
  rcases StatusFile.read_of_load hload with ⟨hmissing, -⟩ | ⟨content, hfound, -⟩
  · rw [hmissing, missing_of_refused h hrefused hstays hmissing]
  · rw [hfound, read_of_refused h hrefused hfound]

/-- **A pass does not get past a record that cannot be written**, if it may work. -/
theorem meets_unwritten (h : App.new Tree.system (fun _ => pure ()) c dir = .ok app)
    {before : OperatorState} {os : List Observation} {t₁ t₂ : Tree} {e : StoreError}
    (hload : app.statusFile.load Tree.system t = (.ok before, t))
    (hmanaged : before.managementState = .managed)
    (hobserve : app.reconciler.observe c.desired t = (os, t₁))
    (hupdate : ∀ change, app.statusFile.update Tree.system change t₁ = (.error e, t₂)) :
    app.reconciler.Meets now t (.unwritten e) t₂ := by
  obtain rfl := Except.ok.inj h
  exact .unwritten (.observed (.provided (.ready (.managed .begin hload hmanaged) rfl) rfl) hobserve)
    (hupdate _)

end App

end ApiAvailability
