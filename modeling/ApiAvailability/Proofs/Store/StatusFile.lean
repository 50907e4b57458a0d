import ApiAvailability.Proofs.Files.Beside
import ApiAvailability.Proofs.Operator.Edits
import ApiAvailability.Proofs.Operator.Written
import ApiAvailability.Store.Memory

/-!
# Proofs/Store/StatusFile — the record in a file is the record in memory

A file that can be written holds a record, its document, after every write (`StatusFile.save_ready`),
and reading gives the record back.  So whoever reads and writes a record cannot tell the file from
the memory, however often the file is opened again (`StatusFile.refines_memory`).
-/

namespace ApiAvailability

open Files

/-! ## Calls -/

/-- **A call on the operator's record**: it is read, or one entry is written. -/
inductive RecordCall where
  | read
  | write (e : Edit)

/-- What a call answers. That a version is recorded is not answered. -/
inductive RecordAnswer where
  | record (r : Except StoreError OperatorState)
  | written (r : Except StoreError Unit)
  | done

namespace RecordAnswer

/-- Whether the answer is no failure. -/
def isOk : RecordAnswer → Bool
  | record r => r.isOk
  | written r => r.isOk
  | done => true

end RecordAnswer

namespace RecordCall

/-- Whether a call writes. -/
def writes : RecordCall → Bool
  | read => false
  | write _ => true

/-- The call on a file. -/
def onFile (s : StatusFile) : RecordCall → StateM Tree RecordAnswer
  | read => do return .record (← (s.store Tree.system).read)
  | write (.condition c) => do return .written (← (s.store Tree.system).upsert c)
  | write (.version component version) => do
    s.setVersion Tree.system component version
    return .done

/-- The call on a record in memory. -/
def inMemory : RecordCall → StateM MemoryStatus RecordAnswer
  | read => do return .record (← MemoryStatus.store.read)
  | write (.condition c) => do return .written (← MemoryStatus.store.upsert c)
  | write (.version component version) => do
    modify (·.setVersion component version)
    return .done

/-- Calls one after the other, each through a store of its own. -/
def allOnFile (calls : List (StatusFile × RecordCall)) : StateM Tree (List RecordAnswer) :=
  calls.mapM fun c => c.2.onFile c.1

/-- Calls one after the other. -/
def allInMemory (calls : List RecordCall) : StateM MemoryStatus (List RecordAnswer) :=
  calls.mapM inMemory

end RecordCall

namespace StatusFile

variable {s : StatusFile} {t : Tree} {state : OperatorState}

/-! ## A file that can be written -/

/-- **A record can be written to the file**: its path and the temporary file's are legal, its
directory is there or can be made, and then there is no directory in the place of either. -/
structure IsReady (s : StatusFile) (t : Tree) : Prop where
  path : s.path.IsLegal
  temporary : s.temporary.IsLegal
  parents : (s.makeParent Tree.system t).1 = .ok ()
  free : ∀ q ∈ s.places t.home, (s.makeParent Tree.system t).2.lookup q ≠ some .directory

/-- **The file holds a record**: its document, or nothing for the initial record. -/
def Holds (s : StatusFile) (t : Tree) (state : OperatorState) : Prop :=
  (t.read s.path = .error .notFound ∧ state = .initial) ∨
    t.read s.path = .ok (document state).toUTF8

/-- **A record has been written**: the file holds its document, and the temporary file is gone. -/
structure IsWritten (s : StatusFile) (t : Tree) (state : OperatorState) : Prop where
  read : t.read s.path = .ok (document state).toUTF8
  temporary : t.lookup (s.temporary.place t.home) = none

theorem load_of_holds (h : s.Holds t state) : s.load Tree.system t = (.ok state, t) := by
  rw [load, bind_apply]
  have hread : Tree.system.read s.path t = (t.read s.path, t) := rfl
  rcases h with ⟨hmissing, rfl⟩ | hdocument
  · rw [hread, hmissing]
    rfl
  · rw [hread, hdocument]
    have hvalue := state.denotes.of_bytes
    simp only [document, hvalue]
    rfl

/-- A file that is there and cannot be read holds no record. -/
theorem load_of_read_error {e : FileError} (h : t.read s.path = .error e) (he : e ≠ .notFound) :
    s.load Tree.system t = (.error (s.refused e), t) := by
  have hread : Tree.system.read s.path t = (t.read s.path, t) := rfl
  rw [load, bind_apply, hread, h]
  cases e with
  | notFound => exact absurd rfl he
  | _ => rfl

/-- A record that cannot be read is not changed. -/
theorem update_of_load_error {e : StoreError} (h : s.load Tree.system t = (.error e, t))
    (change : OperatorState → OperatorState) : s.update Tree.system change t = (.error e, t) := by
  rw [update, bind_apply, h]
  rfl

/-- Reading the record changes no file. -/
theorem snd_load_system (s : StatusFile) (t : Tree) : (s.load Tree.system t).2 = t :=
  have hkeeps : Keeps Eq (s.load Tree.system) := s.load_keeps_of_read fun _ _ => rfl
  (hkeeps t).symm

/-- **A record is changed in two steps**: it is read, and put back changed. -/
theorem update_eq_ok {change : OperatorState → OperatorState} {t' : Tree}
    (h : s.update Tree.system change t = (.ok (), t')) : ∃ state,
    s.load Tree.system t = (.ok state, t) ∧ s.save Tree.system (change state) t = (.ok (), t') := by
  rw [update, bind_apply, snd_load_system] at h
  rcases hload : (s.load Tree.system t).1 with e | state
  · rw [hload] at h
    cases congrArg Prod.fst h
  · rw [hload] at h
    exact ⟨state, Prod.ext hload (snd_load_system s t), h⟩

/-- **A record is written in three steps**: its directory is made, the temporary file is written,
and that takes its place. -/
theorem save_eq_ok {t' : Tree} (h : s.save Tree.system state t = (.ok (), t')) : ∃ t₁ t₂,
    s.makeParent Tree.system t = (.ok (), t₁) ∧
      t₁.write s.temporary (document state).toUTF8 = (t₂, .ok ()) ∧
        t₂.rename s.temporary s.path = (t', .ok ()) := by
  rw [save, bind_apply] at h
  rcases hmade : s.makeParent Tree.system t with ⟨e | u, t₁⟩
  · rw [hmade] at h
    cases congrArg Prod.fst h
  rw [hmade] at h
  simp only [bind_apply] at h
  rcases hwrite : t₁.write s.temporary (document state).toUTF8 with ⟨t₂, e | u⟩
  · rw [Tree.system_write hwrite] at h
    cases congrArg Prod.fst h
  rw [Tree.system_write hwrite] at h
  simp only [bind_apply] at h
  rcases hrename : t₂.rename s.temporary s.path with ⟨t₃, e | u⟩
  · rw [Tree.system_rename hrename] at h
    cases congrArg Prod.fst h
  rw [Tree.system_rename hrename] at h
  obtain rfl : t₃ = t' := congrArg Prod.snd h
  exact ⟨t₁, t₂, rfl, hwrite, hrename⟩

/-- A record that is written in vain, though its directory is there, leaves the temporary file. -/
theorem snd_of_save_error {t₁ t' : Tree} {e : StoreError}
    (hmade : s.makeParent Tree.system t = (.ok (), t₁))
    (h : s.save Tree.system state t = (.error e, t')) :
    (Tree.system.write s.temporary (document state).toUTF8 t₁).2 = t' := by
  rw [save, bind_apply, hmade] at h
  simp only [bind_apply] at h
  rcases hwrite : Tree.system.write s.temporary (document state).toUTF8 t₁ with ⟨e' | u, t₂⟩
  · rw [hwrite] at h
    exact congrArg Prod.snd h
  rw [hwrite] at h
  simp only [bind_apply] at h
  rcases hrename : Tree.system.rename s.temporary s.path t₂ with ⟨e' | u, t₃⟩
  · rw [hrename] at h
    obtain rfl : t₃ = t' := congrArg Prod.snd h
    exact (Tree.rename_spares (R := Eq) _ _ _ _ _ hrename)
  · rw [hrename] at h
    cases congrArg Prod.fst h

/-- A record whose temporary file cannot be written is not changed. -/
theorem update_of_write_error {t₁ : Tree} {e : FileError}
    (hload : s.load Tree.system t = (.ok state, t))
    (hmade : s.makeParent Tree.system t = (.ok (), t₁))
    (hwrite : ∀ content, t₁.write s.temporary content = (t₁, .error e))
    (change : OperatorState → OperatorState) :
    s.update Tree.system change t = (.error (s.refused e), t₁) := by
  rw [update, bind_apply, hload]
  simp only [save, bind_apply, hmade, Tree.system_write (hwrite _)]
  rfl

/-- **A record that was written is read.** -/
theorem read_of_save {t' : Tree} (h : s.save Tree.system state t = (.ok (), t')) :
    t'.read s.path = .ok (document state).toUTF8 := by
  obtain ⟨t₁, t₂, -, hwrite, hrename⟩ := save_eq_ok h
  exact Tree.read_of_rename hrename (Tree.read_of_write hwrite)

/-- The directory of the file is made once. -/
theorem makeParent_again {t₁ t₂ : Tree} (hmade : s.makeParent Tree.system t = (.ok (), t₁))
    (hpaves : Tree.Paves t₁ t₂) : s.makeParent Tree.system t₂ = (.ok (), t₂) := by
  rw [makeParent] at hmade ⊢
  cases hparent : s.path.parent? with
  | none => rfl
  | some above =>
    rw [hparent] at hmade
    exact Tree.makeDirs_of_leads (hpaves.leads (Tree.leads_of_makeDirs hmade))

/-- **Writing succeeds**, and can be repeated. -/
theorem save_ready (h : s.IsReady t) (state : OperatorState) :
    ∃ t', s.save Tree.system state t = (.ok (), t') ∧ s.IsReady t' ∧ s.IsWritten t' state := by
  obtain ⟨dir, name, hpath, hname, -⟩ := h.path.name
  obtain ⟨above, habove⟩ := Path.exists_parent dir hname
  rw [← hpath] at habove
  have hmake : s.makeParent Tree.system t = Tree.system.makeDirs above t := by
    rw [makeParent, habove]
  rcases hmade : s.makeParent Tree.system t with ⟨answer, t₁⟩
  obtain rfl : answer = .ok () := by simpa [hmade] using h.parents
  have hleads : t₁.Leads above := Tree.leads_of_makeDirs (hmake.symm.trans hmade)
  have hpaves₁ : Tree.Paves t t₁ :=
    (s.makeParent_keeps (Tree.keeping_paves t.home [] fun _ _ => True)).of_eq hmade
  have hreaches : t₁.Reaches dir :=
    Tree.reaches_of_parent hname (hpath ▸ habove) hleads.reaches
  -- the temporary file is beside the file, under another name
  obtain ⟨new, hnew, hsep, hcases⟩ :=
    @Path.withExtension_beside name dir hname "json.tmp" (by decide) (by decide)
  rw [← hpath, ← temporary] at hnew
  have hlegal := h.temporary
  rw [hnew] at hlegal
  have hnewname := (hlegal.of_join hsep).1
  have hlocate : t₁.locate s.path = .ok (.entry (s.path.place t₁.home) false) := by
    rw [hpath]
    exact hreaches.locate_legal (hpath ▸ h.path) hname.separator
  have hlocate' : t₁.locate s.temporary = .ok (.entry (s.temporary.place t₁.home) false) := by
    rw [hnew]
    exact hreaches.locate_legal hlegal hsep
  have hplaces : s.temporary.place t₁.home ≠ s.path.place t₁.home := by
    rw [hnew, hpath, Path.place_join_name _ _ hnewname, Path.place_join_name _ _ hname]
    simpa using hcases.resolve_left hnewname.dots
  have hfree := h.free
  rw [hmade, ← hpaves₁.home] at hfree
  obtain ⟨t₂, t₃, hwrite, hrename, hpaves₂, hread, hthere, hgone⟩ :=
    Tree.exists_replaced hlocate hlocate' hplaces (hfree _ List.mem_cons_self)
      (hfree _ (List.mem_cons_of_mem _ List.mem_cons_self)) (document state).toUTF8
  have hsave : s.save Tree.system state t = (.ok (), t₃) := by
    rw [save, bind_apply, hmade]
    simp only [bind_apply, Tree.system_write hwrite, Tree.system_rename hrename]
    rfl
  have hmade' : s.makeParent Tree.system t₃ = (.ok (), t₃) := makeParent_again hmade hpaves₂
  refine ⟨t₃, hsave, ⟨h.path, h.temporary, by rw [hmade'], ?_⟩, ⟨hread, ?_⟩⟩
  · rw [hmade', hpaves₂.home]
    refine List.forall_mem_cons.mpr ⟨?_, List.forall_mem_singleton.mpr ?_⟩
    · simp [hthere]
    · simp [hgone]
  · rw [hpaves₂.home]
    exact hgone

/-- **Changing the record succeeds**, and can be repeated. -/
theorem update_ready (h : s.IsReady t) (hstate : s.Holds t state)
    (change : OperatorState → OperatorState) : ∃ t', s.update Tree.system change t = (.ok (), t') ∧
      s.IsReady t' ∧ s.IsWritten t' (change state) := by
  obtain ⟨t', hsave, hready, hwritten⟩ := save_ready h (change state)
  refine ⟨t', ?_, hready, hwritten⟩
  rw [update, bind_apply, load_of_holds hstate]
  exact hsave

/-- **What was written once can be written again**: after a record was written to a file of one name,
by way of a temporary file of another, the file is ready. -/
theorem ready_of_save {dir : Path} {name new : String} {t' : Tree}
    (h : s.save Tree.system state t = (.ok (), t')) (hpath : s.path = dir.join name)
    (htemporary : s.temporary = dir.join new) (hname : IsName name) (hnew : IsName new)
    (hlength : name.utf8ByteSize ≤ Tree.maxNameBytes)
    (hlength' : new.utf8ByteSize ≤ Tree.maxNameBytes) (hne : name ≠ new) : s.IsReady t' := by
  obtain ⟨t₁, t₂, hmade, hwrite, hrename⟩ := save_eq_ok h
  have hpaves : Tree.Paves t₁ t' := IsTrans.trans _ _ _
    ((Tree.write_paves _ _).of_eq (Tree.system_write hwrite))
    ((Tree.rename_paves _ _).of_eq (Tree.system_rename hrename))
  have hmade' := makeParent_again hmade hpaves
  obtain ⟨content, hread, hlocate, rfl⟩ := Tree.rename_eq_ok hrename
  have hlocate' := (Tree.read_eq_ok hread).1
  have hplaces : s.path.place t₂.home ≠ s.temporary.place t₂.home := by
    rw [hpath, htemporary, Path.place_join_name _ _ hname, Path.place_join_name _ _ hnew]
    simpa using hne
  refine ⟨⟨Tree.refusal?_of_locate hlocate, dir, name, hpath, hname, hlength⟩,
    ⟨Tree.refusal?_of_locate hlocate', dir, new, htemporary, hnew, hlength'⟩, by rw [hmade'], ?_⟩
  rw [hmade']
  refine List.forall_mem_cons.mpr ⟨?_, List.forall_mem_singleton.mpr ?_⟩
  · change Tree.lookup _ (s.path.place t₂.home) ≠ _
    simp [Tree.lookup_put_self (Tree.locate_entry hlocate).2]
  · change Tree.lookup _ (s.temporary.place t₂.home) ≠ _
    rw [Tree.lookup_put_of_ne hplaces, Tree.lookup_drop_self (Tree.locate_entry hlocate').2]
    simp

theorem onFile_read (h : s.Holds t state) :
    RecordCall.read.onFile s t = (.record (.ok state), t) := by
  change (RecordAnswer.record (s.load Tree.system t).1, (s.load Tree.system t).2) = _
  rw [load_of_holds h]

theorem onFile_condition {c : OperatorCondition} {answer : Except StoreError Unit} {t' : Tree}
    (h : s.update Tree.system (·.setCondition c) t = (answer, t')) :
    (RecordCall.write (.condition c)).onFile s t = (.written answer, t') := by
  change (RecordAnswer.written (s.update Tree.system (·.setCondition c) t).1,
    (s.update Tree.system (·.setCondition c) t).2) = _
  rw [h]

/-! ## The file and the memory -/

/-- **A file and a memory agree** on the record, which has been written since if `wrote` says so. -/
structure Agrees (s : StatusFile) (wrote : Prop) (t : Tree) (memory : MemoryStatus) : Prop where
  ready : s.IsReady t
  holds : s.Holds t memory.state
  written : wrote → s.IsWritten t memory.state
  reads : memory.readFailure = none
  writes : memory.writeFailure = none

variable {wrote : Prop} {memory : MemoryStatus}

/-- Both agree on a record that was written. -/
theorem Agrees.of_written (h : s.Agrees wrote t memory) {t' : Tree} (hready : s.IsReady t')
    (hwritten : s.IsWritten t' state) (writes : Nat) (wrote' : Prop) :
    s.Agrees wrote' t' { memory with state, writes } :=
  ⟨hready, .inr hwritten.read, fun _ => hwritten, h.reads, h.writes⟩

/-- **One call** is answered alike, without failure, and leaves both in agreement. -/
theorem Agrees.call (h : s.Agrees wrote t memory) (call : RecordCall) :
    (call.onFile s t).1 = (call.inMemory memory).1 ∧ (call.onFile s t).1.isOk = true ∧
      s.Agrees (wrote ∨ call.writes = true) (call.onFile s t).2 (call.inMemory memory).2 := by
  cases call with
  | read =>
    have hmemory : RecordCall.read.inMemory memory = (.record (.ok memory.state), memory) := by
      change (RecordAnswer.record memory.read, memory) = _
      rw [MemoryStatus.read, h.reads]
    rw [onFile_read h.holds, hmemory]
    refine ⟨rfl, rfl, h.ready, h.holds, fun hwrote => h.written ?_, h.reads, h.writes⟩
    exact hwrote.resolve_right Bool.false_ne_true
  | write e =>
    cases e with
    | condition c =>
      obtain ⟨t', hupdate, hready, hwritten⟩ := update_ready h.ready h.holds (·.setCondition c)
      have hmemory : (RecordCall.write (.condition c)).inMemory memory = (.written (.ok ()),
          { memory with state := memory.state.setCondition c, writes := memory.writes + 1 }) := by
        change (RecordAnswer.written (memory.upsert c).1, (memory.upsert c).2) = _
        rw [MemoryStatus.upsert, h.writes]
      rw [onFile_condition hupdate, hmemory]
      exact ⟨rfl, rfl, h.of_written hready hwritten _ _⟩
    | version component version =>
      obtain ⟨t', hupdate, hready, hwritten⟩ :=
        update_ready h.ready h.holds (·.setVersion component version)
      have hwrite : (RecordCall.write (.version component version)).onFile s t = (.done, t') := by
        rw [RecordCall.onFile, bind_apply, setVersion, bind_apply, hupdate]
        rfl
      have hmemory : (RecordCall.write (.version component version)).inMemory memory =
        (.done, memory.setVersion component version) := rfl
      rw [hwrite, hmemory]
      exact ⟨rfl, rfl, h.of_written hready hwritten _ _⟩

/-- **Any calls** are answered alike, through whatever store of the path each of them is made. -/
theorem Agrees.calls (h : s.Agrees wrote t memory) {calls : List (StatusFile × RecordCall)}
    (hcalls : ∀ c ∈ calls, c.1.path = s.path) :
    let onFile := RecordCall.allOnFile calls t
    let inMemory := RecordCall.allInMemory (calls.map (·.2)) memory
    onFile.1 = inMemory.1 ∧ (∀ a ∈ onFile.1, a.isOk = true) ∧
      s.Agrees (wrote ∨ ∃ c ∈ calls, c.2.writes = true) onFile.2 inMemory.2 := by
  induction calls generalizing wrote t memory with
  | nil =>
    exact ⟨rfl, nofun, h.ready, h.holds, fun hwrote => h.written (by simpa using hwrote), h.reads,
      h.writes⟩
  | cons c calls ih =>
    obtain ⟨file, call⟩ := c
    obtain rfl : file = s := congrArg StatusFile.mk (hcalls _ List.mem_cons_self)
    obtain ⟨hanswer, hok, hafter⟩ := h.call call
    obtain ⟨hanswers, hoks, hend⟩ := ih hafter fun c hc => hcalls c (List.mem_cons_of_mem _ hc)
    rw [RecordCall.allOnFile, RecordCall.allInMemory] at hanswers hend
    simp only [RecordCall.allOnFile, RecordCall.allInMemory, List.map_cons, mapM_cons_apply]
    refine ⟨by rw [hanswer, hanswers], ?_, ?_⟩
    · exact List.forall_mem_cons.mpr ⟨hok, hoks⟩
    · simpa [or_assoc] using hend

/-- **The record in a file is the record in memory**: read and written alike, both give the same
answers, none of which is a failure, and after a write the file holds the document of the record and
the temporary file is gone. Each call may be made through a store of its own on the path. -/
theorem refines_memory (h : s.IsReady t) (hstate : s.Holds t state)
    (calls : List (StatusFile × RecordCall)) (hcalls : ∀ c ∈ calls, c.1.path = s.path) :
    let onFile := RecordCall.allOnFile calls t
    let inMemory := RecordCall.allInMemory (calls.map (·.2)) (.ofState state)
    onFile.1 = inMemory.1 ∧ (∀ a ∈ onFile.1, a.isOk = true) ∧
      ((∃ c ∈ calls, c.2.writes = true) → s.IsWritten onFile.2 inMemory.2.state) := by
  have hagrees : s.Agrees False t (.ofState state) := ⟨h, hstate, False.elim, rfl, rfl⟩
  obtain ⟨hanswers, hoks, hend⟩ := hagrees.calls hcalls
  exact ⟨hanswers, hoks, fun hwrote => hend.written (.inr hwrote)⟩

/-- A legal path of one name. -/
theorem isLegal_of_name {name : String} (hname : IsName name)
    (hlength : name.utf8ByteSize ≤ Tree.maxNameBytes) (hrefusal : Tree.refusal? ⟨name⟩ = none) :
    Path.IsLegal ⟨name⟩ :=
  ⟨hrefusal, ⟨""⟩, name, (Path.join_empty hname.separator).symm, hname, hlength⟩

/-- A file in the directory where relative paths start. -/
def plain : StatusFile := ⟨⟨"status.json"⟩⟩

theorem plain_isReady : plain.IsReady .empty := by
  have htemporary : plain.temporary = ⟨"status.json.tmp"⟩ := by decide +kernel
  refine ⟨?_, ?_, by decide +kernel, by decide +kernel⟩
  · exact isLegal_of_name ⟨by decide +kernel, by decide, by decide, by decide⟩ (by decide)
      (by decide +kernel)
  · rw [htemporary]
    exact isLegal_of_name ⟨by decide +kernel, by decide, by decide, by decide⟩ (by decide)
      (by decide +kernel)

/-- A version is recorded in a file that is missing, and the record is read. -/
theorem refines_memory_plain :
    let calls := [(plain, .write (.version "openshift-apiserver" "4.2.0")), (plain, .read)]
    let onFile := RecordCall.allOnFile calls .empty
    let inMemory := RecordCall.allInMemory (calls.map (·.2)) (.ofState .initial)
    plain.IsReady .empty ∧ plain.Holds .empty .initial ∧ onFile.1 = inMemory.1 ∧
      plain.IsWritten onFile.2 inMemory.2.state := by
  have hholds : plain.Holds .empty .initial := .inl ⟨by decide +kernel, rfl⟩
  obtain ⟨hanswers, -, hwritten⟩ := refines_memory plain_isReady hholds
    [(plain, .write (.version "openshift-apiserver" "4.2.0")), (plain, .read)] (by simp)
  exact ⟨plain_isReady, hholds, hanswers, hwritten ⟨_, List.mem_cons_self, rfl⟩⟩

/-! ## A name without room -/

/-- A single name is a file in the directory where relative paths start, which is not made. -/
theorem makeParent_of_name {name : String} (hname : IsName name) (t : Tree) :
    makeParent Tree.system ⟨⟨name⟩⟩ t = (.ok (), t) := by
  have hsegments := Path.segments_of_not_mem hname.separator
  have hreversed : Path.reversed ⟨name⟩ = [name] :=
    @Path.reversed_of_segments ⟨name⟩ name [] hsegments hname.isVoid
  have hparent : Path.parent? ⟨name⟩ = some ⟨""⟩ := by
    rw [Path.parent?, hreversed]
    simp [Path.not_isAbsolute_of_not_mem hname.separator, hsegments, hname.dot]
  rw [makeParent, hparent]
  exact Tree.makeDirs_of_leads (.inl rfl)

/-- A name without a dot gets an extension for the temporary file. -/
theorem temporary_of_name {name : String} (hname : IsName name) (hdot : '.' ∉ name.toList) :
    temporary ⟨⟨name⟩⟩ = Path.join ⟨""⟩ (name ++ "." ++ "json.tmp") := by
  have hnone : Path.splitName name = (name, none) := by
    refine (Path.splitName_cases name).resolve_right ?_
    rintro ⟨base, ext, -, -, rfl⟩
    exact hdot (by simp)
  rw [temporary, ← Path.join_empty hname.separator,
    Path.withExtension_join_of_none _ hname hnone (by decide)]

/-- **A name that leaves no room for the temporary file's** is too long to write a record to. -/
theorem update_without_room {name : String} (hname : IsName name) (hdot : '.' ∉ name.toList)
    (hnul : '\x00' ∉ name.toList)
    (hroom : Tree.maxNameBytes < (name ++ "." ++ "json.tmp").utf8ByteSize)
    (hlength : (name ++ "." ++ "json.tmp").utf8ByteSize < Tree.maxPathBytes)
    (hstate : Holds ⟨⟨name⟩⟩ t state) (change : OperatorState → OperatorState) :
    update Tree.system ⟨⟨name⟩⟩ change t = (.error (.io name FileError.nameTooLong.message), t) := by
  have hsep : '/' ∉ (name ++ "." ++ "json.tmp").toList :=
    Path.not_mem_append hname.separator (by decide)
  have hlegal : Tree.refusal? (Path.join ⟨""⟩ (name ++ "." ++ "json.tmp")) = none := by
    rw [Path.join_empty hsep]
    refine Tree.refusal?_eq_none ?_ (by simp) hlength
    simp only [String.toList_append, List.mem_append, not_or]
    exact ⟨⟨hnul, by decide⟩, by decide⟩
  have hreaches : t.Reaches ⟨""⟩ := Tree.Leads.reaches (.inl rfl)
  refine update_of_write_error (load_of_holds hstate) (makeParent_of_name hname t)
    (fun content => ?_) change
  rw [temporary_of_name hname hdot, Tree.write, Tree.writable,
    hreaches.locate_nameTooLong hsep hroom hlegal]
  rfl

theorem lookup_empty_join (dir : Path) {name : String} (hname : IsName name) :
    Tree.empty.lookup ((dir.join name).place []) = none := by
  rw [Path.place_join_name _ _ hname]
  simp [Tree.lookup, Tree.empty]

/-- **A legal path need not leave room for the temporary file.** Nothing is in the way of such a
file, but no condition can be written to it, and what is read afterwards is the record before. -/
theorem calls_without_room {name : String} (hname : IsName name) (hdot : '.' ∉ name.toList)
    (hnul : '\x00' ∉ name.toList) (hfits : name.utf8ByteSize ≤ Tree.maxNameBytes)
    (hroom : Tree.maxNameBytes < (name ++ "." ++ "json.tmp").utf8ByteSize)
    (hlength : (name ++ "." ++ "json.tmp").utf8ByteSize < Tree.maxPathBytes)
    (c : OperatorCondition) :
    let s : StatusFile := ⟨⟨name⟩⟩
    let calls := [(s, .write (.condition c)), (s, .read)]
    let onFile := RecordCall.allOnFile calls .empty
    let inMemory := RecordCall.allInMemory (calls.map (·.2)) (.ofState .initial)
    s.path.IsLegal ∧ s.makeParent Tree.system .empty = (.ok (), .empty) ∧
      (∀ q ∈ s.places [], Tree.empty.lookup q ≠ some .directory) ∧ s.Holds .empty .initial ∧
      onFile.1.map (·.isOk) = [false, true] ∧ onFile.1 ≠ inMemory.1 := by
  intro s calls onFile inMemory
  have hshort : name.utf8ByteSize < Tree.maxPathBytes := Nat.lt_of_le_of_lt hfits (by decide)
  have hlegal : s.path.IsLegal :=
    isLegal_of_name hname hfits (Tree.refusal?_eq_none hnul hname.empty hshort)
  have hname' : IsName (name ++ "." ++ "json.tmp") :=
    .of_long (Path.not_mem_append hname.separator (by decide)) (Nat.lt_trans (by decide) hroom)
  have hpath : Path.join ⟨""⟩ name = s.path := Path.join_empty hname.separator
  have hmissing : Tree.empty.lookup (s.path.place []) = none := by
    rw [← hpath]
    exact lookup_empty_join ⟨""⟩ hname
  have hmissing' : Tree.empty.lookup (s.temporary.place []) = none := by
    rw [temporary_of_name hname hdot]
    exact lookup_empty_join ⟨""⟩ hname'
  have hholds : s.Holds .empty .initial := by
    have hreaches : Tree.empty.Reaches ⟨""⟩ := Tree.Leads.reaches (.inl rfl)
    have hlocate := hreaches.locate_legal (hpath.symm ▸ hlegal) hname.separator
    rw [hpath] at hlocate
    exact .inl ⟨Tree.read_eq_notFound hlocate hmissing, rfl⟩
  have hupdate := update_without_room hname hdot hnul hroom hlength hholds (·.setCondition c)
  have hanswers : onFile.1 = [.written (.error (.io name FileError.nameTooLong.message)),
      .record (.ok .initial)] := by
    simp only [onFile, calls, RecordCall.allOnFile, mapM_cons_apply, mapM_nil_apply]
    rw [onFile_condition hupdate, onFile_read hholds]
  refine ⟨hlegal, makeParent_of_name hname .empty, ?_, hholds, ?_, ?_⟩
  · refine List.forall_mem_cons.mpr ⟨?_, List.forall_mem_singleton.mpr ?_⟩
    · simp [hmissing]
    · simp [hmissing']
  · rw [hanswers]
    rfl
  · rw [hanswers]
    nofun

/-- A name of so many letters. -/
def letters (n : Nat) : String := .ofList (List.replicate n 'a')

theorem not_mem_letters {c : Char} (h : c ≠ 'a') (n : Nat) : c ∉ (letters n).toList := by
  simp [letters, h]

/-- **A legal path that leaves no room**: a name of 250 letters. -/
theorem refines_memory_without_room :
    let s : StatusFile := ⟨⟨letters 250⟩⟩
    let degraded : OperatorCondition :=
      ⟨"Degraded", .true, none, none, ⟨19723, 0, 0, by decide, by decide, by decide⟩⟩
    let calls := [(s, .write (.condition degraded)), (s, .read)]
    let onFile := RecordCall.allOnFile calls .empty
    let inMemory := RecordCall.allInMemory (calls.map (·.2)) (.ofState .initial)
    s.path.IsLegal ∧ s.makeParent Tree.system .empty = (.ok (), .empty) ∧
      (∀ q ∈ s.places [], Tree.empty.lookup q ≠ some .directory) ∧ s.Holds .empty .initial ∧
      onFile.1.map (·.isOk) = [false, true] ∧ onFile.1 ≠ inMemory.1 := by
  have hfits : (letters 250).utf8ByteSize ≤ Tree.maxNameBytes := by decide +kernel
  have hlong : 2 < (letters 250).utf8ByteSize := by decide +kernel
  have hroom : Tree.maxNameBytes < (letters 250 ++ "." ++ "json.tmp").utf8ByteSize := by
    decide +kernel
  have hlength : (letters 250 ++ "." ++ "json.tmp").utf8ByteSize < Tree.maxPathBytes := by
    decide +kernel
  have hname : IsName (letters 250) := .of_long (not_mem_letters (by decide) 250) hlong
  exact calls_without_room hname (not_mem_letters (by decide) 250)
    (not_mem_letters (by decide) 250) hfits hroom hlength _

end StatusFile

end ApiAvailability
