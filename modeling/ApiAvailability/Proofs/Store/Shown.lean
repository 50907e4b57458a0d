import ApiAvailability.Proofs.Store.StatusFile

/-!
# Proofs/Store/Shown — the record that is stored is the record that is read

What a status file holds is told by its place (`StatusFile.stored?`), what is read of it by the way
to that place.  The two are the same if the file is not there when it is not found
(`StatusFile.IsShown`), and then a record is also read as before when only directories were made
since (`StatusFile.IsShown.load_eq`): they could have opened a way to a file that was there all
along.
-/

namespace ApiAvailability.StatusFile

open Files

variable {s : StatusFile} {t t' : Tree} {state : OperatorState}

/-- **The record that is stored** at the place of the file, if it is one: the initial record where
there is nothing. -/
def stored? (s : StatusFile) (t : Tree) : Option OperatorState :=
  match t.lookup (s.path.place t.home) with
  | none => some .initial
  | some .directory => none
  | some (.file content) => (Json.Value.ofBytes? content).bind OperatorState.ofJson?

/-- **The file shows what it holds**: where it is not found, there is nothing. -/
def IsShown (s : StatusFile) (t : Tree) : Prop :=
  t.read s.path = .error .notFound → t.lookup (s.path.place t.home) = none

/-- A record that could be read was not found, or is what the content of the file says. -/
theorem read_of_load (h : (s.load Tree.system t).1 = .ok state) :
    (t.read s.path = .error .notFound ∧ state = .initial) ∨ ∃ content,
      t.read s.path = .ok content ∧
        (Json.Value.ofBytes? content).bind OperatorState.ofJson? = some state := by
  have hread : Tree.system.read s.path t = (t.read s.path, t) := rfl
  rw [load, bind_apply, hread] at h
  cases hfound : t.read s.path with
  | error e =>
    rw [hfound] at h
    cases e with
    | notFound =>
      obtain rfl : .initial = state := Except.ok.inj h
      exact .inl ⟨rfl, rfl⟩
    | _ => cases h
  | ok content =>
    rw [hfound] at h
    refine .inr ⟨content, rfl, ?_⟩
    cases hcontent : (Json.Value.ofBytes? content).bind OperatorState.ofJson? with
    | none =>
      simp only [hcontent] at h
      cases h
    | some found =>
      simp only [hcontent] at h
      obtain rfl : found = state := Except.ok.inj h
      rfl

/-- Files that are read alike hold the same record. -/
theorem load_congr (h : t'.read s.path = t.read s.path) :
    (s.load Tree.system t').1 = (s.load Tree.system t).1 := by
  have hread (t : Tree) : Tree.system.read s.path t = (t.read s.path, t) := rfl
  rw [load, bind_apply, bind_apply, hread, hread, h]
  rcases t.read s.path with e | content
  · cases e <;> rfl
  · dsimp only
    cases (Json.Value.ofBytes? content).bind OperatorState.ofJson? <;> rfl

theorem stored?_of_read {content : ByteArray} (h : t.read s.path = .ok content) :
    s.stored? t = (Json.Value.ofBytes? content).bind OperatorState.ofJson? := by
  rw [stored?, (Tree.read_eq_ok h).2]

/-- **The record of a document is stored.** -/
theorem stored?_of_document (h : t.read s.path = .ok (document state).toUTF8) :
    s.stored? t = some state := by
  rw [stored?_of_read h, document, state.denotes.of_bytes]

namespace IsShown

variable (h : s.IsShown t)

include h

/-- **The record that is read is stored.** -/
theorem stored?_of_load (hload : (s.load Tree.system t).1 = .ok state) :
    s.stored? t = some state := by
  rcases read_of_load hload with ⟨hread, rfl⟩ | ⟨content, hread, hcontent⟩
  · rw [stored?, h hread]
  · rw [stored?_of_read hread, hcontent]

/-- **A record is read as before** if the file holds what it held, however many directories there
are now. -/
theorem load_eq (hpaves : t.Paves t')
    (hfile : ∀ content, t'.lookup (s.path.place t.home) = some (.file content) ↔
      t.lookup (s.path.place t.home) = some (.file content))
    (hload : (s.load Tree.system t).1 = .ok state) {state' : OperatorState}
    (hload' : (s.load Tree.system t').1 = .ok state') : state' = state := by
  have hread {content : ByteArray} (hread : t.read s.path = .ok content) :
      t'.read s.path = .ok content :=
    hpaves.read hread ((hfile content).mpr (Tree.read_eq_ok hread).2)
  rcases read_of_load hload with ⟨hmissing, rfl⟩ | ⟨content, hfound, hstate⟩
  · rcases read_of_load hload' with ⟨-, rfl⟩ | ⟨content', hfound', -⟩
    · rfl
    · -- what is found now was there before
      have hthere := (Tree.read_eq_ok hfound').2
      rw [hpaves.home, hfile, h hmissing] at hthere
      contradiction
  · rcases read_of_load hload' with ⟨hmissing', -⟩ | ⟨content', hfound', hstate'⟩
    · rw [hread hfound] at hmissing'
      contradiction
    · obtain rfl : content = content' := Except.ok.inj ((hread hfound).symm.trans hfound')
      exact Option.some.inj (hstate'.symm.trans hstate)

end IsShown

end ApiAvailability.StatusFile
