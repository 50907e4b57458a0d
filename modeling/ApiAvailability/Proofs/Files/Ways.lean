import ApiAvailability.Proofs.Files.Frame

/-!
# Proofs/Files/Ways — where a path leads, it leads as long as directories stay

No file operation that a store uses takes a directory away (`keeping_paves`).  So what a path led to
before, it leads to after (`Paves.locate`), and a file that is not written to is read as before
(`Paves.read`).
-/

namespace ApiAvailability.Files.Tree

/-- **Ways stay**: relative paths start from where they started, and directories are there that were
there. -/
structure Paves (t t' : Tree) : Prop where
  home : t'.home = t.home
  directory : ∀ q, t.lookup q = some .directory → t'.lookup q = some .directory

instance : IsPreorder Tree Paves where
  refl _ := ⟨rfl, fun _ h => h⟩
  trans _ _ _ h h' := ⟨h'.home.trans h.home, fun q hq => h'.directory q (h.directory q hq)⟩

variable {t t' : Tree} {p : Path} {q : Place}

/-! ## Paths -/

namespace Paves

variable (h : Paves t t')

include h

/-- A name leads where it led. -/
theorem enter {at_ : Place} {name : String} (he : t.enter at_ name = .ok q) :
    t'.enter at_ name = .ok q := by
  rw [Tree.enter] at he ⊢
  split
  · rwa [if_pos ‹_›] at he
  rw [if_neg ‹_›] at he
  split
  · rwa [if_pos ‹_›] at he
  rw [if_neg ‹_›] at he
  split
  · rwa [if_pos ‹_›] at he
  rw [if_neg ‹_›] at he
  split at he
  · contradiction
  · contradiction
  · rw [h.directory _ ‹_›]
    exact he

/-- Names lead where they led. -/
theorem foldlM_enter {names : List String} {at_ : Place}
    (he : names.foldlM t.enter at_ = .ok q) : names.foldlM t'.enter at_ = .ok q := by
  induction names generalizing at_ with
  | nil => exact he
  | cons name names ih =>
    rw [List.foldlM_cons] at he ⊢
    cases hn : t.enter at_ name with
    | error e => rw [hn] at he; contradiction
    | ok next =>
      rw [hn] at he
      rw [h.enter hn]
      exact ih he

/-- **A path leads where it led.** -/
theorem locate {target : Target} (hl : t.locate p = .ok target) : t'.locate p = .ok target := by
  have hstart : t'.start p = t.start p := by
    rw [start, start, h.home]
  rw [Tree.locate] at hl ⊢
  split
  · rename_i e he
    rwa [he] at hl
  rename_i hnone
  rw [hnone] at hl
  dsimp only at hl
  rw [hstart]
  cases hdir : (names p).dropLast.foldlM t.enter (t.start p) with
  | error e => rw [hdir] at hl; contradiction
  | ok dir =>
    rw [h.foldlM_enter hdir]
    rw [hdir] at hl
    simp only [bind, Except.bind] at hl ⊢
    split
    · rename_i hlast
      rwa [hlast] at hl
    rename_i name hlast
    rw [hlast] at hl
    dsimp only at hl
    split
    · rw [if_pos ‹_›] at hl
      cases he : t.enter dir name with
      | error e => rw [he] at hl; contradiction
      | ok place =>
        rw [he] at hl
        rw [h.enter he]
        exact hl
    · rwa [if_neg ‹_›] at hl

end Paves

/-- A file that is read is found at the place that its path names. -/
theorem read_eq_ok {content : ByteArray} (hread : t.read p = .ok content) :
    t.locate p = .ok (.entry (p.place t.home) false) ∧
      t.lookup (p.place t.home) = some (.file content) := by
  rw [read] at hread
  cases hl : t.locate p with
  | error e => rw [hl] at hread; contradiction
  | ok target =>
    rw [hl] at hread
    simp only [bind, Except.bind] at hread
    split at hread
    · contradiction
    rename_i place asDirectory
    obtain ⟨rfl, -⟩ := locate_entry hl
    split at hread
    · contradiction
    · contradiction
    rename_i found hfound
    split at hread
    · contradiction
    rename_i hentry
    obtain rfl := Except.ok.inj hread
    simp only [Bool.not_eq_true] at hentry
    exact ⟨by rw [hentry], hfound⟩

/-- **A file that stays is read as before.** -/
theorem Paves.read (h : Paves t t') {content : ByteArray} (hread : t.read p = .ok content)
    (hstays : t'.lookup (p.place t.home) = some (.file content)) : t'.read p = .ok content := by
  rw [Tree.read, h.locate (read_eq_ok hread).1]
  simp only [bind, Except.bind, hstays]
  rfl

/-! ## Operations -/

/-- What is put where there is no directory leaves all directories. -/
theorem paves_put {n : Node} (hq : t.lookup q ≠ some .directory) : Paves t (t.put q n) := by
  refine ⟨rfl, fun q' hq' => ?_⟩
  rw [lookup_put_of_ne]
  · exact hq'
  · rintro rfl
    exact hq hq'

/-- Ways stay when something is taken away that is no directory. -/
theorem paves_drop (hq : t.lookup q ≠ some .directory) : Paves t (t.drop q) := by
  refine ⟨rfl, fun q' hq' => ?_⟩
  rw [lookup_drop_of_ne]
  · exact hq'
  · rintro rfl
    exact hq hq'

/-- What is there without something was there with it. -/
theorem lookup_of_lookup_drop {q' : Place} {n : Node} (h : (t.drop q).lookup q' = some n) :
    t.lookup q' = some n := by
  rw [lookup] at h ⊢
  split at h
  · rwa [if_pos ‹_›]
  · rw [if_neg ‹_›]
    rw [drop, Std.ExtTreeMap.getElem?_erase] at h
    split at h
    · contradiction
    · exact h

theorem makeDir_paves (p : Path) : Keeps Paves (system.makeDir p) := by
  intro t
  rw [system]
  cases h : t.makeDir p with
  | error e =>
    simp only [h]
    exact refl t
  | ok t' =>
    obtain ⟨q, _, -, hnone, rfl⟩ := makeDir_eq_ok h
    simp only [h]
    exact paves_put (by simp [hnone])

theorem createNew_paves (p : Path) (content : ByteArray) :
    Keeps Paves (system.createNew p content) := by
  intro t
  change Paves t (t.createNew p content).1
  rw [createNew]
  split
  · exact refl t
  · exact refl t
  split
  · exact refl t
  split
  · exact refl t
  rename_i hsome
  refine paves_put fun hdirectory => ?_
  rw [hdirectory] at hsome
  exact hsome rfl

theorem write_paves (p : Path) (content : ByteArray) : Keeps Paves (system.write p content) := by
  intro t
  change Paves t (t.write p content).1
  rw [write]
  cases hwritable : t.writable p with
  | error e => exact refl t
  | ok found => exact paves_put (writable_eq_ok hwritable).2

theorem rename_paves (p p' : Path) : Keeps Paves (system.rename p p') := by
  intro t
  change Paves t (t.rename p p').1
  rw [rename]
  split
  · exact refl t
  · exact refl t
  · exact refl t
  · rename_i content source _ dest _ hread hsource _
    split
    · exact refl t
    rename_i hdest
    split
    · exact refl t
    -- what is renamed could be read, so it is a file
    obtain ⟨hentry, hfile⟩ := read_eq_ok hread
    obtain ⟨rfl, -⟩ := Target.entry.inj (Except.ok.inj (hsource.symm.trans hentry))
    have hdropped : Paves t (t.drop (p.place t.home)) := paves_drop (by simp [hfile])
    exact IsTrans.trans _ _ _ hdropped (paves_put fun h => hdest (lookup_of_lookup_drop h))
  · exact refl t

/-- **File operations leave ways as they are.** -/
theorem keeping_paves (home : Place) (own : List Place) (may : Place → Node → Prop) :
    system.Keeping home own may Paves where
  read _ := .of_snd_eq fun _ => rfl
  isDirectory _ := .of_snd_eq fun _ => rfl
  makeDir := makeDir_paves
  createNew p content _ := createNew_paves p content
  write p content _ := write_paves p content
  rename p p' _ _ := rename_paves p p'

end ApiAvailability.Files.Tree
