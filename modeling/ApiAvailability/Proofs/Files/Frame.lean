import ApiAvailability.Proofs.Files.Place
import ApiAvailability.Proofs.Pass.Growth
import ApiAvailability.Store.Directory
import ApiAvailability.Store.StatusFile

/-!
# Proofs/Files/Frame — what file operations leave alone

A registry of files and a record in a file write at few places.  Outside of the places `own`, which
are the record's, a tree only grows: by directories, and by the new files of a registry
(`Tree.Extends`).

The first part says so of each operation on a tree, the second of what the stores make of them.
-/

namespace ApiAvailability

namespace Files.Tree

/-- What there is outside of some places. -/
def outside (t : Tree) (own : List Place) (q : Place) : Option Node :=
  if q ∈ own then none else t.lookup q

theorem outside_eq_some_iff {t : Tree} {own : List Place} {q : Place} {n : Node} :
    t.outside own q = some n ↔ q ∉ own ∧ t.lookup q = some n := by
  rw [outside]
  split
  · simp [*]
  · simp [*]

theorem outside_nil (t : Tree) : t.outside [] = t.lookup := by
  funext q
  rw [outside, if_neg List.not_mem_nil]

/-- **A tree extends another**: outside of the places `own` it has all that the other has, and what
is new is as `may` tells.  Relative paths start from `home`. -/
abbrev Extends (home : Place) (own : List Place) (may : Place → Node → Prop) : Tree → Tree → Prop :=
  Growing (fun t => t.home = home) (fun t => t.outside own) may

variable {t : Tree} {home : Place} {own : List Place} {may : Place → Node → Prop} {q : Place}

/-- A file holds what it held, where no such file is new. -/
theorem lookup_file_iff_of_grows {t' : Tree} (h : Grows may (t.outside own) (t'.outside own))
    (hq : q ∉ own) {content : ByteArray} (hnew : ¬ may q (.file content)) :
    t'.lookup q = some (.file content) ↔ t.lookup q = some (.file content) := by
  constructor
  · intro hafter
    rcases h.added _ _ (outside_eq_some_iff.mpr ⟨hq, hafter⟩) with hbefore | ⟨-, hmay⟩
    · exact (outside_eq_some_iff.mp hbefore).2
    · exact absurd hmay hnew
  · intro hbefore
    exact (outside_eq_some_iff.mp (h.kept _ _ (outside_eq_some_iff.mpr ⟨hq, hbefore⟩))).2

/-! ## Operations on a tree -/

/-- A node that is put at one of the places is not seen outside. -/
theorem outside_put_of_mem (n : Node) (h : q ∈ own) : (t.put q n).outside own = t.outside own := by
  funext q'
  unfold outside
  split
  · rfl
  · exact lookup_put_of_ne fun he => ‹q' ∉ own› (he ▸ h)

/-- What is taken away at one of the places is not missed outside. -/
theorem outside_drop_of_mem (h : q ∈ own) : (t.drop q).outside own = t.outside own := by
  funext q'
  unfold outside
  split
  · rfl
  · exact lookup_drop_of_ne fun he => ‹q' ∉ own› (he ▸ h)

/-- Putting a node where there is nothing extends a tree. -/
theorem extends_put {n : Node} (hnone : t.lookup q = none) (hmay : may q n) :
    Extends home own may t (t.put q n) := by
  have hq : q ≠ [] := by
    rintro rfl
    simp [lookup] at hnone
  refine fun hhome => ⟨hhome, ?_⟩
  change Grows may (t.outside own) ((t.put q n).outside own)
  by_cases hown : q ∈ own
  · rw [outside_put_of_mem n hown]
    exact .refl may _
  · refine .of_one (k := q) (a := n) ?_ ?_ hmay ?_
    · rw [outside, if_neg hown, hnone]
    · rw [outside, if_neg hown, lookup_put_self hq]
    · intro q' hq'
      rw [outside, outside, lookup_put_of_ne hq'.symm]

theorem extends_put_of_mem (n : Node) (h : q ∈ own) : Extends home own may t (t.put q n) :=
  .of_eq id (outside_put_of_mem n h)

theorem extends_drop_of_mem (h : q ∈ own) : Extends home own may t (t.drop q) :=
  .of_eq id (outside_drop_of_mem h)

theorem read_keeps (p : Path) : Keeps (Extends home own may) (system.read p) :=
  .of_snd_eq fun _ => rfl

theorem isDirectory_keeps (p : Path) : Keeps (Extends home own may) (system.isDirectory p) :=
  .of_snd_eq fun _ => rfl

/-- Making a directory extends a tree by it at most. -/
theorem makeDir_keeps {p : Path} (hmay : may (p.place home) .directory) :
    Keeps (Extends home own may) (system.makeDir p) := by
  intro t
  rw [system]
  cases h : t.makeDir p with
  | error e =>
    simp only [h]
    exact refl t
  | ok t' =>
    obtain ⟨q, _, hlocate, hnone, rfl⟩ := makeDir_eq_ok h
    obtain ⟨rfl, -⟩ := locate_entry hlocate
    simp only [h]
    refine .of_inv fun hhome => ?_
    rw [hhome] at hnone ⊢
    exact extends_put hnone hmay

/-- Making a new file extends a tree by it at most. -/
theorem createNew_keeps {p : Path} {content : ByteArray}
    (hmay : may (p.place home) (.file content)) :
    Keeps (Extends home own may) (system.createNew p content) := by
  intro t
  change Extends home own may t (t.createNew p content).1
  rw [createNew]
  split
  · exact refl t
  · exact refl t
  rename_i q asDirectory hlocate
  split
  · exact refl t
  split
  · exact refl t
  rename_i hsome
  obtain ⟨rfl, -⟩ := locate_entry hlocate
  refine .of_inv fun hhome => ?_
  rw [hhome] at hsome ⊢
  exact extends_put (by simpa using hsome) hmay

/-- Writing a file at one of the places extends a tree by nothing. -/
theorem write_keeps {p : Path} (hown : p.place home ∈ own) (content : ByteArray) :
    Keeps (Extends home own may) (system.write p content) := by
  intro t
  change Extends home own may t (t.write p content).1
  rw [write]
  cases hwritable : t.writable p with
  | error e => exact refl t
  | ok found =>
    refine .of_inv fun hhome => extends_put_of_mem _ ?_
    rwa [(locate_entry (writable_eq_ok hwritable).1).1, hhome]

/-- Moving a file between the places extends a tree by nothing. -/
theorem rename_keeps {p p' : Path} (hown : p.place home ∈ own) (hown' : p'.place home ∈ own) :
    Keeps (Extends home own may) (system.rename p p') := by
  intro t
  change Extends home own may t (t.rename p p').1
  rw [rename]
  split
  · exact refl t
  · exact refl t
  · exact refl t
  · rename_i content source _ dest _ _ hsource hdest
    split
    · exact refl t
    split
    · exact refl t
    refine .of_inv fun hhome => ?_
    have hs : source ∈ own := by rwa [(locate_entry hsource).1, hhome]
    have hd : dest ∈ own := by rwa [(locate_entry hdest).1, hhome]
    exact IsTrans.trans _ _ _ (extends_drop_of_mem hs) (extends_put_of_mem _ hd)
  · exact refl t

/-- A file that cannot be moved stays, and so does all else. -/
theorem rename_of_error {p p' : Path} {e : FileError} (h : (t.rename p p').2 = .error e) :
    (t.rename p p').1 = t := by
  revert h
  rw [rename]
  split
  · exact fun _ => rfl
  · exact fun _ => rfl
  · exact fun _ => rfl
  · split
    · exact fun _ => rfl
    split
    · exact fun _ => rfl
    · intro h
      contradiction
  · exact fun _ => rfl

/-- A move in vain changes nothing. -/
theorem rename_spares {R : Tree → Tree → Prop} [Std.Refl R] (p p' : Path) :
    Spares R (system.rename p p') := by
  intro e t t' h
  obtain rfl : (t.rename p p').1 = t' := congrArg Prod.snd h
  rw [rename_of_error (congrArg Prod.fst h)]
  exact refl t

end Files.Tree

/-! ## Places of the stores -/

open Files

/-- The places at which a record's file is written. -/
def StatusFile.places (s : StatusFile) (home : Place) : List Place :=
  [s.path.place home, s.temporary.place home]

/-- Whether what is at a place is a directory or the new file of one of some desired services. -/
def Directory.IsNewIn (objects : Directory) (home : Place) (ds : List Desired) (q : Place)
    (n : Node) : Prop :=
  n = .directory ∨ ∃ d ∈ ds, q = objects.path.place home ++ [Directory.fileName d.name] ∧
    n = .file (Directory.document d.toObject).toUTF8

/-- The file of an object that may be there has a name. -/
theorem Directory.isName_fileName {name : String} (h : Directory.accepts name = true) :
    IsName (Directory.fileName name) := by
  have hsep : '/' ∉ name.toList := by
    rw [Directory.accepts] at h
    cases hn : name.toList with
    | nil => exact List.not_mem_nil
    | cons c cs =>
      rw [hn] at h
      intro hmem
      simp [hmem] at h
  refine .of_long ?_ ?_
  · rw [Directory.fileName, String.toList_append, List.mem_append, not_or]
    exact ⟨hsep, by decide⟩
  · rw [Directory.fileName, String.utf8ByteSize_append]
    have hext : ".json".utf8ByteSize = 5 := rfl
    omega

/-- The file of an object has the place of its name in the directory. -/
theorem Directory.place_of_pathOf {objects : Directory} {name : String} {path : Path}
    (h : objects.pathOf name = .ok path) (home : Place) :
    path.place home = objects.path.place home ++ [fileName name] := by
  rw [pathOf] at h
  split at h
  · obtain rfl := Except.ok.inj h
    exact Path.place_join_name home objects.path (isName_fileName ‹_›)
  · contradiction

/-! ## Stores on files -/

variable {σ : Type} {R : σ → σ → Prop} [IsPreorder σ R] {fs : FileSystem (StateM σ)} {home : Place}
  {own : List Place} {may : Place → Node → Prop}

/-- Reading the record keeps what is kept by reading files. -/
theorem StatusFile.load_keeps_of_read (s : StatusFile) (hread : ∀ p, Keeps R (fs.read p)) :
    Keeps R (s.load fs) := by
  refine (hread _).bind fun answer => ?_
  split
  · exact .pure _
  · exact .pure _
  · split <;> exact .pure _

namespace Files.FileSystem

/-- Making a directory that may be there keeps what making and looking for it keep. -/
theorem ensureDir_keeps {p : Path} (hmake : Keeps R (fs.makeDir p))
    (hcheck : Keeps R (fs.isDirectory p)) : Keeps R (fs.ensureDir p) := by
  refine hmake.bind fun made => ?_
  rcases made with e | u
  · exact hcheck.bind fun _ => .pure _
  · exact .pure _

/-- **Making directories** keeps what is kept by making and looking for each. -/
theorem makeDirsIn_keeps {ps : List Path} (hmake : ∀ p ∈ ps, Keeps R (fs.makeDir p))
    (hcheck : ∀ p ∈ ps, Keeps R (fs.isDirectory p)) : Keeps R (fs.makeDirsIn ps) := by
  induction ps with
  | nil => exact .pure _
  | cons p above ih =>
    have hensure : Keeps R (fs.ensureDir p) :=
      ensureDir_keeps (hmake p List.mem_cons_self) (hcheck p List.mem_cons_self)
    rw [FileSystem.makeDirsIn]
    split
    · exact .pure _
    refine hensure.bind fun made => ?_
    split
    · refine (ih (fun q hq => hmake q (List.mem_cons_of_mem p hq))
        fun q hq => hcheck q (List.mem_cons_of_mem p hq)).bind fun made => ?_
      rcases made with e | u
      · exact .pure _
      · exact hensure
    · exact .pure _

end Files.FileSystem

namespace Directory

variable {objects : Directory}

/-- Getting an object keeps what is kept by reading its file. -/
theorem get_keeps_of_read {name : String}
    (hread : ∀ path, objects.pathOf name = .ok path → Keeps R (fs.read path)) :
    Keeps R (objects.get fs name) := by
  rw [get]
  split
  · exact .pure _
  rename_i path hpath
  refine (hread path hpath).bind fun answer => ?_
  split
  · exact .pure _
  · exact .pure _
  · split <;> exact .pure _

/-- Creating an object keeps what is kept by making the directory and the file of the object. -/
theorem create_keeps_of_createNew {o : ApiService} (hdirs : Keeps R (fs.makeDirs objects.path))
    (hnew : ∀ path, objects.pathOf o.name = .ok path →
      Keeps R (fs.createNew path (document o).toUTF8)) : Keeps R (objects.create fs o) := by
  rw [create]
  split
  · exact .pure _
  rename_i path hpath
  refine hdirs.bind fun made => ?_
  split
  · exact .pure _
  · refine (hnew path hpath).bind fun created => ?_
    split <;> exact .pure _

/-- Creating an object in vain spares what is kept by making the directory, if it is spared by making
files in vain. -/
theorem create_spares {o : ApiService} (hdirs : Keeps R (fs.makeDirs objects.path))
    (hnew : ∀ path content, Spares R (fs.createNew path content)) :
    Spares R (objects.create fs o) := by
  rw [create]
  split
  · exact .of_keeps (.pure _)
  rename_i path hpath
  refine .bind hdirs fun made => ?_
  rcases made with e | u
  · exact .of_keeps (.pure _)
  · refine (hnew path _).then_done (fun cause _ => ?_) fun _ _ _ _ hdone => by cases hdone
    cases cause <;> rfl

end Directory

/-- **Changing the record in vain** spares what is kept by making its directory and by writing the
temporary file, if it is spared by moving files in vain. -/
theorem StatusFile.update_spares_of_makeParent {s : StatusFile} (hread : ∀ p, Keeps R (fs.read p))
    (hmake : Keeps R (s.makeParent fs)) (hwrite : ∀ content, Keeps R (fs.write s.temporary content))
    (hrename : ∀ p p', Spares R (fs.rename p p')) (change : OperatorState → OperatorState) :
    Spares R (s.update fs change) := by
  have hsave (state : OperatorState) : Spares R (s.save fs state) := by
    refine .bind hmake fun made => ?_
    rcases made with e | u
    · exact .of_keeps (.pure _)
    refine .bind (hwrite _) fun written => ?_
    rcases written with e | u
    · exact .of_keeps (.pure _)
    · exact (hrename _ _).then_done (fun _ _ => rfl) fun _ _ _ _ hdone => by cases hdone
  refine .bind (s.load_keeps_of_read hread) fun loaded => ?_
  rcases loaded with e | state
  · exact .of_keeps (.pure _)
  · exact hsave _

/-- **A file system keeps a relation** where stores use it: with every file that may be new, and
with every file at one of the places `own`. -/
structure Files.FileSystem.Keeping (home : Place) (own : List Place) (may : Place → Node → Prop)
    (R : σ → σ → Prop) (fs : FileSystem (StateM σ)) : Prop where
  read : ∀ p, Keeps R (fs.read p)
  isDirectory : ∀ p, Keeps R (fs.isDirectory p)
  makeDir : ∀ p, Keeps R (fs.makeDir p)
  createNew : ∀ p content, may (p.place home) (.file content) → Keeps R (fs.createNew p content)
  write : ∀ p content, p.place home ∈ own → Keeps R (fs.write p content)
  rename : ∀ p p', p.place home ∈ own → p'.place home ∈ own → Keeps R (fs.rename p p')

omit [IsPreorder σ R] in
/-- What a relation says, a weaker one says. -/
theorem Files.FileSystem.Keeping.mono {R' : σ → σ → Prop} (hR : ∀ s s', R s s' → R' s s')
    (h : fs.Keeping home own may R) : fs.Keeping home own may R' where
  read p s := hR _ _ (h.read p s)
  isDirectory p s := hR _ _ (h.isDirectory p s)
  makeDir p s := hR _ _ (h.makeDir p s)
  createNew p content hmay s := hR _ _ (h.createNew p content hmay s)
  write p content hown s := hR _ _ (h.write p content hown s)
  rename p p' hown hown' s := hR _ _ (h.rename p p' hown hown' s)

/-- **Whether a place is on the way of a path**: it is the path's, or that of a directory above. -/
def Files.Path.OnWay (p : Path) (home q : Place) : Prop :=
  ∃ above ∈ p.ancestors, q = above.place home

/-- Making a directory extends a tree by directories on its way. -/
theorem Files.Tree.makeDirs_keeps {p : Path} (hmay : ∀ q, p.OnWay home q → may q .directory) :
    Keeps (Extends home own may) (Tree.system.makeDirs p) :=
  FileSystem.makeDirsIn_keeps (fun above h => makeDir_keeps (hmay _ ⟨above, h, rfl⟩))
    fun above _ => isDirectory_keeps above

/-- Trees keep what it is to extend a tree, if directories may be new. -/
theorem Files.Tree.keeping_system (hmay : ∀ q, may q .directory) :
    Tree.system.Keeping home own may (Extends home own may) where
  read := read_keeps
  isDirectory := isDirectory_keeps
  makeDir _ := makeDir_keeps (hmay _)
  createNew _ _ h := createNew_keeps h
  write _ content h := write_keeps h content
  rename _ _ h h' := rename_keeps h h'

variable (h : fs.Keeping home own may R)

include h

theorem Files.FileSystem.Keeping.makeDirs (p : Path) : Keeps R (fs.makeDirs p) :=
  makeDirsIn_keeps (fun p _ => h.makeDir p) fun p _ => h.isDirectory p

namespace Directory

variable (objects : Directory)

theorem get_keeps (name : String) : Keeps R (objects.get fs name) :=
  get_keeps_of_read fun path _ => h.read path

/-- **Creating an object** keeps what is kept where its file may be new. -/
theorem create_keeps {o : ApiService} (hmay : may (objects.path.place home ++ [fileName o.name])
    (.file (document o).toUTF8)) : Keeps R (objects.create fs o) := by
  refine create_keeps_of_createNew (h.makeDirs objects.path) fun path hpath => ?_
  rw [← place_of_pathOf hpath home] at hmay
  exact h.createNew path _ hmay

end Directory

namespace StatusFile

variable (s : StatusFile)

theorem load_keeps : Keeps R (s.load fs) := s.load_keeps_of_read h.read

theorem makeParent_keeps : Keeps R (s.makeParent fs) := by
  rw [makeParent]
  split
  · exact h.makeDirs _
  · exact .pure _

/-- **Changing the record** keeps what is kept at its places. -/
theorem update_keeps (hown : ∀ q ∈ s.places home, q ∈ own)
    (change : OperatorState → OperatorState) : Keeps R (s.update fs change) := by
  have hpath : s.path.place home ∈ own := hown _ List.mem_cons_self
  have htemporary : s.temporary.place home ∈ own :=
    hown _ (List.mem_cons_of_mem _ List.mem_cons_self)
  have hsave (state : OperatorState) : Keeps R (s.save fs state) := by
    refine (s.makeParent_keeps h).bind fun made => ?_
    rcases made with e | u
    · exact .pure _
    refine (h.write _ _ htemporary).bind fun written => ?_
    rcases written with e | u
    · exact .pure _
    refine (h.rename _ _ htemporary hpath).bind fun moved => ?_
    rcases moved with e | u
    · exact .pure _
    · exact .pure _
  refine (s.load_keeps h).bind fun loaded => ?_
  rcases loaded with e | state
  · exact .pure _
  · exact hsave _

/-- **Changing the record in vain** spares what is kept at the place of the temporary file, if it is
spared by moving files in vain. -/
theorem update_spares (htemporary : s.temporary.place home ∈ own)
    (hrename : ∀ p p', Spares R (fs.rename p p')) (change : OperatorState → OperatorState) :
    Spares R (s.update fs change) :=
  update_spares_of_makeParent h.read (s.makeParent_keeps h)
    (fun content => h.write _ content htemporary) hrename change

end StatusFile

end ApiAvailability
