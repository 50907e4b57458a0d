import ApiAvailability.Proofs.Files.Ways

/-!
# Proofs/Files/Reach — a directory that was made can be written in

A path **reaches** its place if each of its names leads to a directory (`Tree.Reaches`).  A path that
leads to a directory does (`Tree.reaches_of_isDirectory`), and a legal name below a path that does is
found (`Tree.Reaches.locate_join`).

Directories that are made are there afterwards (`Tree.leads_of_makeDirs`), and making them once more
changes nothing (`Tree.makeDirs_of_leads`).
-/

namespace ApiAvailability.Files

namespace Tree

variable {t t' : Tree} {p : Path} {q : Place} {name : String}

/-! ## Ways to a directory -/

/-- **A path reaches its place** if its names lead there, from directory to directory. -/
def Reaches (t : Tree) (p : Path) : Prop :=
  (names p).foldlM t.enter (t.start p) = .ok (p.place t.home)

theorem reaches_of_foldlM (h : (names p).foldlM t.enter (t.start p) = .ok q) : t.Reaches p := by
  rw [Reaches, h, foldlM_enter_eq_ok h]
  rfl

/-- A path that reaches its place reaches it as long as directories stay. -/
theorem Paves.reaches (h : Paves t t') (hp : t.Reaches p) : t'.Reaches p := by
  have hstart : t'.start p = t.start p := by rw [start, start, h.home]
  refine @reaches_of_foldlM t' p (p.place t.home) ?_
  rw [hstart]
  exact h.foldlM_enter hp

/-- A path that leads to a directory reaches it. -/
theorem reaches_of_isDirectory (h : t.isDirectory p = true) : t.Reaches p := by
  rw [isDirectory] at h
  cases hlocate : t.locate p with
  | error e => rw [hlocate] at h; contradiction
  | ok target =>
    rw [hlocate] at h
    rw [locate] at hlocate
    split at hlocate
    · contradiction
    cases hdir : (names p).dropLast.foldlM t.enter (t.start p) with
    | error e => rw [hdir] at hlocate; contradiction
    | ok dir =>
      simp only [hdir, bind, Except.bind] at hlocate
      split at hlocate
      · rename_i hlast
        have hnames : names p = [] := List.getLast?_eq_none_iff.mp hlast
        refine @reaches_of_foldlM t p dir ?_
        rw [hnames] at hdir ⊢
        exact hdir
      rename_i name hlast
      obtain ⟨front, hnames⟩ := List.getLast?_eq_some_iff.mp hlast
      rw [hnames, List.dropLast_concat] at hdir
      have hreaches {q : Place} (he : t.enter dir name = .ok q) : t.Reaches p := by
        refine @reaches_of_foldlM t p q ?_
        rw [hnames, List.foldlM_append, hdir]
        exact (bind_pure (t.enter dir name)).trans he
      split at hlocate
      · cases he : t.enter dir name with
        | error e => rw [he] at hlocate; contradiction
        | ok q => exact hreaches he
      rename_i hdots
      split at hlocate
      · contradiction
      rename_i hlength
      obtain rfl := Except.ok.inj hlocate
      rw [not_or] at hdots
      refine @hreaches (dir ++ [name]) ?_
      rw [enter, if_neg hdots.1, if_neg hdots.2, if_neg hlength, of_decide_eq_true h]

/-- The system takes a path without null characters that is not empty and not too long. -/
theorem refusal?_eq_none (hnul : '\x00' ∉ p.text.toList) (hempty : p.text ≠ "")
    (hlength : p.text.utf8ByteSize < maxPathBytes) : refusal? p = none := by
  rw [refusal?, if_neg (by simpa using hnul), if_neg hempty, if_neg (Nat.not_le.mpr hlength)]

/-- Only the empty path is refused as one that is not found. -/
theorem refusal?_ne_notFound (h : p.text ≠ "") : refusal? p ≠ some .notFound := by
  rw [refusal?, if_neg h]
  split
  · simp
  · split <;> simp

/-- A path at which there is nothing to be read is not refused, unless it is empty. -/
theorem refusal?_of_missing (h : t.read p = .error .notFound) (hempty : p.text ≠ "") :
    refusal? p = none := by
  cases hrefusal : refusal? p with
  | none => rfl
  | some e =>
    rw [read, locate, hrefusal] at h
    obtain rfl : e = .notFound := Except.error.inj h
    exact absurd hrefusal (refusal?_ne_notFound hempty)

/-- A path that is found is not refused. -/
theorem refusal?_of_locate {target : Target} (h : t.locate p = .ok target) : refusal? p = none := by
  rw [locate] at h
  split at h
  · contradiction
  · assumption

/-- The path of a directory that is there is legal. -/
theorem not_mem_nul_of_isDirectory (h : t.isDirectory p = true) : '\x00' ∉ p.text.toList := by
  intro hnul
  have hrefusal : refusal? p = some .nulInPath := by
    rw [refusal?, if_pos (by simpa using hnul)]
  rw [isDirectory, locate, hrefusal] at h
  contradiction

/-- **A legal name below a path that reaches its place is found** where it is written. -/
theorem Reaches.locate_join (hp : t.Reaches p) (hname : IsName name)
    (hlength : name.utf8ByteSize ≤ maxNameBytes) (hlegal : refusal? (p.join name) = none) :
    t.locate (p.join name) = .ok (.entry (p.place t.home ++ [name]) false) := by
  have hstart : t.start (p.join name) = t.start p := by
    rw [start, start, Path.isAbsolute_join p hname.separator]
  have hlast : (p.join name).text.toList.getLast? ≠ some '/' := by
    have hne : name.toList ≠ [] := by simpa using hname.empty
    rw [Path.join_eq p hname.separator, String.toList_append, List.getLast?_append,
      List.getLast?_eq_some_getLast hne, Option.some_or]
    exact fun he => hname.separator (Option.some.inj he ▸ List.getLast_mem hne)
  have hdots : ¬ (name = "." ∨ name = "..") := not_or.mpr ⟨hname.dot, hname.dots⟩
  rw [Reaches] at hp
  rw [locate, hlegal]
  simp only [Path.names_join p hname.separator hname.empty, List.dropLast_concat, hstart,
    List.getLast?_concat, hp]
  simp only [bind, Except.bind]
  rw [if_neg hdots, if_neg (Nat.not_lt.mpr hlength), decide_eq_false hlast]
  rfl

/-- The names in front of the last one of a path that is found reach their place. -/
theorem reaches_of_locate_join {target : Target} (hsep : '/' ∉ name.toList) (hempty : name ≠ "")
    (h : t.locate (p.join name) = .ok target) : t.Reaches p := by
  have hstart : t.start (p.join name) = t.start p := by
    rw [start, start, Path.isAbsolute_join p hsep]
  rw [locate, refusal?_of_locate h] at h
  simp only [Path.names_join p hsep hempty, List.dropLast_concat, hstart] at h
  cases hdir : (names p).foldlM t.enter (t.start p) with
  | error e =>
    rw [hdir] at h
    cases h
  | ok q => exact reaches_of_foldlM hdir

/-- A name that is too long is not looked for. -/
theorem Reaches.locate_nameTooLong (hp : t.Reaches p) (hsep : '/' ∉ name.toList)
    (hlength : maxNameBytes < name.utf8ByteSize) (hlegal : refusal? (p.join name) = none) :
    t.locate (p.join name) = .error .nameTooLong := by
  have hstart : t.start (p.join name) = t.start p := by
    rw [start, start, Path.isAbsolute_join p hsep]
  have hname : IsName name := .of_long hsep (Nat.lt_trans (by decide) hlength)
  have hdots : ¬ (name = "." ∨ name = "..") := not_or.mpr ⟨hname.dot, hname.dots⟩
  rw [Reaches] at hp
  rw [locate, hlegal]
  simp only [Path.names_join p hsep hname.empty, List.dropLast_concat, hstart,
    List.getLast?_concat, hp]
  simp only [bind, Except.bind]
  rw [if_neg hdots, if_pos hlength]
  rfl

/-! ## Making directories -/

theorem Paves.isDirectory (h : Paves t t') (hp : t.isDirectory p = true) :
    t'.isDirectory p = true := by
  rw [Tree.isDirectory] at hp ⊢
  cases hlocate : t.locate p with
  | error e => rw [hlocate] at hp; contradiction
  | ok target =>
    rw [hlocate] at hp
    rw [h.locate hlocate]
    cases target with
    | directory q => rfl
    | entry q asDirectory => exact decide_eq_true (h.directory q (of_decide_eq_true hp))

/-- A directory is there after it was made. -/
theorem isDirectory_of_makeDir (h : t.makeDir p = .ok t') : t'.isDirectory p = true := by
  obtain ⟨q, asDirectory, hlocate, hnone, rfl⟩ := makeDir_eq_ok h
  have hpaves : Paves t (t.put q .directory) := paves_put (by simp [hnone])
  have hthere := @lookup_put_self t q .directory (locate_entry hlocate).2
  rw [isDirectory, hpaves.locate hlocate]
  exact decide_eq_true hthere

/-- And it is not made while it is there. -/
theorem makeDir_ne_ok (h : t.isDirectory p = true) : t.makeDir p ≠ .ok t' := by
  intro hmade
  obtain ⟨q, asDirectory, hlocate, hnone, -⟩ := makeDir_eq_ok hmade
  rw [isDirectory, hlocate] at h
  have hdirectory := of_decide_eq_true h
  rw [hnone] at hdirectory
  contradiction

/-- **A path leads to a directory**, the empty path to where relative paths start. -/
def Leads (t : Tree) (p : Path) : Prop := p.text = "" ∨ t.isDirectory p = true

theorem Paves.leads (h : Paves t t') (hp : t.Leads p) : t'.Leads p := hp.imp id h.isDirectory

/-- A path that leads to a directory reaches its place, and so does the empty path. -/
theorem Leads.reaches (h : t.Leads p) : t.Reaches p := by
  rcases h with hempty | hdirectory
  · have hnames : names p = [] := by
      rw [names, Path.segments, hempty]
      rfl
    rw [Reaches, Path.place, hnames]
    rfl
  · exact reaches_of_isDirectory hdirectory

theorem Leads.not_mem_nul (h : t.Leads p) : '\x00' ∉ p.text.toList := by
  rcases h with hempty | hdirectory
  · simp [hempty]
  · exact not_mem_nul_of_isDirectory hdirectory

/-- A path that reaches its place leads to a directory, unless the system refuses the path. -/
theorem isDirectory_of_reaches (hrefusal : refusal? p = none) (hp : t.Reaches p) :
    t.isDirectory p = true := by
  rw [Reaches] at hp
  rw [isDirectory, locate, hrefusal]
  rcases List.eq_nil_or_concat (names p) with hnames | ⟨front, name, hnames⟩
  · rw [hnames]
    rfl
  rw [List.concat_eq_append] at hnames
  rw [hnames, List.foldlM_append] at hp
  simp only [hnames, List.dropLast_concat, List.getLast?_concat]
  cases hdir : front.foldlM t.enter (t.start p) with
  | error e =>
    rw [hdir] at hp
    cases hp
  | ok dir =>
    rw [hdir] at hp
    have henter : t.enter dir name = .ok (p.place t.home) := (bind_pure _).symm.trans hp
    simp only [bind, Except.bind]
    by_cases hdots : name = "." ∨ name = ".."
    · rw [if_pos hdots, henter]
      rfl
    · obtain ⟨hdot, hup⟩ := not_or.mp hdots
      rw [enter, if_neg hdot, if_neg hup] at henter
      split at henter
      · contradiction
      rename_i hlength
      rw [if_neg hdots, if_neg hlength]
      split at henter
      · contradiction
      · contradiction
      · rename_i hthere
        exact decide_eq_true hthere

theorem system_makeDir_ok (h : t.makeDir p = .ok t') : system.makeDir p t = (.ok (), t') := by
  simp only [system, h]

theorem system_makeDir_error {e : FileError} (h : t.makeDir p = .error e) :
    system.makeDir p t = (.error e, t) := by
  simp only [system, h]

/-- A directory that is there is not made. -/
theorem ensureDir_of_isDirectory (h : t.isDirectory p = true) :
    system.ensureDir p t = (.ok (), t) := by
  cases hmade : t.makeDir p with
  | ok t' => exact absurd hmade (makeDir_ne_ok h)
  | error e =>
    rw [FileSystem.ensureDir, bind_apply, system_makeDir_error hmade]
    change (if t.isDirectory p then Except.ok () else .error e, t) = _
    rw [if_pos h]

/-- A directory is there that was made, or was there. -/
theorem isDirectory_of_ensureDir (h : system.ensureDir p t = (.ok (), t')) :
    t'.isDirectory p = true := by
  rw [FileSystem.ensureDir, bind_apply] at h
  cases hmade : t.makeDir p with
  | ok t₁ =>
    rw [system_makeDir_ok hmade] at h
    obtain rfl : t₁ = t' := congrArg Prod.snd h
    exact isDirectory_of_makeDir hmade
  | error e =>
    rw [system_makeDir_error hmade] at h
    change (if t.isDirectory p then Except.ok () else .error e, t) = _ at h
    obtain ⟨hok, rfl⟩ := Prod.mk.inj h
    cases hthere : t.isDirectory p with
    | true => rfl
    | false =>
      rw [hthere] at hok
      contradiction

/-- A directory that cannot be made leaves everything as it is. -/
theorem ensureDir_error {e : FileError} (h : system.ensureDir p t = (.error e, t')) : t' = t := by
  rw [FileSystem.ensureDir, bind_apply] at h
  cases hmade : t.makeDir p with
  | ok t₁ =>
    rw [system_makeDir_ok hmade] at h
    cases congrArg Prod.fst h
  | error e' =>
    rw [system_makeDir_error hmade] at h
    exact (congrArg Prod.snd h).symm

/-- The path of a directory that is there, or can be made in one that is there, is found. -/
theorem exists_locate_of_ensureDir (h : system.ensureDir p t = (.ok (), t')) :
    ∃ target, t.locate p = .ok target := by
  cases hmade : t.makeDir p with
  | ok t₁ =>
    obtain ⟨q, asDirectory, hlocate, -⟩ := makeDir_eq_ok hmade
    exact ⟨_, hlocate⟩
  | error e =>
    rw [FileSystem.ensureDir, bind_apply, system_makeDir_error hmade] at h
    obtain rfl : t = t' := congrArg Prod.snd h
    have hthere : t.isDirectory p = true := by
      refine isDirectory_of_ensureDir (t := t) ?_
      rw [FileSystem.ensureDir, bind_apply, system_makeDir_error hmade]
      exact h
    rw [isDirectory] at hthere
    cases hlocate : t.locate p with
    | ok target => exact ⟨target, rfl⟩
    | error e' =>
      rw [hlocate] at hthere
      contradiction

theorem ancestors_eq_cons (p : Path) : ∃ above, p.ancestors = p :: above := by
  rw [Path.ancestors]
  cases p.segments.length with
  | zero => exact ⟨[], rfl⟩
  | succ n =>
    rw [Path.ancestorsWithin]
    split
    · exact ⟨_, rfl⟩
    · exact ⟨_, rfl⟩

/-- **A directory that was made is there.** -/
theorem leads_of_makeDirs (h : system.makeDirs p t = (.ok (), t')) : t'.Leads p := by
  obtain ⟨above, habove⟩ := ancestors_eq_cons p
  rw [FileSystem.makeDirs, habove, FileSystem.makeDirsIn] at h
  split at h
  · exact .inl ‹_›
  refine .inr ?_
  rw [bind_apply] at h
  rcases hmade : system.ensureDir p t with ⟨e | u, t₁⟩
  · rw [hmade] at h
    -- only what is missing is made after the directories above it
    cases e with
    | notFound =>
      change (system.makeDirsIn above >>= _) t₁ = _ at h
      rw [bind_apply] at h
      rcases hrest : system.makeDirsIn above t₁ with ⟨e | u, t₂⟩
      · rw [hrest] at h
        cases congrArg Prod.fst h
      · rw [hrest] at h
        exact isDirectory_of_ensureDir h
    | _ => cases congrArg Prod.fst h
  · rw [hmade] at h
    obtain rfl : t₁ = t' := congrArg Prod.snd h
    exact isDirectory_of_ensureDir hmade

/-- A directory that can be made and is reached is there already. -/
theorem leads_of_reaches (h : system.makeDirs p t = (.ok (), t')) (hp : t.Reaches p) :
    t.Leads p := by
  by_cases hempty : p.text = ""
  · exact .inl hempty
  cases hrefusal : refusal? p with
  | none => exact .inr (isDirectory_of_reaches hrefusal hp)
  | some e =>
    -- a path that is refused is that of no directory, and none is made
    have hmake : t.makeDir p = .error e := by rw [makeDir, hrefusal]
    have hthere : t.isDirectory p = false := by rw [isDirectory, locate, hrefusal]
    have hensure : system.ensureDir p t = (.error e, t) := by
      rw [FileSystem.ensureDir, bind_apply, system_makeDir_error hmake]
      change (if t.isDirectory p then Except.ok () else .error e, t) = _
      rw [hthere]
      rfl
    obtain ⟨above, habove⟩ := ancestors_eq_cons p
    rw [FileSystem.makeDirs, habove, FileSystem.makeDirsIn, if_neg hempty, bind_apply, hensure] at h
    cases e with
    | notFound => exact absurd hrefusal (refusal?_ne_notFound hempty)
    | _ => cases congrArg Prod.fst h

/-- **Making a directory that is there changes nothing.** -/
theorem makeDirs_of_leads (h : t.Leads p) : system.makeDirs p t = (.ok (), t) := by
  obtain ⟨above, habove⟩ := ancestors_eq_cons p
  rw [FileSystem.makeDirs, habove, FileSystem.makeDirsIn]
  split
  · rfl
  rename_i hempty
  rw [bind_apply, ensureDir_of_isDirectory (h.resolve_left hempty)]
  rfl

/-- A directory of one name is made where relative paths start. -/
theorem makeDirs_of_name (hname : IsName name) (hlength : name.utf8ByteSize ≤ maxNameBytes)
    (hnul : '\x00' ∉ name.toList) (hnone : t.lookup (t.home ++ [name]) = none) :
    system.makeDirs ⟨name⟩ t = (.ok (), t.put (t.home ++ [name]) .directory) := by
  obtain ⟨above, habove⟩ := ancestors_eq_cons ⟨name⟩
  have hnames : names ⟨name⟩ = [name] := by
    rw [names, Path.segments_of_not_mem hname.separator]
    simp [hname.empty]
  have hstart : t.start ⟨name⟩ = t.home := by
    rw [start, Path.not_isAbsolute_of_not_mem hname.separator]
    rfl
  have hrefusal : refusal? ⟨name⟩ = none :=
    refusal?_eq_none hnul hname.empty (Nat.lt_of_le_of_lt hlength (by decide))
  have hdots : ¬ (name = "." ∨ name = "..") := not_or.mpr ⟨hname.dot, hname.dots⟩
  have hmake : t.makeDir ⟨name⟩ = .ok (t.put (t.home ++ [name]) .directory) := by
    rw [makeDir, hrefusal, hnames, hstart]
    simp only [List.dropLast_singleton, List.foldlM_nil, List.getLast?_singleton, pure_bind]
    rw [if_neg hdots, if_neg (Nat.not_lt.mpr hlength), hnone]
    rfl
  rw [FileSystem.makeDirs, habove, FileSystem.makeDirsIn, if_neg hname.empty, bind_apply,
    FileSystem.ensureDir, bind_apply, system_makeDir_ok hmake]
  rfl

/-! ## Files at places that are found -/

section Found

theorem system_write {p : Path} {content : ByteArray} {t' : Tree} {answer : Except FileError Unit}
    (h : t.write p content = (t', answer)) : system.write p content t = (answer, t') := by
  simp only [system, h]

theorem system_rename {p p' : Path} {t' : Tree} {answer : Except FileError Unit}
    (h : t.rename p p' = (t', answer)) : system.rename p p' t = (answer, t') := by
  simp only [system, h]

theorem system_createNew {p : Path} {content : ByteArray} {t' : Tree}
    {answer : Except FileError Unit} (h : t.createNew p content = (t', answer)) :
    system.createNew p content t = (answer, t') := by
  simp only [system, h]

variable {p p' : Path} {q q' : Place} {content : ByteArray}

/-- A file that is found is read. -/
theorem read_of_locate (hp : t.locate p = .ok (.entry q false))
    (hq : t.lookup q = some (.file content)) : t.read p = .ok content := by
  rw [read, hp]
  simp only [bind, Except.bind, hq]
  rfl

/-- Where nothing is, none is found. -/
theorem read_eq_notFound (hp : t.locate p = .ok (.entry q false)) (hq : t.lookup q = none) :
    t.read p = .error .notFound := by
  rw [read, hp]
  simp only [bind, Except.bind, hq]
  rfl

/-- A file is written where no directory is. -/
theorem write_of_locate (hp : t.locate p = .ok (.entry q false))
    (hq : t.lookup q ≠ some .directory) (content : ByteArray) :
    t.write p content = (t.put q (.file content), .ok ()) := by
  have hwritable : t.writable p = .ok (q, (t.lookup q).isSome) := by
    rw [writable, hp]
    simp only [bind, Except.bind]
    split
    · contradiction
    · rfl
  rw [write, hwritable]

/-- A file that was written is at the place of its path, where there was no directory. -/
theorem write_eq_ok (h : t.write p content = (t', .ok ())) :
    t.locate p = .ok (.entry (p.place t.home) false) ∧ t.lookup (p.place t.home) ≠ some .directory ∧
      t' = t.put (p.place t.home) (.file content) := by
  rw [write] at h
  cases hwritable : t.writable p with
  | error e =>
    rw [hwritable] at h
    cases congrArg Prod.snd h
  | ok found =>
    obtain ⟨place, taken⟩ := found
    obtain ⟨hlocate, hfree⟩ := writable_eq_ok hwritable
    rw [hwritable] at h
    obtain ⟨rfl, -⟩ := locate_entry hlocate
    exact ⟨hlocate, hfree, (congrArg Prod.fst h).symm⟩

/-- **What was written is read.** -/
theorem read_of_write (h : t.write p content = (t', .ok ())) : t'.read p = .ok content := by
  obtain ⟨hlocate, hfree, rfl⟩ := write_eq_ok h
  exact read_of_locate ((paves_put hfree).locate hlocate) (lookup_put_self (locate_entry hlocate).2)

/-- A file that was moved is at the one place and no longer at the other. -/
theorem rename_eq_ok (h : t.rename p' p = (t', .ok ())) : ∃ content,
    t.read p' = .ok content ∧ t.locate p = .ok (.entry (p.place t.home) false) ∧
      t' = (t.drop (p'.place t.home)).put (p.place t.home) (.file content) := by
  rw [rename] at h
  split at h
  · cases congrArg Prod.snd h
  · cases congrArg Prod.snd h
  · cases congrArg Prod.snd h
  · rename_i content source _ dest asDirectory hread hsource hdest
    split at h
    · cases congrArg Prod.snd h
    split at h
    · cases congrArg Prod.snd h
    rename_i hentry
    rw [Bool.not_eq_true] at hentry
    obtain ⟨rfl, -⟩ := locate_entry hsource
    obtain ⟨rfl, -⟩ := locate_entry hdest
    exact ⟨content, hread, by rw [hdest, hentry], (congrArg Prod.fst h).symm⟩
  · cases congrArg Prod.snd h

/-- **What was moved is read** as it was. -/
theorem read_of_rename (h : t.rename p' p = (t', .ok ())) (hread : t.read p' = .ok content) :
    t'.read p = .ok content := by
  have hpaves : Paves t t' := (rename_paves p' p).of_eq (system_rename h)
  obtain ⟨content', hread', hlocate, rfl⟩ := rename_eq_ok h
  obtain rfl : content' = content := Except.ok.inj (hread'.symm.trans hread)
  exact read_of_locate (hpaves.locate hlocate) (lookup_put_self (locate_entry hlocate).2)

/-- A new file is made where nothing is. -/
theorem createNew_of_locate (hp : t.locate p = .ok (.entry q false)) (hq : t.lookup q = none)
    (content : ByteArray) : t.createNew p content = (t.put q (.file content), .ok ()) := by
  simp [createNew, hp, hq]

/-- No new file is made where something is. -/
theorem createNew_eq_fileExists (hp : t.locate p = .ok (.entry q false)) {n : Node}
    (hq : t.lookup q = some n) (content : ByteArray) :
    t.createNew p content = (t, .error .fileExists) := by
  simp [createNew, hp, hq]

/-- A file is moved to where no directory is. -/
theorem rename_of_locate (hp' : t.locate p' = .ok (.entry q' false))
    (hq' : t.lookup q' = some (.file content)) (hp : t.locate p = .ok (.entry q false))
    (hq : t.lookup q ≠ some .directory) :
    t.rename p' p = ((t.drop q').put q (.file content), .ok ()) := by
  rw [rename, read_of_locate hp' hq', hp', hp]
  simp only [hq, if_false, Bool.false_eq_true]

theorem lookup_drop_self (hq : q ≠ []) : (t.drop q).lookup q = none := by
  simp [lookup, drop, hq]

/-- **A file is replaced** by writing another one and moving that into its place. -/
theorem exists_replaced (hp : t.locate p = .ok (.entry q false))
    (hp' : t.locate p' = .ok (.entry q' false)) (hne : q' ≠ q)
    (hq : t.lookup q ≠ some .directory) (hq' : t.lookup q' ≠ some .directory)
    (content : ByteArray) : ∃ t₁ t₂, t.write p' content = (t₁, .ok ()) ∧
      t₁.rename p' p = (t₂, .ok ()) ∧ Paves t t₂ ∧ t₂.read p = .ok content ∧
      t₂.lookup q = some (.file content) ∧ t₂.lookup q' = none := by
  have hqne : q ≠ [] := (locate_entry hp).2
  have hqne' : q' ≠ [] := (locate_entry hp').2
  let t₁ := t.put q' (.file content)
  let t₂ := (t₁.drop q').put q (.file content)
  have hwrite := write_of_locate hp' hq' content
  have hpaves₁ : Paves t t₁ := paves_put hq'
  have hthere : t₁.lookup q' = some (.file content) := lookup_put_self hqne'
  have hfree : t₁.lookup q ≠ some .directory := by rwa [lookup_put_of_ne hne]
  have hrename := rename_of_locate (hpaves₁.locate hp') hthere (hpaves₁.locate hp) hfree
  have hpaves : Paves t t₂ := by
    have h := rename_paves p' p t₁
    change Paves t₁ (t₁.rename p' p).1 at h
    rw [hrename] at h
    exact IsTrans.trans _ _ _ hpaves₁ h
  have hnew : t₂.lookup q = some (.file content) := lookup_put_self hqne
  refine ⟨t₁, t₂, hwrite, hrename, hpaves, read_of_locate (hpaves.locate hp) hnew, hnew, ?_⟩
  rw [lookup_put_of_ne hne.symm, lookup_drop_self hqne']

end Found

/-! ## What was there before directories were made -/

/-- What is there is there after directories were made. -/
theorem lookup_makeDirs (p : Path) {n : Node} (h : t.lookup q = some n) :
    (system.makeDirs p t).2.lookup q = some n := by
  have hkeeping : system.Keeping t.home [] (fun _ n => n = .directory)
    (Extends t.home [] fun _ n => n = .directory) := keeping_system fun _ => rfl
  have hkept := (hkeeping.makeDirs p t rfl).2.kept q n
  rw [outside_eq_some_iff, outside_eq_some_iff] at hkept
  exact (hkept ⟨List.not_mem_nil, h⟩).2

theorem makeDirs_paves (p : Path) : Keeps Paves (system.makeDirs p) :=
  (keeping_paves [] [] fun _ _ => True).makeDirs p

/-- Where names lead when more is there, they led before, unless something was missing. -/
theorem foldlM_enter_of_paves (h : Paves t t')
    (hfiles : ∀ q content, t.lookup q = some (.file content) → t'.lookup q = some (.file content))
    {names : List String} {at_ : Place} (h' : names.foldlM t'.enter at_ = .ok q) :
    names.foldlM t.enter at_ = .ok q ∨ names.foldlM t.enter at_ = .error .notFound := by
  induction names generalizing at_ with
  | nil => exact .inl h'
  | cons name names ih =>
    rw [List.foldlM_cons] at h' ⊢
    cases he' : t'.enter at_ name with
    | error e => rw [he'] at h'; contradiction
    | ok next =>
      rw [he'] at h'
      cases he : t.enter at_ name with
      | ok next₀ =>
        obtain rfl : next₀ = next := Except.ok.inj ((h.enter he).symm.trans he')
        exact ih h'
      | error e =>
        refine .inr ?_
        have hmissing : e = .notFound := by
          rw [enter] at he he'
          split at he
          · contradiction
          rw [if_neg ‹_›] at he'
          split at he
          · contradiction
          rw [if_neg ‹_›] at he'
          split at he
          · rw [if_pos ‹_›] at he'
            contradiction
          rw [if_neg ‹_›] at he'
          split at he
          · exact (Except.error.inj he).symm
          · rw [hfiles _ _ ‹_›] at he'
            contradiction
          · contradiction
        rw [hmissing]
        rfl

/-- **What is not in a directory once that is made was not found before.** -/
theorem read_of_makeDirs (hmade : system.makeDirs p t = (.ok (), t')) (hname : IsName name)
    (hlength : name.utf8ByteSize ≤ maxNameBytes) (hlegal : refusal? (p.join name) = none)
    (hnone : t'.lookup (p.place t.home ++ [name]) = none) :
    t.read (p.join name) = .error .notFound := by
  have hpaves : Paves t t' := (makeDirs_paves p).of_eq hmade
  have hkept {q : Place} {n : Node} (h : t.lookup q = some n) : t'.lookup q = some n := by
    have hlookup := lookup_makeDirs p h
    rwa [hmade] at hlookup
  have hreaches := (leads_of_makeDirs hmade).reaches
  have hstart : t'.start p = t.start p := by rw [start, start, hpaves.home]
  rw [Reaches, hstart] at hreaches
  rcases foldlM_enter_of_paves hpaves (fun _ _ h => hkept h) hreaches with hbefore | hbefore
  · have hlocate := (reaches_of_foldlM hbefore).locate_join hname hlength hlegal
    have hmissing : t.lookup (p.place t.home ++ [name]) = none := by
      cases hn : t.lookup (p.place t.home ++ [name]) with
      | none => rfl
      | some n =>
        rw [hkept hn] at hnone
        contradiction
    exact read_eq_notFound hlocate hmissing
  · have hlocate : t.locate (p.join name) = .error .notFound := by
      have hjoin : t.start (p.join name) = t.start p := by
        rw [start, start, Path.isAbsolute_join p hname.separator]
      rw [locate, hlegal]
      simp only [Path.names_join p hname.separator hname.empty, List.dropLast_concat, hjoin,
        hbefore]
      rfl
    rw [read, hlocate]
    rfl

end Tree

end ApiAvailability.Files
