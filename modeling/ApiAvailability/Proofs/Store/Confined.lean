import ApiAvailability.Proofs.Files.Reach

/-!
# Proofs/Store/Confined — a name leads nowhere but into its directory

The name of an object comes from outside, and its file is found by it.  Whatever the name holds, it
leads to one file that stands directly in the directory, or it is refused.

* `Directory.get_congr`, `Directory.create_congr` — what a call does depends on that file alone, and
  on the directories that may have to be made: two file systems that agree on these may do anything
  elsewhere, so nothing else is touched;
* `Directory.created` — in a tree, creating an object adds that file and those directories at most;
* `Directory.confined` — the law, with what is refused.
-/

namespace ApiAvailability

open Files

namespace Files.Tree

variable {t t' : Tree} {p : Path}

/-- A file that is made is new at the place of its path. -/
theorem createNew_eq_ok {content : ByteArray} (h : t.createNew p content = (t', .ok ())) :
    t.lookup (p.place t.home) = none ∧ p.place t.home ≠ [] ∧
      t' = t.put (p.place t.home) (.file content) := by
  rw [createNew] at h
  split at h
  · cases h
  · cases h
  rename_i q asDirectory hlocate
  split at h
  · cases h
  split at h
  · cases h
  rename_i hfree
  obtain ⟨rfl, hq⟩ := locate_entry hlocate
  exact ⟨by simpa using hfree, hq, (congrArg Prod.fst h).symm⟩

theorem createNew_spares {R : Tree → Tree → Prop} [Std.Refl R] (p : Path) (content : ByteArray) :
    Spares R (system.createNew p content) := by
  intro e t t' h
  obtain ⟨rfl, herror⟩ : (t.createNew p content).1 = t' ∧ (t.createNew p content).2 = .error e :=
    ⟨congrArg Prod.snd h, congrArg Prod.fst h⟩
  revert herror
  rw [createNew]
  split
  · exact fun _ => refl t
  · exact fun _ => refl t
  split
  · exact fun _ => refl t
  split
  · exact fun _ => refl t
  · intro hok
    cases hok

end Files.Tree

namespace Directory

/-! ## Names and places -/

/-- **Which names are refused.** -/
theorem accepts_eq_false_iff {name : String} : accepts name = false ↔
    name = "" ∨ name.toList.head? = some '.' ∨ '/' ∈ name.toList ∨ '\\' ∈ name.toList := by
  rw [accepts, ← String.toList_eq_nil_iff]
  cases name.toList with
  | nil => simp
  | cons c cs =>
    simp only [Bool.and_eq_false_iff, decide_eq_false_iff_not, ne_eq, Decidable.not_not, Bool.not_eq_false',
      List.contains_iff_mem, reduceCtorEq, List.head?_cons, Option.some.injEq, false_or, or_assoc]

/-- What is said of a name that is refused. -/
def refusal (name : String) : StoreError :=
  .backend ("invalid " ++ resourceName ++ " name \"" ++ name ++ "\"")

theorem accepts_of_pathOf {d : Directory} {name : String} {path : Path}
    (h : d.pathOf name = .ok path) : accepts name = true := by
  rw [pathOf] at h
  split at h
  · assumption
  · contradiction

theorem pathOf_of_refused (d : Directory) {name : String} (h : accepts name = false) :
    d.pathOf name = .error (refusal name) := by
  rw [pathOf, h]
  rfl

/-- The place of the file of a name: directly in the directory. -/
def placeOf (d : Directory) (home : Place) (name : String) : Place :=
  d.path.place home ++ [fileName name]

theorem place_eq_placeOf {d : Directory} {name : String} {path : Path}
    (h : d.pathOf name = .ok path) (home : Place) : path.place home = d.placeOf home name :=
  place_of_pathOf h home

theorem placeOf_inj {d : Directory} {home : Place} {a b : String}
    (h : d.placeOf home a = d.placeOf home b) : a = b :=
  fileName_inj (List.singleton_inj.mp (List.append_cancel_left h))

/-! ## What a call touches -/

section Congr

variable {m : Type → Type} [Monad m] {fs fs' : FileSystem m} {d : Directory}

theorem makeDirsIn_congr {ps : List Path} (hmake : ∀ p ∈ ps, fs.makeDir p = fs'.makeDir p)
    (hcheck : ∀ p ∈ ps, fs.isDirectory p = fs'.isDirectory p) :
    fs.makeDirsIn ps = fs'.makeDirsIn ps := by
  induction ps with
  | nil => rfl
  | cons p above ih =>
    have hensure : fs.ensureDir p = fs'.ensureDir p := by
      rw [FileSystem.ensureDir, hmake p List.mem_cons_self, hcheck p List.mem_cons_self]
      rfl
    rw [FileSystem.makeDirsIn, FileSystem.makeDirsIn, hensure,
      ih (fun q hq => hmake q (List.mem_cons_of_mem p hq))
        fun q hq => hcheck q (List.mem_cons_of_mem p hq)]

/-- **Getting an object** depends on reading its file alone. -/
theorem get_congr {name : String} (home : Place)
    (hread : ∀ p, p.place home = d.placeOf home name → fs.read p = fs'.read p) :
    d.get fs name = d.get fs' name := by
  rw [get, get]
  cases hpath : d.pathOf name with
  | error e => rfl
  | ok path =>
    dsimp only
    rw [hread path (place_eq_placeOf hpath home)]

/-- **Creating an object** depends on making the directories and the file alone. -/
theorem create_congr {o : ApiService} (home : Place)
    (hmake : ∀ p ∈ d.path.ancestors, fs.makeDir p = fs'.makeDir p)
    (hcheck : ∀ p ∈ d.path.ancestors, fs.isDirectory p = fs'.isDirectory p)
    (hnew : ∀ p, p.place home = d.placeOf home o.name →
      fs.createNew p (document o).toUTF8 = fs'.createNew p (document o).toUTF8) :
    d.create fs o = d.create fs' o := by
  have hdirs : fs.makeDirs d.path = fs'.makeDirs d.path := makeDirsIn_congr hmake hcheck
  rw [create, create]
  cases hpath : d.pathOf o.name with
  | error e => rfl
  | ok path =>
    dsimp only
    rw [hdirs, hnew path (place_eq_placeOf hpath home)]

end Congr

/-! ## What a call adds to a tree -/

variable {d : Directory} {o : ApiService} {t t' : Tree}

/-- Whether a node may be new where an object is created. -/
def MayAdd (d : Directory) (home : Place) (o : ApiService) (q : Place) (n : Node) : Prop :=
  (d.path.OnWay home q ∧ n = .directory) ∨
    (accepts o.name = true ∧ q = d.placeOf home o.name ∧ n = .file (document o).toUTF8)

/-- **What creating an object does to a tree**, in view of the answer. -/
structure Created (d : Directory) (o : ApiService) (t : Tree)
    (answer : Except StoreError ApiService) (t' : Tree) : Prop where
  home : t'.home = t.home
  /-- Nothing is lost or changed, and hardly anything is new. -/
  grows : Grows (d.MayAdd t.home o) t.lookup t'.lookup
  /-- In vain, no file is new. -/
  vain : ∀ e, answer = .error e →
    Grows (fun q n => d.path.OnWay t.home q ∧ n = .directory) t.lookup t'.lookup
  /-- Where it is answered, the file is new. -/
  done : ∀ o', answer = .ok o' → o' = o ∧ t.lookup (d.placeOf t.home o.name) = none ∧
    t'.lookup (d.placeOf t.home o.name) = some (.file (document o).toUTF8)

theorem get_snd (d : Directory) (name : String) (t : Tree) : (d.get Tree.system name t).2 = t := by
  have hget : Keeps (fun t t' => t = t') (d.get Tree.system name) :=
    get_keeps_of_read fun _ _ _ => rfl
  exact (hget t).symm

/-- An object that could be created was made a file in a directory that could be made. -/
theorem create_eq_ok {o' : ApiService} (h : d.create Tree.system o t = (.ok o', t')) :
    o' = o ∧ ∃ path t₁, d.pathOf o.name = .ok path ∧ Tree.system.makeDirs d.path t = (.ok (), t₁) ∧
      t₁.createNew path (document o).toUTF8 = (t', .ok ()) := by
  rw [create] at h
  cases hpath : d.pathOf o.name with
  | error e =>
    rw [hpath] at h
    cases congrArg Prod.fst h
  | ok path =>
    rw [hpath] at h
    simp only [bind_apply] at h
    rcases hmade : Tree.system.makeDirs d.path t with ⟨e | u, t₁⟩
    · rw [hmade] at h
      cases congrArg Prod.fst h
    rw [hmade] at h
    rcases hnew : t₁.createNew path (document o).toUTF8 with ⟨t₂, e | u⟩
    · simp only [bind_apply, Tree.system_createNew hnew] at h
      cases e <;> cases congrArg Prod.fst h
    · simp only [bind_apply, Tree.system_createNew hnew] at h
      obtain ⟨ho, ht⟩ := Prod.mk.inj h
      exact ⟨(Except.ok.inj ho).symm, path, t₁, rfl, rfl, ht ▸ hnew⟩

/-- **Creating an object** adds its file at most, and the directories on the way. -/
theorem created (d : Directory) (o : ApiService) (t : Tree) :
    d.Created o t (d.create Tree.system o t).1 (d.create Tree.system o t).2 := by
  have hgrows : Keeps (Tree.Extends t.home [] (d.MayAdd t.home o)) (d.create Tree.system o) :=
    create_keeps_of_createNew (Tree.makeDirs_keeps fun q hq => .inl ⟨hq, rfl⟩) fun path hpath =>
      Tree.createNew_keeps
        (.inr ⟨accepts_of_pathOf hpath, place_eq_placeOf hpath t.home, rfl⟩)
  have hvain : Spares (Tree.Extends t.home [] fun q n => d.path.OnWay t.home q ∧ n = .directory)
      (d.create Tree.system o) :=
    create_spares (Tree.makeDirs_keeps fun q hq => ⟨hq, rfl⟩) fun _ _ => Tree.createNew_spares _ _
  refine ⟨(hgrows t rfl).1, ?_, fun e he => ?_, fun o' ho' => ?_⟩
  · simpa only [Tree.outside_nil] using (hgrows t rfl).2
  · simpa only [Tree.outside_nil] using (hvain e t _ (Prod.ext he rfl) rfl).2
  · obtain ⟨ho, path, t₁, hpath, hmade, hnew⟩ := create_eq_ok (Prod.ext ho' rfl)
    have hhome : t₁.home = t.home := ((Tree.makeDirs_paves d.path).of_eq hmade).home
    obtain ⟨hfree, hplace, ht'⟩ := Tree.createNew_eq_ok hnew
    have hplace' : path.place t₁.home = d.placeOf t.home o.name :=
      (congrArg path.place hhome).trans (place_eq_placeOf hpath t.home)
    rw [hplace'] at hfree hplace ht'
    refine ⟨ho, ?_, (congrArg (Tree.lookup · _) ht').trans (Tree.lookup_put_self hplace)⟩
    cases hthere : t.lookup (d.placeOf t.home o.name) with
    | none => rfl
    | some n =>
      have hkept := Tree.lookup_makeDirs d.path hthere
      rw [hmade] at hkept
      exact absurd (hfree.symm.trans hkept) nofun

/-! ## The law -/

/-- **A name leads nowhere but into its directory**:
* a name is refused that is empty, starts with a dot or holds a separator, and this before anything
  is asked of the files, whatever they are;
* the file of any other name stands directly in the directory, and no two names share one;
* getting an object depends on what is read at that place and on nothing else, and creating one on
  what is made there and on the way to the directory;
* in a tree, getting an object changes nothing, and creating one adds its file at most, and the
  directories on the way; if that fails, no file is new. -/
theorem confined (d : Directory) :
    (∀ name, accepts name = false ↔
      name = "" ∨ name.toList.head? = some '.' ∨ '/' ∈ name.toList ∨ '\\' ∈ name.toList) ∧
    (∀ {m : Type → Type} [Monad m] (fs : FileSystem m),
      (∀ name, accepts name = false → d.get fs name = pure (.error (refusal name))) ∧
        ∀ o, accepts o.name = false → d.create fs o = pure (.error (refusal o.name))) ∧
    (∀ name, accepts name = true → ∃ path, d.pathOf name = .ok path ∧
      ∀ home, path.place home = d.placeOf home name) ∧
    (∀ home a b, a ≠ b → d.placeOf home a ≠ d.placeOf home b) ∧
    (∀ {m : Type → Type} [Monad m] (fs fs' : FileSystem m) (home : Place) (name : String),
      (∀ p, p.place home = d.placeOf home name → fs.read p = fs'.read p) →
        d.get fs name = d.get fs' name) ∧
    (∀ {m : Type → Type} [Monad m] (fs fs' : FileSystem m) (home : Place) (o : ApiService),
      (∀ p ∈ d.path.ancestors, fs.makeDir p = fs'.makeDir p) →
      (∀ p ∈ d.path.ancestors, fs.isDirectory p = fs'.isDirectory p) →
      (∀ p, p.place home = d.placeOf home o.name →
        fs.createNew p (document o).toUTF8 = fs'.createNew p (document o).toUTF8) →
        d.create fs o = d.create fs' o) ∧
    (∀ name t, (d.get Tree.system name t).2 = t) ∧
    ∀ o t, d.Created o t (d.create Tree.system o t).1 (d.create Tree.system o t).2 := by
  refine ⟨fun _ => accepts_eq_false_iff, fun fs => ⟨fun name hname => ?_, fun o ho => ?_⟩,
    fun name hname => ?_, fun _ _ _ => mt placeOf_inj, fun _ _ home _ => get_congr home,
    fun _ _ home _ hmake hcheck => create_congr home hmake hcheck, d.get_snd, d.created⟩
  · rw [get, pathOf_of_refused d hname]
  · rw [create, pathOf_of_refused d ho]
  · exact ⟨_, if_pos hname, place_eq_placeOf (if_pos hname)⟩

/-- Of a name that would lead to the passwords nothing is read, and of another one no more than its
file, even if all other reading makes an end of the files. -/
theorem confined_passwords :
    let d : Directory := ⟨⟨"objects"⟩⟩
    let harmful : FileSystem (StateM Tree) :=
      { Tree.system with
        read := fun p =>
          if p.place [] = d.placeOf [] "v1.apps" then Tree.system.read p
          else fun _ => (.ok .empty, .empty) }
    d.get harmful "../etc/passwd" = pure (.error (refusal "../etc/passwd")) ∧
      d.get harmful "v1.apps" = d.get Tree.system "v1.apps" ∧
      d.placeOf [] "v1.apps" = ["objects", "v1.apps.json"] := by
  intro d harmful
  obtain ⟨hrefused, hearly, -, -, hread, -, -, -⟩ := confined d
  refine ⟨?_, hread harmful Tree.system [] "v1.apps" fun p hp => if_pos hp, by decide +kernel⟩
  have hname : accepts "../etc/passwd" = false := (hrefused _).mpr (.inr (.inl (by decide +kernel)))
  exact (hearly harmful).1 _ hname

end Directory

end ApiAvailability
