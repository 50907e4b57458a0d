import ApiAvailability.Proofs.Store.Intact
import ApiAvailability.Proofs.Store.Shown

/-!
# Proofs/Store/Absent — a record that is missing stays missing

A file is absent if its directory is there and nothing is in its place (`StatusFile.IsAbsent`).
Then it is read as one that is missing, and it stays absent as long as directories stay and nothing
is put in its place.

A file may be missing together with its directory, and is absent once that is made, if that can be
done and nothing comes to stand in the file's place with it (`StatusFile.StaysMissing`).  Then the
record is read as before whoever makes the directory on the way, be it to create an object in a
directory beside the file (`StatusFile.MissingSince.create`) or to write the record in vain
(`StatusFile.MissingSince.update`).
-/

namespace ApiAvailability

open Files

/-! ## Making a directory beside a file -/

namespace Files.Tree

variable {t t' : Tree} {p above : Path} {answer : Except FileError Unit}

/-- **A directory is made at once or after the one above it.** -/
theorem makeDirs_cases (hempty : p.text ≠ "") (hparent : p.parent? = some above)
    (h : system.makeDirs p t = (answer, t')) :
    system.ensureDir p t = (answer, t') ∨
      (∃ e, system.makeDirs above t = (.error e, t')) ∨
      ∃ t₁, system.makeDirs above t = (.ok (), t₁) ∧ system.ensureDir p t₁ = (answer, t') := by
  rw [FileSystem.makeDirs, Path.ancestors_of_parent hparent, FileSystem.makeDirsIn, if_neg hempty,
    bind_apply] at h
  rcases hmade : system.ensureDir p t with ⟨e | u, t₁⟩
  · rw [hmade] at h
    cases e with
    | notFound =>
      obtain rfl := ensureDir_error hmade
      change (system.makeDirs above >>= _) t₁ = _ at h
      rw [bind_apply] at h
      rcases habove : system.makeDirs above t₁ with ⟨e | u, t₂⟩
      · rw [habove] at h
        obtain rfl : t₂ = t' := congrArg Prod.snd h
        exact .inr (.inl ⟨e, rfl⟩)
      · rw [habove] at h
        exact .inr (.inr ⟨t₂, rfl, h⟩)
    | _ => exact .inl h
  · rw [hmade] at h
    exact .inl h

end Files.Tree

namespace StatusFile

variable {s : StatusFile} {t t' t₁ u : Tree}

/-! ## Files that are absent -/

/-- **The file is absent**: its directory is there, and nothing in its place. -/
structure IsAbsent (s : StatusFile) (t : Tree) : Prop where
  leads : ∀ above, s.path.parent? = some above → t.Leads above
  clear : t.lookup (s.path.place t.home) = none

/-- **A file that is missing stays missing** when its directory is made: that can be done, and
nothing comes to stand in the file's place with it. -/
def StaysMissing (s : StatusFile) (t : Tree) : Prop :=
  t.read s.path = .error .notFound →
    ∃ u, s.makeParent Tree.system t = (.ok (), u) ∧ u.lookup (s.path.place t.home) = none

namespace IsAbsent

/-- Once its directory has been made, a file with nothing in its place is absent. -/
theorem of_makeParent (hmade : s.makeParent Tree.system t = (.ok (), u))
    (hclear : u.lookup (s.path.place t.home) = none) : s.IsAbsent u where
  leads above habove := by
    rw [makeParent, habove] at hmade
    exact Tree.leads_of_makeDirs hmade
  clear := by
    have hpaves : t.Paves u :=
      (s.makeParent_keeps (Tree.keeping_paves t.home [] fun _ _ => True)).of_eq hmade
    rwa [hpaves.home]

/-- The directory of an absent file need not be made. -/
theorem makeParent (h : s.IsAbsent t) : s.makeParent Tree.system t = (.ok (), t) := by
  rw [StatusFile.makeParent]
  cases habove : s.path.parent? with
  | none => rfl
  | some above => exact Tree.makeDirs_of_leads (h.leads above habove)

/-- **A file stays absent** as long as directories stay and nothing is put in its place. -/
theorem keeps {α : Type} {x : StateM Tree α} (own : Place → List Place)
    (hown : ∀ home, s.path.place home ∉ own home) (hpaves : Keeps Tree.Paves x)
    (hextends : ∀ home,
      Keeps (Tree.Extends home (own home) fun q _ => q ≠ s.path.place home) x) :
    Keeps (Kept s.IsAbsent) x := by
  intro t h
  have hways := hpaves t
  obtain ⟨-, hgrows⟩ := hextends t.home t rfl
  refine ⟨fun above habove => hways.leads (h.leads above habove), ?_⟩
  rw [hways.home]
  rcases hgrows.eq_or_new (s.path.place t.home) with hsame | ⟨-, n, -, hne⟩
  · simp only [Tree.outside, if_neg (hown t.home)] at hsame
    rw [hsame, h.clear]
  · contradiction

variable {dir : Path} {name new : String}

/-- **An absent file is read as one that is missing.** -/
theorem read (h : IsAbsent ⟨dir.join name⟩ t) (hname : IsName name)
    (hlength : name.utf8ByteSize ≤ Tree.maxNameBytes)
    (hrefusal : Tree.refusal? (dir.join name) = none) :
    t.read (dir.join name) = .error .notFound := by
  obtain ⟨above, habove⟩ := Path.exists_parent dir hname
  have hreaches : t.Reaches dir :=
    Tree.reaches_of_parent hname habove (h.leads above habove).reaches
  refine Tree.read_eq_notFound (hreaches.locate_join hname hlength hrefusal) ?_
  rw [← Path.place_join_name _ _ hname]
  exact h.clear

/-! ### A directory beside it -/

section Beside

variable (hname : IsName name) (hnew : IsName new) (hne : new ≠ name)

include hname hnew hne

theorem ensureDir_keeps :
    Keeps (Kept (IsAbsent ⟨dir.join name⟩)) (Tree.system.ensureDir (dir.join new)) := by
  refine FileSystem.ensureDir_keeps ?_ (.of_snd_eq fun _ => rfl)
  refine keeps (fun _ => []) (fun _ => List.not_mem_nil) (Tree.makeDir_paves _)
    fun home => Tree.makeDir_keeps ?_
  rw [Path.place_join_name _ _ hname, Path.place_join_name _ _ hnew]
  simpa using hne

/-- **A file stays absent when a directory is made beside it.** -/
theorem makeDirs_keeps :
    Keeps (Kept (IsAbsent ⟨dir.join name⟩)) (Tree.system.makeDirs (dir.join new)) := by
  intro t h
  obtain ⟨above, habove⟩ := Path.exists_parent dir hname
  have hleads := Tree.makeDirs_of_leads (h.leads above habove)
  rw [Path.parent?_join_congr dir hname hnew] at habove
  rcases hmade : Tree.system.makeDirs (dir.join new) t with ⟨answer, t'⟩
  rcases Tree.makeDirs_cases (Path.text_join_ne dir hnew) habove hmade with
    hensure | ⟨e, herror⟩ | ⟨t₁, hok, hensure⟩
  · exact (ensureDir_keeps hname hnew hne).of_eq hensure h
  · rw [hleads] at herror
    cases congrArg Prod.fst herror
  · rw [hleads] at hok
    obtain rfl : t = t₁ := congrArg Prod.snd hok
    exact (ensureDir_keeps hname hnew hne).of_eq hensure h

omit hne in
/-- A file stays absent when a file is made in a directory beside it. -/
theorem createNew_keeps {object : String} {path : Path} (content : ByteArray)
    (hpath : Directory.pathOf ⟨dir.join new⟩ object = .ok path) :
    Keeps (Kept (IsAbsent ⟨dir.join name⟩)) (Tree.system.createNew path content) := by
  refine keeps (fun _ => []) (fun _ => List.not_mem_nil) (Tree.createNew_paves _ _)
    fun home => Tree.createNew_keeps ?_
  rw [Directory.place_of_pathOf hpath home, Path.place_join_name _ _ hname,
    Path.place_join_name _ _ hnew, List.append_assoc]
  simp

/-- **A file stays absent when an object is created** in a directory beside it. -/
theorem create_keeps (o : ApiService) :
    Keeps (Kept (IsAbsent ⟨dir.join name⟩)) (Directory.create Tree.system ⟨dir.join new⟩ o) :=
  Directory.create_keeps_of_createNew (makeDirs_keeps hname hnew hne)
    fun _ hpath => createNew_keeps hname hnew _ hpath

end Beside

/-- **A file stays absent when its temporary file is written.** -/
theorem write_keeps (hname : s.path.fileName?.isSome = true) (content : ByteArray) :
    Keeps (Kept s.IsAbsent) (Tree.system.write s.temporary content) := by
  refine keeps (fun home => [s.temporary.place home]) (fun home hmem => ?_)
    (Tree.write_paves _ _) fun home => Tree.write_keeps List.mem_cons_self content
  exact temporary_ne hname home (List.mem_singleton.mp hmem).symm

end IsAbsent

/-! ## Files since a record was missing -/

/-- **Since a record was missing** nothing has happened, or its file is absent now. -/
def MissingSince (s : StatusFile) (t t₁ : Tree) : Prop := t₁ = t ∨ s.IsAbsent t₁

namespace MissingSince

section Record

variable (hmade : s.makeParent Tree.system t = (.ok (), u))
  (hclear : u.lookup (s.path.place t.home) = none)

include hmade hclear

/-- The directory of the file can be made, and then the file is absent. -/
theorem exists_makeParent (h : s.MissingSince t t₁) :
    ∃ t₂, s.makeParent Tree.system t₁ = (.ok (), t₂) ∧ s.IsAbsent t₂ := by
  rcases h with rfl | h
  · exact ⟨u, hmade, .of_makeParent hmade hclear⟩
  · exact ⟨t₁, h.makeParent, h⟩

/-- **Writing a record in vain** leaves it missing. -/
theorem update (h : s.MissingSince t t₁) (hname : s.path.fileName?.isSome = true)
    {change : OperatorState → OperatorState} {e : StoreError}
    (hupdate : s.update Tree.system change t₁ = (.error e, t')) : s.MissingSince t t' := by
  rw [StatusFile.update, bind_apply, snd_load_system] at hupdate
  cases hload : (s.load Tree.system t₁).1 with
  | error e' =>
    rw [hload] at hupdate
    obtain rfl : t₁ = t' := congrArg Prod.snd hupdate
    exact h
  | ok state =>
    rw [hload] at hupdate
    obtain ⟨t₂, hmade₂, habsent⟩ := exists_makeParent hmade hclear h
    obtain rfl := snd_of_save_error hmade₂ hupdate
    exact .inr (IsAbsent.write_keeps hname _ _ habsent)

end Record

section Beside

variable {dir : Path} {name new : String} (hname : IsName name) (hnew : IsName new)
  (hne : new ≠ name) (hmade : makeParent Tree.system ⟨dir.join name⟩ t = (.ok (), u))
  (hclear : u.lookup ((dir.join name).place t.home) = none)

include hname hnew hne hmade hclear

/-- When a directory is made beside a missing file, the file is absent, or nothing has been made. -/
theorem of_makeDirs {answer : Except FileError Unit}
    (h : Tree.system.makeDirs (dir.join new) t = (answer, t')) :
    IsAbsent ⟨dir.join name⟩ t' ∨ t' = t ∧ ∃ e, answer = .error e := by
  have hensures : Keeps (Kept (IsAbsent ⟨dir.join name⟩)) (Tree.system.ensureDir (dir.join new)) :=
    IsAbsent.ensureDir_keeps hname hnew hne
  obtain ⟨above, habove⟩ := Path.exists_parent dir hname
  have hparent : Tree.system.makeDirs above t = (.ok (), u) := by rwa [makeParent, habove] at hmade
  have habove' := habove
  rw [Path.parent?_join_congr dir hname hnew] at habove'
  rcases Tree.makeDirs_cases (Path.text_join_ne dir hnew) habove' h with
    hensure | ⟨e, herror⟩ | ⟨t₁, hok, hensure⟩
  · rcases answer with e | done
    · exact .inr ⟨Tree.ensureDir_error hensure, e, rfl⟩
    · -- the directory of both is there already
      obtain ⟨target, hlocate⟩ := Tree.exists_locate_of_ensureDir hensure
      have hreaches : t.Reaches dir :=
        Tree.reaches_of_locate_join hnew.separator hnew.empty hlocate
      have hleads : t.Leads above :=
        Tree.leads_of_reaches hparent (Tree.reaches_parent hname habove hreaches)
      obtain rfl : t = u :=
        congrArg Prod.snd ((Tree.makeDirs_of_leads hleads).symm.trans hparent)
      exact .inl (hensures.of_eq hensure (.of_makeParent hmade hclear))
  · rw [hparent] at herror
    cases congrArg Prod.fst herror
  · rw [hparent] at hok
    obtain rfl : u = t₁ := congrArg Prod.snd hok
    exact .inl (hensures.of_eq hensure (.of_makeParent hmade hclear))

/-- **Creating an object** in a directory beside a missing file leaves it missing. -/
theorem create (h : MissingSince ⟨dir.join name⟩ t t₁) (o : ApiService) :
    MissingSince ⟨dir.join name⟩ t
      (Directory.create Tree.system ⟨dir.join new⟩ o t₁).2 := by
  rcases h with rfl | h
  · rw [Directory.create]
    cases hpath : Directory.pathOf ⟨dir.join new⟩ o.name with
    | error e => exact .inl rfl
    | ok path =>
      dsimp only
      rw [bind_apply]
      rcases hdirs : Tree.system.makeDirs (dir.join new) t₁ with ⟨answer, t₂⟩
      rcases of_makeDirs hname hnew hne hmade hclear hdirs with habsent | ⟨rfl, e, rfl⟩
      · rcases answer with e | done
        · exact .inr habsent
        · exact .inr (((IsAbsent.createNew_keeps hname hnew _ hpath).bind fun created => by
            split <;> exact .pure _) t₂ habsent)
      · exact .inl rfl
  · exact .inr (IsAbsent.create_keeps hname hnew hne o t₁ h)

end Beside

end MissingSince

end StatusFile

end ApiAvailability
