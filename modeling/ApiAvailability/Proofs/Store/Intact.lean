import ApiAvailability.Proofs.Files.Extension
import ApiAvailability.Proofs.Store.StatusFile

/-!
# Proofs/Store/Intact — a record is changed as a whole or not at all

A record is written to a temporary file, which then takes the place of the record's.  Whatever fails
on the way, be it for lack of a directory or for want of room, the record's file holds what it held,
and where there was none there is none.  What may be there then is a directory, where the way to the
record goes through its own place, as in `a/../a`.

* `StatusFile.temporary_ne` — the temporary file is another one, for every path that ends in a name;
* `StatusFile.replaces` — what changing a record does to the files, if it succeeds and if it fails.
-/

namespace ApiAvailability.StatusFile

open Files

variable {s : StatusFile} {t t' : Tree} {home : Place} {state : OperatorState}

/-- **The temporary file is not the record's.** -/
theorem temporary_ne (h : s.path.fileName?.isSome = true) (home : Place) :
    s.temporary.place home ≠ s.path.place home :=
  Path.place_withExtension_ne h (by decide) (by decide) home

/-- Whether a node may be new where a record is written: a directory on the way to the file. -/
def MayMake (s : StatusFile) (home q : Place) (n : Node) : Prop :=
  (∃ dir, s.path.parent? = some dir ∧ dir.OnWay home q) ∧ n = .directory

theorem makeParent_extends (s : StatusFile) (home : Place) (own : List Place) :
    Keeps (Tree.Extends home own (s.MayMake home)) (s.makeParent Tree.system) := by
  rw [makeParent]
  split
  · rename_i dir hdir
    exact Tree.makeDirs_keeps fun q hq => ⟨⟨dir, hdir, hq⟩, rfl⟩
  · exact .pure _

/-- **What changing a record does to the files**, in view of the answer. -/
structure Replaces (s : StatusFile) (change : OperatorState → OperatorState) (t : Tree)
    (answer : Except StoreError Unit) (t' : Tree) : Prop where
  home : t'.home = t.home
  /-- In vain, there is at the place of the file what was there.  Only where nothing was there may be
  a directory now, if the place is on the way to the file's directory. -/
  kept : ∀ e, answer = .error e →
    t'.lookup (s.path.place t.home) = t.lookup (s.path.place t.home) ∨
      t.lookup (s.path.place t.home) = none ∧
        t'.lookup (s.path.place t.home) = some .directory ∧
          s.MayMake t.home (s.path.place t.home) .directory
  /-- In vain, the file is read if it was. -/
  found : ∀ e, answer = .error e → ∀ content,
    t.read s.path = .ok content → t'.read s.path = .ok content
  /-- Otherwise it holds the record, changed. -/
  done : answer = .ok () → ∃ state, s.load Tree.system t = (.ok state, t) ∧
    t'.read s.path = .ok (document (change state)).toUTF8
  /-- There is no temporary file any more. -/
  gone : answer = .ok () → t.lookup (s.temporary.place t.home) ≠ some .directory ∧
    t'.lookup (s.temporary.place t.home) = none
  /-- Elsewhere nothing is lost or changed, and only directories on the way are new. -/
  grows : answer = .ok () →
    Grows (s.MayMake t.home) (t.outside (s.places t.home)) (t'.outside (s.places t.home))

/-- **Changing a record in vain** leaves what is at the place of its file, or, where nothing was,
makes a directory on the way to it. -/
theorem lookup_of_error {change : OperatorState → OperatorState} {e : StoreError}
    (hname : s.path.fileName?.isSome = true)
    (h : s.update Tree.system change t = (.error e, t')) :
    t'.lookup (s.path.place t.home) = t.lookup (s.path.place t.home) ∨
      t.lookup (s.path.place t.home) = none ∧
        t'.lookup (s.path.place t.home) = some .directory ∧
          s.MayMake t.home (s.path.place t.home) .directory := by
  let own := [s.temporary.place t.home]
  have hown : s.path.place t.home ∉ own :=
    fun hmem => temporary_ne hname t.home (List.mem_singleton.mp hmem).symm
  have hspares : Spares (Tree.Extends t.home own (s.MayMake t.home))
      (s.update Tree.system change) :=
    update_spares_of_makeParent Tree.read_keeps (makeParent_extends s t.home own)
      (Tree.write_keeps List.mem_cons_self) Tree.rename_spares change
  obtain ⟨-, hgrows⟩ := hspares e t t' h rfl
  rcases hgrows.eq_or_new (s.path.place t.home) with hsame | ⟨hnone, n, hnew, hmay⟩
  · simp only [Tree.outside, if_neg hown] at hsame
    exact .inl hsame
  · simp only [Tree.outside, if_neg hown] at hnone hnew
    obtain rfl : n = .directory := hmay.2
    exact .inr ⟨hnone, hnew, hmay⟩

/-- A record that was read is read after it was changed in vain. -/
theorem read_of_error {change : OperatorState → OperatorState} {e : StoreError}
    (hname : s.path.fileName?.isSome = true)
    (h : s.update Tree.system change t = (.error e, t')) {content : ByteArray}
    (hread : t.read s.path = .ok content) : t'.read s.path = .ok content := by
  have hpaves : t.Paves t' :=
    (s.update_keeps (Tree.keeping_paves t.home (s.places t.home) fun _ _ => True)
      (fun _ hq => hq) change).of_eq h
  have hthere := (Tree.read_eq_ok hread).2
  refine hpaves.read hread ?_
  rcases lookup_of_error hname h with hsame | ⟨hnone, -⟩
  · rw [hsame, hthere]
  · rw [hnone] at hthere
    contradiction

/-- **Putting a record into its file** changes nothing elsewhere, but that directories on the way may
be new, and that there is no temporary file any more. -/
theorem elsewhere_of_save (hname : s.path.fileName?.isSome = true)
    (h : s.save Tree.system state t = (.ok (), t')) :
    t'.home = t.home ∧ t.lookup (s.temporary.place t.home) ≠ some .directory ∧
      t'.lookup (s.temporary.place t.home) = none ∧
      Grows (s.MayMake t.home) (t.outside (s.places t.home)) (t'.outside (s.places t.home)) := by
  obtain ⟨t₁, t₂, hmade, hwrite, hrename⟩ := save_eq_ok h
  obtain ⟨hhome, hgrows⟩ := (makeParent_extends s t.home (s.places t.home)).of_eq hmade rfl
  have hpaves : t.Paves t₁ :=
    (s.makeParent_keeps (Tree.keeping_paves t.home [] fun _ _ => True)).of_eq hmade
  obtain ⟨hlocate, hfree, ht₂⟩ := Tree.write_eq_ok hwrite
  obtain ⟨content, -, hlocate', ht'⟩ := Tree.rename_eq_ok hrename
  have hhome₂ : t₂.home = t.home := by
    rw [ht₂]
    exact hhome
  rw [hhome] at hfree ht₂ hlocate
  rw [hhome₂] at ht' hlocate'
  have hpath : s.path.place t.home ∈ s.places t.home := List.mem_cons_self
  have htemporary : s.temporary.place t.home ∈ s.places t.home :=
    List.mem_cons_of_mem _ List.mem_cons_self
  refine ⟨ht' ▸ hhome₂, fun hthere => hfree (hpaves.directory _ hthere), ?_, ?_⟩
  · rw [ht', Tree.lookup_put_of_ne (temporary_ne hname t.home).symm]
    exact Tree.lookup_drop_self (Tree.locate_entry hlocate).2
  · rw [ht', Tree.outside_put_of_mem _ hpath, Tree.outside_drop_of_mem htemporary, ht₂,
      Tree.outside_put_of_mem _ htemporary]
    exact hgrows

/-- **A record is changed as a whole or not at all.** -/
theorem replaces (hname : s.path.fileName?.isSome = true)
    (change : OperatorState → OperatorState) (t : Tree) :
    s.Replaces change t (s.update Tree.system change t).1 (s.update Tree.system change t).2 := by
  have hhome : (s.update Tree.system change t).2.home = t.home :=
    (s.update_keeps (Tree.keeping_paves t.home (s.places t.home) fun _ _ => True)
      (fun _ hq => hq) change t).home
  rcases hupdate : s.update Tree.system change t with ⟨e | u, t'⟩
  · rw [hupdate] at hhome
    refine ⟨hhome, fun _ _ => lookup_of_error hname hupdate,
      fun _ _ _ => read_of_error hname hupdate, ?_, ?_, ?_⟩ <;> exact nofun
  · obtain ⟨state, hload, hsave⟩ := update_eq_ok hupdate
    obtain ⟨-, hfree, hgone, hgrows⟩ := elsewhere_of_save hname hsave
    rw [hupdate] at hhome
    exact ⟨hhome, nofun, nofun, fun _ => ⟨state, hload, read_of_save hsave⟩, fun _ => ⟨hfree, hgone⟩,
      fun _ => hgrows⟩

end ApiAvailability.StatusFile
