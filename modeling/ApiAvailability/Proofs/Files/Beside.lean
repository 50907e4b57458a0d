import ApiAvailability.Proofs.Files.Reach
import Mathlib.Data.List.TakeWhile

/-!
# Proofs/Files/Beside — the directory of a file, and the files beside it

`Path.parent?` finds the directory of a file in the file's path, without the dots that stand for
nothing.  If that leads to a directory, the names in front of the file's do so too
(`Tree.reaches_of_parent`), and the directories above the file are this one and those above it
(`Path.ancestors_of_parent`).  With another extension a file is beside the one with the first, unless
it has no name any more (`Path.withExtension_beside`).
-/

namespace ApiAvailability.Files

namespace Path

variable {p dir : Path} {name : String}

/-! ## Segments -/

theorem not_mem_of_mem_splitOn {cs l : List Char} (h : l ∈ cs.splitOn '/') : '/' ∉ l := by
  induction cs generalizing l with
  | nil =>
    rw [List.splitOn_nil, List.mem_singleton] at h
    simp [h]
  | cons c cs ih =>
    rw [List.splitOn_cons_eq_if_modifyHead] at h
    split at h
    · rcases List.mem_cons.mp h with rfl | hrest
      · simp
      · exact ih hrest
    rename_i hc
    cases hcs : cs.splitOn '/' with
    | nil => simp [hcs] at h
    | cons first rest =>
      rw [hcs, List.modifyHead_cons] at h
      rcases List.mem_cons.mp h with rfl | hrest
      · have hfirst : '/' ∉ first := ih (hcs ▸ List.mem_cons_self)
        simp only [List.mem_cons, not_or]
        exact ⟨fun he => hc (beq_iff_eq.mpr he.symm), hfirst⟩
      · exact ih (hcs ▸ List.mem_cons_of_mem first hrest)

/-- No segment holds a separator. -/
theorem not_mem_of_mem_segments {segment : String} (h : segment ∈ p.segments) :
    '/' ∉ segment.toList := by
  obtain ⟨cs, hcs, rfl⟩ := List.mem_map.mp h
  rw [String.toList_ofList]
  exact not_mem_of_mem_splitOn hcs

/-- **A path is made of its segments** and of no other. -/
theorem segments_ofSegments {ss : List String} (hne : ss ≠ []) (h : ∀ s ∈ ss, '/' ∉ s.toList) :
    (ofSegments ss).segments = ss := by
  have hsplit : (['/'].intercalate (ss.map String.toList)).splitOn '/' = ss.map String.toList :=
    List.splitOn_intercalate '/' (by simpa using h) (by simpa using hne)
  have htext : (ofSegments ss).text.toList = ['/'].intercalate (ss.map String.toList) := by
    rw [ofSegments, String.toList_intercalate]
    rfl
  rw [segments, htext, hsplit, List.map_map]
  simp

/-- A path starts at the root if what stands in front of a separator in it does. -/
theorem isAbsolute_append {a : Path} (h : a.text ≠ "") (rest : String) :
    isAbsolute ⟨a.text ++ rest⟩ = a.isAbsolute := by
  have hne : a.text.toList ≠ [] := by simpa using h
  simp [isAbsolute, List.head?_append, List.head?_eq_some_head hne]

/-! ## The directory of a file -/

/-- A file is in a directory. -/
theorem exists_parent (dir : Path) (hname : IsName name) :
    ∃ above, (dir.join name).parent? = some above := by
  obtain ⟨front, -, hsegments⟩ := segments_join dir
  rw [parent?, reversed_of_segments (hsegments name hname.separator) hname.isVoid]
  simp only
  split
  · split
    · exact ⟨_, rfl⟩
    split <;> exact ⟨_, rfl⟩
  · exact ⟨_, rfl⟩

/-- The directory of a file does not depend on the file's name. -/
theorem parent?_join_congr (dir : Path) {new : String} (hname : IsName name) (hnew : IsName new) :
    (dir.join name).parent? = (dir.join new).parent? := by
  obtain ⟨front, -, hsegments⟩ := segments_join dir
  have hhead {file : String} (hfile : IsName file) :
      (dir.join file).segments.head? = some "." ↔ front.head? = some "." := by
    rw [hsegments file hfile.separator]
    cases front with
    | nil => simp [hfile.dot]
    | cons s front => rfl
  rw [parent?, parent?, reversed_of_segments (hsegments name hname.separator) hname.isVoid,
    reversed_of_segments (hsegments new hnew.separator) hnew.isVoid,
    isAbsolute_join dir hname.separator, isAbsolute_join dir hnew.separator]
  simp only [hhead hname, hhead hnew]

/-- What `parent?` leaves out of the names in front of a file's: segments that stand for nothing. -/
theorem names_of_parent {above : Path} (hname : IsName name)
    (hparent : (dir.join name).parent? = some above) :
    dir.isAbsolute = above.isAbsolute ∧ ∃ voids : List String, (∀ s ∈ voids, isVoid s = true) ∧
      Tree.names dir = Tree.names above ++ voids.filter (· ≠ "") := by
  obtain ⟨front, hfront, hsegments⟩ := segments_join dir
  have hjoin := hsegments name hname.separator
  rw [parent?, reversed_of_segments hjoin hname.isVoid] at hparent
  simp only at hparent
  cases hdrop : front.reverse.dropWhile isVoid with
  | nil =>
    have hvoids : ∀ s ∈ front, isVoid s = true := fun s hs =>
      List.dropWhile_eq_nil_iff.mp hdrop s (List.mem_reverse.mpr hs)
    rw [hdrop, isAbsolute_join dir hname.separator] at hparent
    simp only at hparent
    split at hparent
    · rename_i habsolute
      obtain rfl := Option.some.inj hparent
      exact ⟨habsolute, front, hvoids, hfront⟩
    rename_i hrelative
    rw [Bool.not_eq_true] at hrelative
    split at hparent
    · rename_i hhead
      obtain rfl := Option.some.inj hparent
      rw [hjoin] at hhead
      cases front with
      | nil => exact absurd (Option.some.inj hhead) hname.dot
      | cons s front =>
        obtain rfl : s = "." := Option.some.inj hhead
        exact ⟨hrelative, front, fun s hs => hvoids s (List.mem_cons_of_mem _ hs), hfront⟩
    · obtain rfl := Option.some.inj hparent
      exact ⟨hrelative, front, hvoids, hfront⟩
  | cons s ss =>
    rw [hdrop] at hparent
    have habove : above = ofSegments (s :: ss).reverse := (Option.some.inj hparent).symm
    let voids := (front.reverse.takeWhile isVoid).reverse
    have hsplit : front = (s :: ss).reverse ++ voids := by
      rw [← hdrop, ← List.reverse_append, List.takeWhile_append_dropWhile, List.reverse_reverse]
    have hvoids : ∀ s ∈ voids, isVoid s = true := fun s hs =>
      List.all_eq_true.mp List.all_takeWhile s (List.mem_reverse.mp hs)
    have habovesegments : above.segments = (s :: ss).reverse := by
      rw [habove]
      refine segments_ofSegments (by simp) fun s' hs' => ?_
      refine @not_mem_of_mem_segments (dir.join name) s' ?_
      rw [hjoin, hsplit]
      exact List.mem_append_left _ (List.mem_append_left _ hs')
    have habovetext : above.text ≠ "" := by
      intro hempty
      have hsegment : above.segments = [""] := by
        rw [segments, hempty]
        rfl
      have hhead := List.head?_dropWhile_not isVoid front.reverse
      rw [habovesegments, List.reverse_eq_iff] at hsegment
      rw [hdrop, hsegment] at hhead
      contradiction
    refine ⟨?_, voids, hvoids, ?_⟩
    · have htext : dir.join name = ⟨above.text ++ ("/" ++ "/".intercalate (voids ++ [name]))⟩ := by
        rw [← ofSegments_segments (dir.join name), hjoin, hsplit, List.append_assoc, ofSegments,
          String.intercalate_append_of_ne_nil (by simp) (by simp), String.append_assoc, habove]
        rfl
      rw [← isAbsolute_join dir hname.separator, htext, isAbsolute_append habovetext]
    · rw [hfront, hsplit, List.filter_append, Tree.names, habovesegments]

/-! ## The directories above a path -/

/-- A directory above has fewer segments, or none above itself. -/
theorem length_segments_parent {above : Path} (h : p.parent? = some above) :
    above.segments.length < p.segments.length ∨ above.parent? = none := by
  have hreversed : p.reversed <:+ p.segments.reverse := List.dropWhile_suffix _
  rw [parent?] at h
  cases hbefore : p.reversed with
  | nil =>
    rw [hbefore] at h
    simp only at h
    split at h
    · contradiction
    obtain rfl := Option.some.inj h
    exact .inr rfl
  | cons name before =>
    have hlength := hreversed.length_le
    rw [hbefore, List.length_cons, List.length_reverse] at hlength
    rw [hbefore] at h
    simp only at h
    cases hdrop : before.dropWhile isVoid with
    | nil =>
      rw [hdrop] at h
      simp only at h
      split at h
      · obtain rfl := Option.some.inj h
        exact .inr rfl
      split at h
      · rename_i hhead
        obtain rfl := Option.some.inj h
        -- a path of one dot has no segment that stands for something
        obtain ⟨rest, hsegments⟩ := List.head?_eq_some_iff.mp hhead
        cases rest with
        | nil =>
          rw [reversed, hsegments] at hbefore
          contradiction
        | cons s rest =>
          rw [hsegments]
          exact .inl (Nat.succ_lt_succ (Nat.succ_pos _))
      · obtain rfl := Option.some.inj h
        exact .inr rfl
    | cons s ss =>
      rw [hdrop] at h
      obtain rfl := Option.some.inj h
      have hdropped : (s :: ss) <:+ before := hdrop ▸ List.dropWhile_suffix _
      refine .inl ?_
      rw [segments_ofSegments (by simp) fun s' hs' => ?_, List.length_reverse]
      · exact Nat.lt_of_lt_of_le (Nat.lt_succ_of_le hdropped.length_le) hlength
      · refine @not_mem_of_mem_segments p s' (List.mem_reverse.mp (hreversed.mem ?_))
        rw [hbefore]
        exact List.mem_cons_of_mem name (hdropped.mem (List.mem_reverse.mp hs'))

/-- More than a path's segments need not be looked at to find the directories above it. -/
theorem ancestorsWithin_eq {n : Nat} (h : p.segments.length ≤ n ∨ p.parent? = none) :
    ancestorsWithin n p = p.ancestors := by
  induction n using Nat.strongRecOn generalizing p with
  | ind n ih =>
    obtain ⟨m, hm⟩ : ∃ m, p.segments.length = m + 1 := by
      refine Nat.exists_eq_succ_of_ne_zero fun hzero => ?_
      rw [segments, List.length_map, List.length_eq_zero_iff] at hzero
      exact List.splitOn_ne_nil _ _ hzero
    rw [ancestors, hm, ancestorsWithin]
    cases hparent : p.parent? with
    | none => cases n <;> simp [ancestorsWithin, hparent]
    | some above =>
      rw [hparent, hm] at h
      obtain ⟨k, rfl⟩ := Nat.exists_eq_add_of_le' (h.resolve_right (Option.some_ne_none above))
      have habove := length_segments_parent hparent
      rw [hm] at habove
      rw [← Nat.add_assoc, ancestorsWithin, hparent]
      have hk : ancestorsWithin (k + m) above = above.ancestors :=
        ih (k + m) (by omega) (habove.imp_left fun hlt => by omega)
      have hm' : ancestorsWithin m above = above.ancestors :=
        ih m (by omega) (habove.imp_left fun hlt => by omega)
      simp only [hk, hm']

/-- **The directories above a path** are its directory and those above that. -/
theorem ancestors_of_parent {above : Path} (h : p.parent? = some above) :
    p.ancestors = p :: above.ancestors := by
  have hlong : ancestorsWithin (p.segments.length + 1) p = p.ancestors :=
    ancestorsWithin_eq (.inl (Nat.le_succ _))
  rw [← hlong, ancestorsWithin, h]
  exact congrArg (p :: ·) (ancestorsWithin_eq ((length_segments_parent h).imp_left Nat.le_of_lt))

/-! ## Another extension -/

/-- A name has no extension, or it is split at its last dot. -/
theorem splitName_cases (name : String) : splitName name = (name, none) ∨
    ∃ base ext, base ≠ "" ∧ '.' ∉ ext.toList ∧ name = base ++ "." ++ ext := by
  rw [splitName]
  split
  · rename_i d c cs hdrop
    refine .inr ⟨.ofList (c :: cs).reverse,
      .ofList (name.toList.reverse.takeWhile (· ≠ '.')).reverse, by simp, ?_, ?_⟩
    · rw [String.toList_ofList, List.mem_reverse]
      intro hdot
      have htaken := List.all_eq_true.mp List.all_takeWhile _ hdot
      simp at htaken
    · have hd : d = '.' := by
        have hhead := List.head?_dropWhile_not (· ≠ '.') name.toList.reverse
        rw [hdrop] at hhead
        simpa using hhead
      have hchars : name.toList = (name.toList.reverse.takeWhile (· ≠ '.') ++
          name.toList.reverse.dropWhile (· ≠ '.')).reverse := by
        rw [List.takeWhile_append_dropWhile, List.reverse_reverse]
      refine String.ext (hchars.trans ?_)
      rw [hdrop, hd]
      simp
  · exact .inl rfl

/-- A name without an extension gets one. -/
theorem withExtension_join_of_none (dir : Path) (hname : IsName name)
    (hnone : splitName name = (name, none)) {ext : String} (hsep : '/' ∉ ext.toList) :
    (dir.join name).withExtension ext = dir.join (name ++ "." ++ ext) := by
  have hfileName := fileName?_join dir hname.separator hname.isVoid hname.dots
  have hextension : (dir.join name).extension? = none := by
    rw [extension?, hfileName, Option.bind_some, hnone]
  obtain ⟨front, hfront⟩ := reversed_join dir
  obtain ⟨-, hreversed⟩ := hfront name hname.separator hname.isVoid
  rw [withExtension, hextension, setExtension, hfileName, hreversed]
  simp only [hnone]
  rw [List.reverse_cons, List.reverse_reverse,
    (hfront _ (not_mem_append hname.separator hsep) (isVoid_append hname.empty)).1]

/-- A name that has only a dot in front of its extension has no name left without it. -/
theorem withExtension_join_dots (dir : Path) {old : String} (hname : IsName ("." ++ "." ++ old))
    (hold : '.' ∉ old.toList) (ext : String) :
    (dir.join ("." ++ "." ++ old)).withExtension ext = dir.join ".." := by
  have hbase : "." ≠ "" := by decide
  have hsepold : '/' ∉ old.toList := by
    have hsep := hname.separator
    simp only [String.toList_append, List.mem_append, not_or] at hsep
    exact hsep.2
  have hextension : (dir.join ("." ++ "." ++ old)).extension? = some old := by
    rw [extension?, fileName?_join dir hname.separator (isVoid_append hbase) hname.dots,
      Option.bind_some, splitName_append hbase hold]
  obtain ⟨front, hfront⟩ := reversed_join dir
  have hfileName : (dir.join "..").fileName? = none := by
    rw [fileName?, (hfront ".." (by decide) rfl).2]
    rfl
  have hcut : "." ++ "." ++ "" = ".." := rfl
  rw [withExtension, hextension]
  simp only
  rw [cut_join dir (by decide) hsepold, hcut, setExtension, hfileName]

/-- **With another extension a file is beside the one with the first**, unless what is left of its
name is two dots. -/
theorem withExtension_beside (dir : Path) (hname : IsName name) {ext : String}
    (hsep : '/' ∉ ext.toList) (hdot : '.' ∈ ext.toList) :
    ∃ new, (dir.join name).withExtension ext = dir.join new ∧ '/' ∉ new.toList ∧
      (new = ".." ∨ new ≠ name) := by
  rcases splitName_cases name with hnone | ⟨base, old, hbase, hold, rfl⟩
  · refine ⟨name ++ "." ++ ext, withExtension_join_of_none dir hname hnone hsep,
      not_mem_append hname.separator hsep, .inr fun he => ?_⟩
    have hlength := congrArg String.length he
    have hone : ".".length = 1 := rfl
    rw [String.length_append, String.length_append, hone] at hlength
    omega
  by_cases hbasedot : base = "."
  · subst hbasedot
    exact ⟨"..", withExtension_join_dots dir hname hold ext, by decide, .inl rfl⟩
  obtain ⟨⟨hsepbase, -⟩, hsepold⟩ :
      ('/' ∉ base.toList ∧ '/' ∉ ".".toList) ∧ '/' ∉ old.toList := by simpa using hname.separator
  refine ⟨base ++ "." ++ ext, withExtension_join dir hbase hbasedot hsepbase hsepold hsep hold,
    not_mem_append hsepbase hsep, .inr fun he => ?_⟩
  have hext : ext = old := by simpa [String.ext_iff] using he
  exact hold (hext ▸ hdot)

/-- **A path that a file may have**: it ends with a name, and neither that nor the whole is too
long. -/
structure IsLegal (p : Path) : Prop where
  refusal : Tree.refusal? p = none
  name : ∃ dir name, p = join dir name ∧ IsName name ∧ name.utf8ByteSize ≤ Tree.maxNameBytes

theorem IsLegal.of_join (h : (dir.join name).IsLegal) (hsep : '/' ∉ name.toList) :
    IsName name ∧ name.utf8ByteSize ≤ Tree.maxNameBytes := by
  obtain ⟨dir', name', hjoin, hname', hlength⟩ := h.name
  obtain ⟨front, -, hfront⟩ := segments_join dir
  obtain ⟨front', -, hfront'⟩ := segments_join dir'
  have hsegments := congrArg segments hjoin
  rw [hfront name hsep, hfront' name' hname'.separator] at hsegments
  obtain ⟨-, rfl⟩ := List.append_singleton_inj.mp hsegments
  exact ⟨hname', hlength⟩

end Path

namespace Tree

open Files.Path

variable {t : Tree} {dir above : Path} {name : String}

/-- Segments that stand for nothing lead nowhere else. -/
theorem foldlM_enter_void {ss : List String} (h : ∀ s ∈ ss, isVoid s = true) (q : Place) :
    (ss.filter (· ≠ "")).foldlM t.enter q = .ok q := by
  induction ss with
  | nil => rfl
  | cons s ss ih =>
    have hrest := ih fun s' hs' => h s' (List.mem_cons_of_mem s hs')
    by_cases hempty : s = ""
    · rwa [List.filter_cons_of_neg (by simp [hempty])]
    · have hdot : s = "." := by simpa [isVoid, hempty] using h s List.mem_cons_self
      have henter : t.enter q s = .ok q := if_pos hdot
      rw [List.filter_cons_of_pos (by simp [hempty]), List.foldlM_cons, henter]
      exact hrest

/-- **The names in front of a file's lead where the file's directory does.** -/
theorem reaches_of_parent (hname : IsName name) (hparent : (dir.join name).parent? = some above)
    (h : t.Reaches above) : t.Reaches dir := by
  obtain ⟨habsolute, voids, hvoids, hnames⟩ := names_of_parent hname hparent
  have hstart : t.start dir = t.start above := by rw [start, start, habsolute]
  refine @reaches_of_foldlM t dir (above.place t.home) ?_
  rw [Reaches] at h
  rw [hnames, List.foldlM_append, hstart, h]
  exact foldlM_enter_void hvoids _

/-- And so do the directory's, where the names in front of a file's do. -/
theorem reaches_parent (hname : IsName name) (hparent : (dir.join name).parent? = some above)
    (h : t.Reaches dir) : t.Reaches above := by
  obtain ⟨habsolute, voids, -, hnames⟩ := names_of_parent hname hparent
  have hstart : t.start dir = t.start above := by rw [start, start, habsolute]
  rw [Reaches, hnames, List.foldlM_append, hstart] at h
  cases hfront : (names above).foldlM t.enter (t.start above) with
  | error e =>
    rw [hfront] at h
    cases h
  | ok q => exact reaches_of_foldlM hfront

/-- A legal path is found if the names in front of its last lead somewhere. -/
theorem Reaches.locate_legal (hdir : t.Reaches dir) (h : (dir.join name).IsLegal)
    (hsep : '/' ∉ name.toList) :
    t.locate (dir.join name) = .ok (.entry ((dir.join name).place t.home) false) := by
  obtain ⟨hname, hlength⟩ := h.of_join hsep
  have hlocate := hdir.locate_join hname hlength h.refusal
  rwa [(locate_entry hlocate).1] at hlocate

end Tree

end ApiAvailability.Files
