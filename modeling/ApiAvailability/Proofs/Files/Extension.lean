import ApiAvailability.Proofs.Files.Beside

/-!
# Proofs/Files/Extension — a path with another extension names another place

What stands behind the name of a file in its path may be separators and dots, and the extension is
cut off from the end of all that.  Still the name is the only part that changes
(`Path.segments_cut`), so that the place of the path with the new extension is another one
(`Path.place_withExtension_ne`), even where no name is left.
-/

namespace ApiAvailability.Files.Path

variable {p : Path} {front voids : List String} {name ext : String} {home : Place}

/-! ## A name, and what stands behind it -/

/-- **The segments of a path that ends in a name**: behind that there are only some that stand for
nothing. -/
theorem exists_segments (h : p.fileName? = some name) : ∃ front voids,
    p.segments = front ++ name :: voids ∧ (∀ s ∈ voids, isVoid s = true) ∧ IsName name := by
  cases hreversed : p.reversed with
  | nil =>
    rw [fileName?, hreversed] at h
    contradiction
  | cons last before =>
    rw [fileName?, hreversed] at h
    obtain ⟨hdots, hlast⟩ : last ≠ ".." ∧ last = name := by simpa using h
    subst last
    rw [reversed] at hreversed
    let voids := (p.segments.reverse.takeWhile isVoid).reverse
    have hsegments : p.segments = before.reverse ++ name :: voids := by
      have hsplit := congrArg List.reverse
        (@List.takeWhile_append_dropWhile _ isVoid p.segments.reverse)
      rw [hreversed, List.reverse_append, List.reverse_reverse] at hsplit
      simpa using hsplit.symm
    have hvoid : isVoid name = false := by
      have hhead := List.head?_dropWhile_not isVoid p.segments.reverse
      rw [hreversed] at hhead
      simpa using hhead
    obtain ⟨hempty, hdot⟩ : name ≠ "" ∧ name ≠ "." := by simpa [isVoid] using hvoid
    refine ⟨before.reverse, voids, hsegments, fun s hs => ?_, ?_, hempty, hdot, hdots⟩
    · exact List.all_eq_true.mp List.all_takeWhile s (List.mem_reverse.mp hs)
    · refine @not_mem_of_mem_segments p name ?_
      rw [hsegments]
      exact List.mem_append_right _ List.mem_cons_self

theorem reversed_of_voids (h : p.segments = front ++ name :: voids)
    (hvoids : ∀ s ∈ voids, isVoid s = true) (hname : isVoid name = false) :
    p.reversed = name :: front.reverse := by
  rw [reversed, h, List.reverse_append, List.reverse_cons, List.append_assoc,
    List.dropWhile_append_of_pos (by simpa using hvoids), List.singleton_append,
    List.dropWhile_cons_of_neg (by simp [hname])]

/-- Where names stand that follow some segments of a path. -/
def standing (home : Place) (front : List String) : Place :=
  (front.filter (· ≠ "")).foldl follow (if front.head? = some "" then [] else home)

/-- A path starts at the root if its first segment is empty and not the only one. -/
theorem isAbsolute_of_segments (h : p.segments = front ++ name :: voids) (hname : name ≠ "") :
    p.isAbsolute = decide (front.head? = some "") := by
  rw [isAbsolute]
  rw [segments] at h
  cases hchars : p.text.toList with
  | nil =>
    rw [hchars] at h
    cases front with
    | nil => exact absurd (List.cons.inj h).1.symm hname
    | cons first front => cases front <;> cases (List.cons.inj h).2
  | cons c cs =>
    have hhead := congrArg List.head? h
    rw [hchars, List.splitOn_cons_eq_if_modifyHead] at hhead
    by_cases hc : c = '/'
    · rw [if_pos (beq_iff_eq.mpr hc)] at hhead
      cases front with
      | nil => exact absurd (Option.some.inj hhead).symm hname
      | cons first front =>
        have hfirst : first = "" := (Option.some.inj hhead).symm
        simp [hc, hfirst]
    · rw [if_neg (by simpa using hc), List.head?_map, List.head?_modifyHead] at hhead
      cases front with
      | nil => simp [hc]
      | cons first front =>
        have hfirst : first ≠ "" := by
          rintro rfl
          obtain ⟨cs', hcs, hempty⟩ := Option.map_eq_some_iff.mp hhead
          obtain ⟨cs'', -, rfl⟩ := Option.map_eq_some_iff.mp hcs
          simp at hempty
        simp [hc, hfirst]

/-- **The place of a path is that of its name**; what stands for nothing leads on to nowhere. -/
theorem place_of_segments (h : p.segments = front ++ name :: voids) (hname : name ≠ "")
    (hvoids : ∀ s ∈ voids, isVoid s = true) (home : Place) :
    p.place home = follow (standing home front) name := by
  have hstay (q : Place) : (voids.filter (· ≠ "")).foldl follow q = q := by
    clear h
    induction voids with
    | nil => rfl
    | cons s ss ih =>
      have hrest := ih fun s' hs' => hvoids s' (List.mem_cons_of_mem s hs')
      by_cases hempty : s = ""
      · rwa [List.filter_cons_of_neg (by simp [hempty])]
      · have hdot : s = "." := by simpa [isVoid, hempty] using hvoids s List.mem_cons_self
        rw [List.filter_cons_of_pos (by simp [hempty]), List.foldl_cons, follow, if_pos hdot]
        exact hrest
  rw [place, Tree.names, h, List.filter_append, List.filter_cons_of_pos (by simpa using hname),
    List.foldl_append, List.foldl_cons, hstay, isAbsolute_of_segments h hname, standing]
  simp only [decide_eq_true_eq]

/-! ## Cutting from the end -/

/-- What texts begin with, they begin with between separators. -/
theorem prefix_of_splitOn {cs ds : List Char} (h : cs <+: ds) {n : Nat} {piece : List Char}
    (hpiece : (cs.splitOn '/')[n]? = some piece) :
    ∃ whole, (ds.splitOn '/')[n]? = some whole ∧ piece <+: whole := by
  induction cs generalizing ds n piece with
  | nil =>
    obtain ⟨rfl, rfl⟩ : n = 0 ∧ [] = piece := by
      cases n with
      | zero => exact ⟨rfl, Option.some.inj hpiece⟩
      | succ n => cases hpiece
    cases hds : ds.splitOn '/' with
    | nil => exact absurd hds (List.splitOn_ne_nil '/' ds)
    | cons first rest => exact ⟨first, rfl, List.nil_prefix⟩
  | cons c cs ih =>
    obtain ⟨rest, rfl⟩ := h
    have hcs : cs <+: cs ++ rest := List.prefix_append cs rest
    rw [List.splitOn_cons_eq_if_modifyHead] at hpiece
    rw [List.cons_append, List.splitOn_cons_eq_if_modifyHead]
    by_cases hc : (c == '/') = true
    · rw [if_pos hc] at hpiece ⊢
      cases n with
      | zero => exact ⟨[], rfl, Option.some.inj hpiece ▸ List.nil_prefix⟩
      | succ n => exact ih hcs hpiece
    · rw [if_neg hc, List.getElem?_modifyHead] at hpiece ⊢
      cases n with
      | zero =>
        obtain ⟨piece, hpiece', rfl⟩ := Option.map_eq_some_iff.mp hpiece
        obtain ⟨whole, hwhole, hbegins⟩ := ih hcs hpiece'
        exact ⟨c :: whole, congrArg (Option.map (c :: ·)) hwhole,
          List.cons_prefix_cons.mpr ⟨rfl, hbegins⟩⟩
      | succ n => exact ih hcs hpiece

theorem prefix_of_segments {a b : Path} (h : a.text.toList <+: b.text.toList) {n : Nat}
    {piece : String} (hpiece : a.segments[n]? = some piece) :
    ∃ whole, b.segments[n]? = some whole ∧ piece.toList <+: whole.toList := by
  rw [segments, List.getElem?_map] at hpiece
  obtain ⟨cs, hcs, rfl⟩ := Option.map_eq_some_iff.mp hpiece
  obtain ⟨ds, hds, hbegins⟩ := prefix_of_splitOn h hcs
  refine ⟨.ofList ds, ?_, by simpa using hbegins⟩
  rw [segments, List.getElem?_map, hds, Option.map_some]

/-- What begins a segment that stands for nothing stands for nothing. -/
theorem isVoid_of_prefix {a b : String} (h : a.toList <+: b.toList) (hb : isVoid b = true) :
    isVoid a = true := by
  have hempty (hnil : a.toList = []) : isVoid a = true := by
    simp [isVoid, String.toList_eq_nil_iff.mp hnil]
  obtain rfl | rfl : b = "" ∨ b = "." := by simpa [isVoid] using hb
  · exact hempty (List.prefix_nil.mp h)
  · rcases List.prefix_cons_iff.mp h with hnil | ⟨cs, hcs, hrest⟩
    · exact hempty hnil
    · have ha : a = "." := String.ext (by rw [hcs, List.prefix_nil.mp hrest]; rfl)
      simp [isVoid, ha]

/-- A text from segments, split within one of them. -/
theorem intercalate_split (front : List String) (a b : String) (behind : List String) :
    "/".intercalate (front ++ (a ++ b) :: behind) =
      "/".intercalate (front ++ [a]) ++ "/".intercalate (b :: behind) := by
  by_cases hfront : front = []
  · subst hfront
    rw [List.nil_append, List.nil_append, String.intercalate_cons_append,
      String.intercalate_singleton]
  · rw [String.intercalate_append_of_ne_nil hfront (List.cons_ne_nil _ _),
      String.intercalate_append_of_ne_nil hfront (List.cons_ne_nil _ _),
      String.intercalate_cons_append, String.intercalate_singleton, String.append_assoc,
      String.append_assoc, String.append_assoc]

theorem intercalate_segments (p : Path) : "/".intercalate p.segments = p.text :=
  congrArg text (ofSegments_segments p)

/-- What follows a front of segments continues the last one of them. -/
theorem segments_behind {rest : Path} {base left : String} (hfront : ∀ s ∈ front, '/' ∉ s.toList)
    (hbase : '/' ∉ base.toList) (h : rest.segments = left :: voids) :
    (mk ("/".intercalate (front ++ [base]) ++ rest.text)).segments =
      front ++ (base ++ left) :: voids := by
  have hrest : ∀ s ∈ left :: voids, '/' ∉ s.toList := fun s hs =>
    @not_mem_of_mem_segments rest s (h ▸ hs)
  have hmade : mk ("/".intercalate (front ++ [base]) ++ rest.text) =
      ofSegments (front ++ (base ++ left) :: voids) := by
    rw [ofSegments, intercalate_split, ← h, intercalate_segments]
  rw [hmade]
  refine segments_ofSegments (by simp) fun s hs => ?_
  rcases List.mem_append.mp hs with hs | hs
  · exact hfront s hs
  rcases List.mem_cons.mp hs with rfl | hs
  · rw [String.toList_append, List.mem_append, not_or]
    exact ⟨hbase, hrest left List.mem_cons_self⟩
  · exact hrest s (List.mem_cons_of_mem left hs)

/-- The path without its last characters, as many as `n`. -/
def cut (p : Path) (n : Nat) : Path := ⟨.ofList (p.text.toList.take (p.text.length - n))⟩

theorem text_cut_prefix (p : Path) (n : Nat) : (p.cut n).text.toList <+: p.text.toList := by
  simpa [cut] using List.take_prefix _ _

/-- Cutting from the end leaves the front. -/
theorem cut_mk_append (start : String) {n : Nat} (h : n ≤ p.text.length) :
    (mk (start ++ p.text)).cut n = ⟨start ++ (p.cut n).text⟩ := by
  refine congrArg mk (String.ext ?_)
  rw [String.length_append, Nat.add_sub_assoc h, String.toList_append, ← String.length_toList,
    List.take_length_add_append, String.toList_append]
  simp [cut]

/-- **Cutting an extension from the end of a path** leaves all that stands in front of it. -/
theorem segments_cut {base old : String} (h : p.segments = front ++ (base ++ old) :: voids)
    (hvoids : ∀ s ∈ voids, isVoid s = true) : ∃ (left : String) (voids' : List String),
    (p.cut old.length).segments = front ++ (base ++ left) :: voids' ∧
      left.toList <+: old.toList ∧ ∀ s ∈ voids', isVoid s = true := by
  have hsep : ∀ s ∈ front ++ (base ++ old) :: voids, '/' ∉ s.toList := fun s hs =>
    @not_mem_of_mem_segments p s (h ▸ hs)
  obtain ⟨hfront, ⟨hbase, hold⟩, hvoid⟩ : (∀ s ∈ front, '/' ∉ s.toList) ∧
      ('/' ∉ base.toList ∧ '/' ∉ old.toList) ∧ ∀ s ∈ voids, '/' ∉ s.toList := by
    simpa [or_imp, forall_and] using hsep
  -- the extension and what stands behind it, of which only the end is cut off
  let behind := ofSegments (old :: voids)
  have hbehind : behind.segments = old :: voids :=
    segments_ofSegments (List.cons_ne_nil _ _) (List.forall_mem_cons.mpr ⟨hold, hvoid⟩)
  have hpath : p = mk ("/".intercalate (front ++ [base]) ++ behind.text) := by
    have hwhole : behind.text = "/".intercalate (old :: voids) := rfl
    rw [hwhole, ← intercalate_split, ← h, intercalate_segments]
  have hlength : old.length ≤ behind.text.length := by
    have hold' : behind.text = old ++ "/".intercalate ("" :: voids) := by
      rw [← String.intercalate_cons_append, String.append_empty]
      rfl
    rw [hold', String.length_append]
    exact Nat.le_add_right _ _
  have hcut := cut_mk_append ("/".intercalate (front ++ [base])) hlength
  rw [← hpath] at hcut
  obtain ⟨left, voids', hsegments⟩ :
      ∃ left voids', (behind.cut old.length).segments = left :: voids' :=
    List.exists_cons_of_ne_nil (by simp [segments])
  have hbegins (n : Nat) (piece : String) (hpiece : (left :: voids')[n]? = some piece) :
      ∃ whole, (old :: voids)[n]? = some whole ∧ piece.toList <+: whole.toList :=
    hbehind ▸ prefix_of_segments (behind.text_cut_prefix old.length) (hsegments ▸ hpiece)
  refine ⟨left, voids', ?_, ?_, fun s hs => ?_⟩
  · rw [hcut]
    exact segments_behind hfront hbase hsegments
  · obtain ⟨whole, hwhole, hprefix⟩ := hbegins 0 left rfl
    rwa [Option.some.inj hwhole]
  · obtain ⟨n, hn⟩ := List.mem_iff_getElem?.mp hs
    obtain ⟨whole, hwhole, hprefix⟩ := hbegins (n + 1) s hn
    exact isVoid_of_prefix hprefix (hvoids whole (List.mem_of_getElem? hwhole))

/-! ## Another extension -/

theorem follow_name (h : IsName name) (q : Place) : follow q name = q ++ [name] := by
  rw [follow, if_neg h.dot, if_neg h.dots]

theorem isName_append {base : String} (hbase : base ≠ "") (hsep : '/' ∉ base.toList)
    (hext : '/' ∉ ext.toList) (hdots : base ++ "." ++ ext ≠ "..") : IsName (base ++ "." ++ ext) := by
  obtain ⟨hempty, hdot⟩ : base ++ "." ++ ext ≠ "" ∧ base ++ "." ++ ext ≠ "." := by
    simpa [isVoid] using isVoid_append hbase
  exact ⟨not_mem_append hsep hext, hempty, hdot, hdots⟩

/-- The place of a path that is given an extension. -/
theorem place_setExtension {base : String} {old : Option String}
    (h : p.segments = front ++ name :: voids) (hvoids : ∀ s ∈ voids, isVoid s = true)
    (hname : IsName name) (hsplit : splitName name = (base, old))
    (hnew : IsName (base ++ "." ++ ext)) (home : Place) :
    (p.setExtension ext).place home = standing home front ++ [base ++ "." ++ ext] := by
  have hfileName : p.fileName? = some name := by
    rw [fileName?, reversed_of_voids h hvoids hname.isVoid]
    exact if_neg hname.dots
  have hset : p.setExtension ext = ofSegments (front ++ [base ++ "." ++ ext]) := by
    rw [setExtension, hfileName, reversed_of_voids h hvoids hname.isVoid]
    simp only [hsplit, List.reverse_cons, List.reverse_reverse]
  have hsegments : (p.setExtension ext).segments = front ++ [base ++ "." ++ ext] := by
    rw [hset]
    refine segments_ofSegments (by simp) fun s hs => ?_
    rcases List.mem_append.mp hs with hs | hs
    · exact @not_mem_of_mem_segments p s (h ▸ List.mem_append_left _ hs)
    · exact List.mem_singleton.mp hs ▸ hnew.separator
  rw [place_of_segments hsegments hnew.empty (by simp), follow_name hnew]

/-- What has an extension with a dot is longer than two dots. -/
theorem append_extension_ne_dots {base : String} (hbase : base ≠ "") (hdot : '.' ∈ ext.toList) :
    base ++ "." ++ ext ≠ ".." := by
  have hfront : 0 < base.length := by simpa [Nat.pos_iff_ne_zero, String.length_eq_zero_iff]
  have hbehind : 0 < ext.length := String.length_toList ▸ List.length_pos_of_mem hdot
  intro he
  have hlength := congrArg String.length he
  have hone : ".".length = 1 := rfl
  have htwo : "..".length = 2 := rfl
  rw [String.length_append, String.length_append, hone, htwo] at hlength
  omega

section Distinct

variable (hsegments : p.segments = front ++ name :: voids) (hvoids : ∀ s ∈ voids, isVoid s = true)

include hsegments hvoids

/-- A path without an extension names another place with one. -/
theorem place_withExtension_ne_of_none (hname : IsName name) (hsplit : splitName name = (name, none))
    (hext : '/' ∉ ext.toList) (hdot : '.' ∈ ext.toList) (home : Place) :
    (p.withExtension ext).place home ≠ standing home front ++ [name] := by
  have hextension : p.extension? = none := by
    rw [extension?, fileName?, reversed_of_voids hsegments hvoids hname.isVoid]
    dsimp only
    rw [if_neg hname.dots, Option.bind_some, hsplit]
  have hnew : IsName (name ++ "." ++ ext) :=
    isName_append hname.empty hname.separator hext (append_extension_ne_dots hname.empty hdot)
  rw [withExtension, hextension, place_setExtension hsegments hvoids hname hsplit hnew]
  intro he
  have hlength := congrArg String.length (List.append_singleton_inj.mp he).2
  have hone : ".".length = 1 := rfl
  rw [String.length_append, String.length_append, hone] at hlength
  omega

/-- Where no name is left, a path leads to a place above. -/
theorem place_setExtension_of_dots (hdots : name = "..") (home : Place) :
    (p.setExtension ext).place home = (standing home front).dropLast := by
  subst hdots
  have hnone : p.fileName? = none := by
    rw [fileName?, reversed_of_voids hsegments hvoids (by decide)]
    exact if_pos rfl
  rw [setExtension, hnone, place_of_segments hsegments (by decide) hvoids, follow,
    if_neg (by decide), if_pos rfl]

end Distinct

/-- **With another extension a path names another place**, if the new one has a dot in it. -/
theorem place_withExtension_ne (h : p.fileName?.isSome = true) (hext : '/' ∉ ext.toList)
    (hdot : '.' ∈ ext.toList) (home : Place) :
    (p.withExtension ext).place home ≠ p.place home := by
  obtain ⟨name, hfileName⟩ := Option.isSome_iff_exists.mp h
  obtain ⟨front, voids, hsegments, hvoids, hname⟩ := exists_segments hfileName
  rw [place_of_segments hsegments hname.empty hvoids, follow_name hname]
  rcases splitName_cases name with hsplit | ⟨base, old, hbase, hold, rfl⟩
  · exact place_withExtension_ne_of_none hsegments hvoids hname hsplit hext hdot home
  obtain ⟨left, voids', hcut, hleft, hvoids'⟩ := segments_cut hsegments hvoids
  have hwith : p.withExtension ext = (p.cut old.length).setExtension ext := by
    have hextension : p.extension? = some old := by
      rw [extension?, hfileName, Option.bind_some, splitName_append hbase hold]
    rw [withExtension, hextension]
    rfl
  rw [hwith]
  by_cases hdots : base ++ "." ++ left = ".."
  · rw [place_setExtension_of_dots hcut hvoids' hdots]
    intro he
    have hlength := congrArg List.length he
    rw [List.length_append, List.length_singleton, List.length_dropLast] at hlength
    omega
  · obtain ⟨⟨hsep, -⟩, hsep'⟩ : ('/' ∉ base.toList ∧ '/' ∉ ".".toList) ∧ '/' ∉ old.toList := by
      simpa using hname.separator
    have hname' : IsName (base ++ "." ++ left) :=
      isName_append hbase hsep (fun hmem => hsep' (hleft.subset hmem)) hdots
    have hsplit : splitName (base ++ "." ++ left) = (base, some left) :=
      splitName_append hbase fun hmem => hold (hleft.subset hmem)
    have hnew : IsName (base ++ "." ++ ext) :=
      isName_append hbase hsep hext (append_extension_ne_dots hbase hdot)
    rw [place_setExtension hcut hvoids' hname' hsplit hnew]
    intro he
    have hsame : ext = old := by
      simpa [String.ext_iff] using (List.append_singleton_inj.mp he).2
    exact hold (hsame ▸ hdot)

end ApiAvailability.Files.Path
