import ApiAvailability.Files.Tree

/-!
# Proofs/Files/Place — the place that a path names

Without links a path names one place, whatever there is in the tree: `Path.place` reads its names
one after the other.

* `Tree.locate_entry` — finding a path in a tree leads to that place, if it leads to an entry;
* `Path.place_join` — a file of a directory has the place below the directory's;
* `Path.withExtension_join` — and so has the file with another extension.
-/

namespace ApiAvailability.Files

namespace Path

/-- The place behind a name. -/
def follow (at_ : Place) (name : String) : Place :=
  if name = "." then at_ else if name = ".." then at_.dropLast else at_ ++ [name]

/-- **The place that a path names**, where relative paths start from `home`. -/
def place (home : Place) (p : Path) : Place :=
  (Tree.names p).foldl follow (if p.isAbsolute then [] else home)

end Path

/-! ## Finding a path -/

namespace Tree

variable {t : Tree} {p : Path} {q : Place}

/-- Where a name leads is told by the names alone, if it leads anywhere. -/
theorem enter_eq_ok {at_ : Place} {name : String} (h : t.enter at_ name = .ok q) :
    q = Path.follow at_ name := by
  rw [enter] at h
  rw [Path.follow]
  split at h
  · rw [if_pos ‹_›, Except.ok.inj h]
  rw [if_neg ‹_›]
  split at h
  · rw [if_pos ‹_›, Except.ok.inj h]
  rw [if_neg ‹_›]
  split at h
  · contradiction
  split at h
  · contradiction
  · contradiction
  · exact (Except.ok.inj h).symm

/-- Where several names lead is told by them alone, if they lead anywhere. -/
theorem foldlM_enter_eq_ok {names : List String} {at_ : Place}
    (h : names.foldlM t.enter at_ = .ok q) : q = names.foldl Path.follow at_ := by
  induction names generalizing at_ with
  | nil => exact (Except.ok.inj h).symm
  | cons name names ih =>
    rw [List.foldlM_cons] at h
    cases he : t.enter at_ name with
    | error e => rw [he] at h; contradiction
    | ok next =>
      rw [he] at h
      rw [List.foldl_cons, ← enter_eq_ok he]
      exact ih h

/-- The last name of a path leads on from where the names before it lead. -/
theorem place_eq_follow {name : String} (hlast : (names p).getLast? = some name)
    (h : (names p).dropLast.foldlM t.enter (t.start p) = .ok q) :
    p.place t.home = Path.follow q name := by
  obtain ⟨front, hnames⟩ := List.getLast?_eq_some_iff.mp hlast
  rw [hnames, List.dropLast_concat] at h
  rw [Path.place]
  rw [hnames, List.foldl_append, foldlM_enter_eq_ok h]
  rfl

/-- **An entry that is found has the place that its path names**, which is not the root. -/
theorem locate_entry {asDirectory : Bool} (h : t.locate p = .ok (.entry q asDirectory)) :
    q = p.place t.home ∧ q ≠ [] := by
  rw [locate] at h
  split at h
  · contradiction
  cases hdir : (names p).dropLast.foldlM t.enter (t.start p) with
  | error e => rw [hdir] at h; contradiction
  | ok dir =>
    simp only [hdir, bind, Except.bind] at h
    split at h
    · cases Except.ok.inj h
    rename_i name hlast
    split at h
    · cases he : t.enter dir name with
      | error e => rw [he] at h; contradiction
      | ok place => rw [he] at h; cases Except.ok.inj h
    rename_i hdots
    split at h
    · contradiction
    obtain ⟨rfl, -⟩ := Target.entry.inj (Except.ok.inj h)
    refine ⟨?_, by simp⟩
    rw [not_or] at hdots
    rw [place_eq_follow hlast hdir, Path.follow, if_neg hdots.1, if_neg hdots.2]

/-- A file is written where its path leads, and not in the place of a directory. -/
theorem writable_eq_ok {taken : Bool} (h : t.writable p = .ok (q, taken)) :
    t.locate p = .ok (.entry q false) ∧ t.lookup q ≠ some .directory := by
  rw [writable] at h
  cases hlocate : t.locate p with
  | error e => rw [hlocate] at h; contradiction
  | ok target =>
    simp only [hlocate, bind, Except.bind] at h
    split at h
    · contradiction
    split at h
    · contradiction
    rename_i hfree
    split at h
    · contradiction
    rename_i hentry
    obtain ⟨rfl, -⟩ := Prod.mk.inj (Except.ok.inj h)
    rw [Bool.not_eq_true] at hentry
    exact ⟨by rw [hentry], hfree⟩

/-- Making a directory adds it where the path leads and there was nothing. -/
theorem makeDir_eq_ok {t' : Tree} (h : t.makeDir p = .ok t') :
    ∃ q asDirectory, t.locate p = .ok (.entry q asDirectory) ∧ t.lookup q = none ∧
      t' = t.put q .directory := by
  rw [makeDir] at h
  split at h
  · contradiction
  rename_i hlegal
  cases hdir : (names p).dropLast.foldlM t.enter (t.start p) with
  | error e => rw [hdir] at h; contradiction
  | ok dir =>
    simp only [hdir, bind, Except.bind] at h
    split at h
    · contradiction
    rename_i name hlast
    split at h
    · contradiction
    rename_i hdots
    split at h
    · contradiction
    rename_i hlength
    split at h
    · contradiction
    rename_i hnone
    refine ⟨dir ++ [name], decide (p.text.toList.getLast? = some '/'), ?_, by simpa using hnone,
      (Except.ok.inj h).symm⟩
    rw [locate, hlegal]
    simp only [hdir, hlast, bind, Except.bind]
    rw [if_neg hdots, if_neg hlength]
    rfl

end Tree

/-! ## Paths below a path -/

/-- **A name that a file may have.** -/
structure IsName (name : String) : Prop where
  separator : '/' ∉ name.toList
  empty : name ≠ ""
  dot : name ≠ "."
  dots : name ≠ ".."

/-- What is longer than two dots is a name. -/
theorem IsName.of_long {name : String} (hsep : '/' ∉ name.toList)
    (hlength : 2 < name.utf8ByteSize) : IsName name := by
  have hne (short : String) (hshort : short.utf8ByteSize ≤ 2) : name ≠ short := by
    rintro rfl
    omega
  exact ⟨hsep, hne "" (by decide), hne "." (by decide), hne ".." (by decide)⟩

/-- A name stands for something. -/
theorem IsName.isVoid {name : String} (h : IsName name) : Path.isVoid name = false := by
  simp [Path.isVoid, h.empty, h.dot]

namespace Path

variable {p : Path} {name : String}

/-- Segments that stand between separators make the text of the path. -/
theorem ofSegments_segments (p : Path) : ofSegments p.segments = p := by
  have htext : (("/".intercalate p.segments).toList) = p.text.toList := by
    rw [String.toList_intercalate, segments, List.map_map]
    have hid : String.toList ∘ String.ofList = id := funext fun cs => String.toList_ofList
    rw [hid, List.map_id]
    exact List.intercalate_splitOn '/'
  rw [ofSegments]
  exact congrArg Path.mk (String.ext htext)

theorem segments_of_not_mem (h : '/' ∉ name.toList) : segments ⟨name⟩ = [name] := by
  rw [segments, List.splitOn_eq_singleton h, List.map_singleton, String.ofList_toList]

/-- A name behind a separator is the last segment. -/
theorem segments_append (a : String) (h : '/' ∉ name.toList) :
    segments ⟨a ++ "/" ++ name⟩ = segments ⟨a⟩ ++ [name] := by
  have htext : (a ++ "/" ++ name).toList = a.toList ++ '/' :: name.toList := by simp
  rw [segments, htext, List.splitOn_append_cons_self, List.map_append]
  exact congrArg (segments ⟨a⟩ ++ ·) (segments_of_not_mem h)

theorem not_isAbsolute_of_not_mem (h : '/' ∉ name.toList) : isAbsolute ⟨name⟩ = false := by
  rw [isAbsolute]
  cases hn : name.toList with
  | nil => rfl
  | cons c cs =>
    rw [hn] at h
    have hc : c ≠ '/' := fun he => h (he ▸ List.mem_cons_self)
    simp [hc]

/-- What stands in front of a name in a path below another. -/
def stem (p : Path) : String :=
  if p.text = "" || p.text.toList.getLast? = some '/' then p.text else p.text ++ "/"

/-- A name is joined behind the separator that the path ends in, or gets one. -/
theorem join_eq (p : Path) (h : '/' ∉ name.toList) : p.join name = ⟨p.stem ++ name⟩ := by
  rw [join, stem]
  rw [not_isAbsolute_of_not_mem h, if_neg Bool.false_ne_true]
  split <;> rfl

theorem join_empty (h : '/' ∉ name.toList) : join ⟨""⟩ name = ⟨name⟩ := by
  rw [join_eq _ h]
  exact congrArg Path.mk String.empty_append

/-- A stem is empty, or it ends with a separator. -/
theorem stem_cases (p : Path) : (p.text = "" ∧ p.stem = "") ∨
    ∃ a, p.stem = a ++ "/" ∧ Tree.names ⟨a⟩ = Tree.names p := by
  rw [stem]
  by_cases hempty : p.text = ""
  · exact .inl ⟨hempty, by simp [hempty]⟩
  refine .inr ?_
  by_cases hlast : p.text.toList.getLast? = some '/'
  · obtain ⟨cs, hcs⟩ := List.getLast?_eq_some_iff.mp hlast
    have htext : p.text = String.ofList cs ++ "/" := String.ext (by simp [hcs])
    refine ⟨.ofList cs, by simp [htext], ?_⟩
    have hsegments : segments p = segments ⟨.ofList cs⟩ ++ [""] := by
      have happend : segments ⟨.ofList cs ++ "/" ++ ""⟩ = segments ⟨.ofList cs⟩ ++ [""] :=
        segments_append (.ofList cs) (by simp)
      rwa [String.append_empty, ← htext] at happend
    rw [Tree.names, Tree.names, hsegments, List.filter_append]
    simp
  · exact ⟨p.text, by simp [hempty, hlast], rfl⟩

/-- The segments of a path below another are some of its own, and one more. -/
theorem segments_join (p : Path) : ∃ front : List String, Tree.names p = front.filter (· ≠ "") ∧
    ∀ name : String, '/' ∉ name.toList → (p.join name).segments = front ++ [name] := by
  rcases stem_cases p with ⟨htext, hstem⟩ | ⟨a, hstem, hnames⟩
  · refine ⟨[], ?_, fun name h => ?_⟩
    · rw [Tree.names, segments, htext]
      rfl
    · rw [join_eq p h, hstem, String.empty_append, segments_of_not_mem h, List.nil_append]
  · refine ⟨segments ⟨a⟩, hnames.symm, fun name h => ?_⟩
    rw [join_eq p h, hstem, segments_append a h]

/-- A path that ends in a name is not empty. -/
theorem text_join_ne (p : Path) (h : IsName name) : (p.join name).text ≠ "" := by
  rw [join_eq p h.separator]
  simp [h.empty]

theorem isAbsolute_join (p : Path) (h : '/' ∉ name.toList) :
    (p.join name).isAbsolute = p.isAbsolute := by
  rw [join_eq p h]
  by_cases hempty : p.text = ""
  · have hstem : p.stem = "" := by simp [stem, hempty]
    rw [hstem, String.empty_append, not_isAbsolute_of_not_mem h]
    simp [isAbsolute, hempty]
  · have hne : p.text.toList ≠ [] := by simpa using hempty
    unfold isAbsolute stem
    split <;> simp [List.head?_append, List.head?_eq_some_head hne]

/-- A name that is joined is the last one to follow. -/
theorem names_join (p : Path) (hsep : '/' ∉ name.toList) (hempty : name ≠ "") :
    Tree.names (p.join name) = Tree.names p ++ [name] := by
  obtain ⟨front, hfront, hsegments⟩ := segments_join p
  rw [Tree.names, hsegments name hsep, List.filter_append, hfront]
  simp [hempty]

/-- **The place of a path below another**: one name further. -/
theorem place_join (home : Place) (p : Path) (hsep : '/' ∉ name.toList) (hempty : name ≠ "")
    (hdot : name ≠ ".") (hdots : name ≠ "..") :
    (p.join name).place home = p.place home ++ [name] := by
  unfold place
  rw [names_join p hsep hempty, isAbsolute_join p hsep, List.foldl_append]
  simp [follow, hdot, hdots]

/-- A name that is joined leads one step further down. -/
theorem place_join_name (home : Place) (p : Path) (h : IsName name) :
    (p.join name).place home = p.place home ++ [name] :=
  place_join home p h.separator h.empty h.dot h.dots

/-- A last segment that stands for something is the first one from behind. -/
theorem reversed_of_segments {front : List String} (h : p.segments = front ++ [name])
    (hvoid : isVoid name = false) : p.reversed = name :: front.reverse := by
  rw [reversed, h, List.reverse_append, List.reverse_singleton, List.singleton_append,
    List.dropWhile_cons_of_neg (by simp [hvoid])]

/-- The last segment of a path below another, and the segments before it. -/
theorem reversed_join (p : Path) : ∃ front : List String, ∀ name : String, '/' ∉ name.toList →
    isVoid name = false → p.join name = ofSegments (front ++ [name]) ∧
      (p.join name).reversed = name :: front.reverse := by
  obtain ⟨front, -, hsegments⟩ := segments_join p
  refine ⟨front, fun name hsep hvoid => ⟨?_, reversed_of_segments (hsegments name hsep) hvoid⟩⟩
  rw [← hsegments name hsep, ofSegments_segments]

/-- A name that is joined is that of the file. -/
theorem fileName?_join (p : Path) (hsep : '/' ∉ name.toList) (hvoid : isVoid name = false)
    (hdots : name ≠ "..") : (p.join name).fileName? = some name := by
  obtain ⟨front, hfront⟩ := reversed_join p
  rw [fileName?, (hfront name hsep hvoid).2]
  exact if_neg hdots

/-! ## Extensions -/

section Extension

variable {base ext : String}

/-- A name with a dot in it is split at the last one. -/
theorem splitName_append (hbase : base ≠ "") (hext : '.' ∉ ext.toList) :
    splitName (base ++ "." ++ ext) = (base, some ext) := by
  have hchars : (base ++ "." ++ ext).toList.reverse =
      ext.toList.reverse ++ '.' :: base.toList.reverse := by simp
  have hbefore : ∀ c ∈ ext.toList.reverse, decide (c ≠ '.') = true := by
    intro c hc
    exact decide_eq_true fun he => hext (he ▸ List.mem_reverse.mp hc)
  obtain ⟨c, cs, hcs⟩ : ∃ c cs, base.toList.reverse = c :: cs :=
    List.exists_cons_of_ne_nil (by simpa using hbase)
  rw [splitName]
  simp only [hchars]
  rw [List.takeWhile_append_of_pos hbefore, List.dropWhile_append_of_pos hbefore,
    List.takeWhile_cons_of_neg (by simp), List.dropWhile_cons_of_neg (by simp), hcs]
  simp only [List.append_nil, List.reverse_reverse, String.ofList_toList, ← hcs]

theorem not_mem_append (hbase : '/' ∉ base.toList) (hext : '/' ∉ ext.toList) :
    '/' ∉ (base ++ "." ++ ext).toList := by
  simp [hbase, hext]

theorem isVoid_append (hbase : base ≠ "") : isVoid (base ++ "." ++ ext) = false := by
  obtain ⟨c, cs, hcs⟩ : ∃ c cs, base.toList = c :: cs :=
    List.exists_cons_of_ne_nil (by simpa using hbase)
  simp [isVoid, String.ext_iff, hcs]

theorem append_ne_dots (hbase : base ≠ "") (hdot : base ≠ ".") : base ++ "." ++ ext ≠ ".." := by
  intro he
  obtain ⟨c, cs, hcs⟩ : ∃ c cs, base.toList = c :: cs :=
    List.exists_cons_of_ne_nil (by simpa using hbase)
  have hchars : (base ++ "." ++ ext).toList = base.toList ++ '.' :: ext.toList := by simp
  have hlist : c :: (cs ++ '.' :: ext.toList) = ['.', '.'] := by
    rw [← List.cons_append, ← hcs, ← hchars, he]
    rfl
  obtain ⟨hc, hrest⟩ := List.cons.inj hlist
  have hnil : cs = [] := by
    have hlength := congrArg List.length hrest
    rw [List.length_append, List.length_cons, List.length_singleton] at hlength
    exact List.length_eq_zero_iff.mp (by omega)
  refine hdot (String.ext ?_)
  rw [hcs, hc, hnil]
  rfl

theorem fileName?_join_append (p : Path) (hbase : base ≠ "") (hdot : base ≠ ".")
    (hsep : '/' ∉ base.toList) (hext : '/' ∉ ext.toList) :
    (p.join (base ++ "." ++ ext)).fileName? = some (base ++ "." ++ ext) :=
  fileName?_join p (not_mem_append hsep hext) (isVoid_append hbase) (append_ne_dots hbase hdot)

/-- What is left of a path once its extension is cut off. -/
theorem cut_join (p : Path) (hsep : '/' ∉ base.toList) (hext : '/' ∉ ext.toList) :
    (⟨String.ofList ((p.join (base ++ "." ++ ext)).text.toList.take
      ((p.join (base ++ "." ++ ext)).text.length - ext.length))⟩ : Path) =
      p.join (base ++ "." ++ "") := by
  rw [join_eq p (not_mem_append hsep hext), join_eq p (not_mem_append hsep (by simp))]
  refine congrArg Path.mk (String.ext ?_)
  have htext : (p.stem ++ (base ++ "." ++ ext)).toList =
      (p.stem ++ (base ++ "." ++ "")).toList ++ ext.toList := by simp
  have hlength : (p.stem ++ (base ++ "." ++ ext)).length - ext.length =
      (p.stem ++ (base ++ "." ++ "")).toList.length := by
    rw [← String.length_toList, htext, List.length_append, String.length_toList,
      String.length_toList, Nat.add_sub_cancel]
  rw [String.toList_ofList, hlength, htext, List.take_left]

/-- **Another extension for a path below another.** -/
theorem withExtension_join (p : Path) {new : String} (hbase : base ≠ "") (hdot : base ≠ ".")
    (hsep : '/' ∉ base.toList) (hext : '/' ∉ ext.toList) (hnew : '/' ∉ new.toList)
    (hlast : '.' ∉ ext.toList) :
    (p.join (base ++ "." ++ ext)).withExtension new = p.join (base ++ "." ++ new) := by
  have hempty : '/' ∉ "".toList := by simp
  have hextension : (p.join (base ++ "." ++ ext)).extension? = some ext := by
    rw [extension?, fileName?_join_append p hbase hdot hsep hext, Option.bind_some,
      splitName_append hbase hlast]
  have hsplit : splitName (base ++ "." ++ "") = (base, some "") := splitName_append hbase (by simp)
  obtain ⟨front, hfront⟩ := reversed_join p
  obtain ⟨-, hreversed⟩ := hfront _ (not_mem_append hsep hempty) (isVoid_append hbase)
  obtain ⟨hjoin, -⟩ := hfront _ (not_mem_append hsep hnew) (isVoid_append hbase)
  rw [withExtension]
  simp only [hextension]
  rw [cut_join p hsep hext, setExtension, fileName?_join_append p hbase hdot hsep hempty, hreversed]
  simp only [hsplit]
  rw [List.reverse_cons, List.reverse_reverse, hjoin]

end Extension

end Path

end ApiAvailability.Files
