import ApiAvailability.Proofs.Files.Reach

/-!
# Proofs/Files/Missing — what is not found is not there

In a tree of files everything is in a directory (`Tree.Rooted`), so there is nothing below a
directory that is missing.  A path that is not found may name something that is there all the same:
with `x` missing, `x/../f` names what `f` does, and leads nowhere.  Where two dots do not stand
behind a missing directory the path is settled (`Tree.Settled`), and a file that is not found is not
there (`Tree.Settled.lookup_eq_none`).
-/

namespace ApiAvailability.Files

namespace Path

/-- Names of which none leads up lead further down. -/
theorem exists_foldl_follow {names : List String} (h : ".." ∉ names) (q : Place) :
    ∃ below, names.foldl follow q = q ++ below := by
  induction names generalizing q with
  | nil => exact ⟨[], (List.append_nil q).symm⟩
  | cons name names ih =>
    obtain ⟨hname, hnames⟩ : ".." ≠ name ∧ ".." ∉ names := by simpa using h
    obtain ⟨below, hbelow⟩ := ih hnames (follow q name)
    rw [List.foldl_cons, hbelow, follow]
    by_cases hdot : name = "."
    · exact ⟨below, by rw [if_pos hdot]⟩
    · refine ⟨name :: below, ?_⟩
      rw [if_neg hdot, if_neg hname.symm, List.append_assoc, List.singleton_append]

end Path

namespace Tree

variable {t : Tree} {p : Path} {q : Place} {name : String}

/-! ## Trees of files -/

/-- **Everything in a tree is in a directory.** -/
def Rooted (t : Tree) : Prop :=
  ∀ (q : Place) (name : String) (n : Node), t.lookup (q ++ [name]) = some n →
    t.lookup q = some .directory

theorem rooted_iff : t.Rooted ↔ ∀ q ∈ t.nodes.keys, t.lookup q.dropLast = some .directory := by
  constructor
  · intro h q hq
    rcases List.eq_nil_or_concat q with rfl | ⟨above, name, rfl⟩
    · rfl
    · rw [List.concat_eq_append, List.dropLast_concat]
      rw [Std.ExtTreeMap.mem_keys, List.concat_eq_append] at hq
      refine h above name t.nodes[above ++ [name]] ?_
      rw [lookup, if_neg (by simp), Std.ExtTreeMap.getElem?_eq_some_getElem hq]
  · intro h q name n hn
    rw [lookup, if_neg (by simp)] at hn
    have hmem : q ++ [name] ∈ t.nodes.keys := by
      rw [Std.ExtTreeMap.mem_keys, Std.ExtTreeMap.mem_iff_isSome_getElem?, hn]
      rfl
    have habove := h _ hmem
    rwa [List.dropLast_concat] at habove

instance (t : Tree) : Decidable t.Rooted := decidable_of_iff _ rooted_iff.symm

/-- **There is nothing below what is missing.** -/
theorem Rooted.lookup_append (h : t.Rooted) (hq : t.lookup q = none) (below : Place) :
    t.lookup (q ++ below) = none := by
  induction below generalizing q with
  | nil => rwa [List.append_nil]
  | cons name below ih =>
    rw [← List.singleton_append, ← List.append_assoc]
    refine ih ?_
    cases hn : t.lookup (q ++ [name]) with
    | none => rfl
    | some n =>
      rw [h _ _ _ hn] at hq
      contradiction

/-! ## Paths that lead nowhere -/

/-- **A path is settled** in a tree: no two dots in it stand behind a directory that is missing. -/
def Settled (t : Tree) (p : Path) : Prop :=
  ∀ front back, names p = front ++ ".." :: back →
    front.foldlM t.enter (t.start p) ≠ .error .notFound

theorem settled_of_not_mem (h : ".." ∉ names p) : t.Settled p := by
  intro front back hnames
  rw [hnames] at h
  exact absurd (List.mem_append_right front List.mem_cons_self) h

/-- A name that is not found, if it does not lead up, has nothing at its place. -/
theorem enter_notFound (h : t.enter q name = .error .notFound) :
    Path.follow q name = q ++ [name] ∧ t.lookup (q ++ [name]) = none := by
  rw [enter] at h
  split at h
  · contradiction
  rename_i hdot
  split at h
  · contradiction
  rename_i hdots
  split at h
  · cases h
  refine ⟨by rw [Path.follow, if_neg hdot, if_neg hdots], ?_⟩
  split at h
  · assumption
  · cases h
  · cases h

/-- Names that do not lead up and are not found lead to below a place where there is nothing. -/
theorem exists_missing {names : List String} (hdots : ".." ∉ names)
    (h : names.foldlM t.enter q = .error .notFound) :
    ∃ above below, names.foldl Path.follow q = above ++ below ∧ t.lookup above = none := by
  induction names generalizing q with
  | nil => contradiction
  | cons name names ih =>
    have hnames : ".." ∉ names := fun hmem => hdots (List.mem_cons_of_mem name hmem)
    rw [List.foldlM_cons] at h
    rw [List.foldl_cons]
    cases he : t.enter q name with
    | ok next =>
      rw [he] at h
      rw [← enter_eq_ok he]
      exact ih hnames h
    | error e =>
      rw [he] at h
      obtain rfl : e = .notFound := Except.error.inj h
      obtain ⟨hfollow, hnone⟩ := enter_notFound he
      obtain ⟨below, hbelow⟩ := Path.exists_foldl_follow hnames (q ++ [name])
      exact ⟨q ++ [name], below, by rw [hfollow, hbelow], hnone⟩

/-- **A settled path that is not found** names a place below one where there is nothing. -/
theorem Settled.exists_missing (h : t.Settled p)
    (hnone : (names p).foldlM t.enter (t.start p) = .error .notFound) :
    ∃ above below, p.place t.home = above ++ below ∧ t.lookup above = none := by
  by_cases hdots : ".." ∈ names p
  · -- up to the last two dots the path leads somewhere
    obtain ⟨after, before, hreverse, hlast⟩ :=
      List.eq_append_cons_of_mem (List.mem_reverse.mpr hdots)
    have hsplit : names p = before.reverse ++ ".." :: after.reverse := by
      rw [← List.reverse_reverse (names p), hreverse]
      simp
    have hafter : ".." ∉ after.reverse := by rwa [List.mem_reverse]
    rw [hsplit, List.foldlM_append] at hnone
    cases hfront : before.reverse.foldlM t.enter (t.start p) with
    | error e =>
      rw [hfront] at hnone
      obtain rfl : e = .notFound := Except.error.inj hnone
      exact absurd hfront (h _ _ hsplit)
    | ok dir =>
      rw [hfront] at hnone
      have hback : after.reverse.foldlM t.enter dir.dropLast = .error .notFound := hnone
      obtain ⟨above, below, hplace, habove⟩ := Tree.exists_missing hafter hback
      refine ⟨above, below, ?_, habove⟩
      rw [← hplace, foldlM_enter_eq_ok hfront, Path.place, hsplit, List.foldl_append,
        List.foldl_cons]
      rfl
  · exact Tree.exists_missing hdots hnone

/-- **A file that is not found is not there**, if everything is in a directory and its own one has a
settled path. -/
theorem Settled.lookup_eq_none (h : t.Settled p) (hrooted : t.Rooted) (hname : IsName name)
    (hread : t.read (p.join name) = .error .notFound) :
    t.lookup ((p.join name).place t.home) = none := by
  have hstart : t.start (p.join name) = t.start p := by
    rw [start, start, Path.isAbsolute_join p hname.separator]
  rw [read] at hread
  cases hlocate : t.locate (p.join name) with
  | error e =>
    rw [hlocate] at hread
    obtain rfl : e = .notFound := Except.error.inj hread
    rw [locate] at hlocate
    split at hlocate
    · rename_i e hrefusal
      obtain rfl : e = .notFound := Except.error.inj hlocate
      refine absurd hrefusal (refusal?_ne_notFound ?_)
      rw [Path.join_eq p hname.separator]
      simp [hname.empty]
    simp only [Path.names_join p hname.separator hname.empty, List.dropLast_concat, hstart,
      List.getLast?_concat] at hlocate
    cases hdir : (names p).foldlM t.enter (t.start p) with
    | error e =>
      rw [hdir] at hlocate
      obtain rfl : e = .notFound := Except.error.inj hlocate
      obtain ⟨above, below, hplace, habove⟩ := h.exists_missing hdir
      rw [Path.place_join_name _ _ hname, hplace, List.append_assoc]
      exact hrooted.lookup_append habove _
    | ok dir =>
      rw [hdir] at hlocate
      simp only [bind, Except.bind] at hlocate
      rw [if_neg (not_or.mpr ⟨hname.dot, hname.dots⟩)] at hlocate
      split at hlocate
      · cases hlocate
      · cases hlocate
  | ok target =>
    rw [hlocate] at hread
    simp only [bind, Except.bind] at hread
    split at hread
    · cases hread
    rename_i q asDirectory
    rw [← (locate_entry hlocate).1]
    split at hread
    · assumption
    · cases hread
    · split at hread
      · cases hread
      · cases hread

end Tree

end ApiAvailability.Files
