import ApiAvailability.Proofs.Turns
import Mathlib.Data.List.Basic

/-!
# Proofs/Heard — what is heard of jobs that take turns

Jobs may tell what they do, all of them into one list.  Whatever the schedule, the list is put
together from what each job tells, which stays in its order (`Job.exists_told`), so that

* `Interleaves.perm` — all that is told is heard, and nothing else;
* `Interleaves.filter_eq` — what can only be of one job is heard as that job tells it.

Of jobs one after the other all is heard one after the other (`Job.exists_told_alone`).
-/

namespace ApiAvailability

variable {α β : Type}

/-! ## Lists put together from others -/

/-- **A list interleaves others**: it is put together from pieces of them, each in its order. -/
inductive Interleaves : List (List α) → List α → Prop
  | nil {ls : List (List α)} (h : ∀ l ∈ ls, l = []) : Interleaves ls []
  | more {ls : List (List α)} {as l : List α} {i : Nat} (h : Interleaves ls as)
      (hi : ls[i]? = some l) (bs : List α) : Interleaves (ls.set i (l ++ bs)) (as ++ bs)

namespace Interleaves

variable {ls : List (List α)} {as l : List α}

/-- **What is interleaved is all there.** -/
theorem perm (h : Interleaves ls as) : as.Perm ls.flatten := by
  induction h with
  | nil h => rw [List.flatten_eq_nil_iff.mpr h]
  | @more ls as l i h hi bs ih =>
    obtain ⟨hlt, rfl⟩ := List.getElem?_eq_some_iff.mp hi
    obtain ⟨before, after, hls, -, hset⟩ : ∃ before after, ls = before ++ ls[i] :: after ∧
        before.length = i ∧ ls.set i (ls[i] ++ bs) = before ++ (ls[i] ++ bs) :: after :=
      List.exists_of_set hlt
    rw [hset]
    rw [hls] at ih
    simp only [List.flatten_append, List.flatten_cons, List.append_assoc] at ih ⊢
    refine (ih.append_right bs).trans ?_
    simp only [List.append_assoc]
    have hswap : (after.flatten ++ bs).Perm (bs ++ after.flatten) := List.perm_append_comm
    exact (hswap.append_left _).append_left _

/-- **What is in one of the lists only is in its order there.** -/
theorem filter_eq {p : α → Bool} (h : Interleaves ls as) {i : Nat} (hi : ls[i]? = some l)
    (hother : ∀ (k : Nat) l', ls[k]? = some l' → k ≠ i → ∀ a ∈ l', p a = false) :
    as.filter p = l.filter p := by
  induction h generalizing l with
  | nil h => rw [h l (List.mem_of_getElem? hi)]
  | @more ls as l₀ k h hk bs ih =>
    have hlt : k < ls.length := (List.getElem?_eq_some_iff.mp hk).1
    have hset : (ls.set k (l₀ ++ bs))[k]? = some (l₀ ++ bs) := List.getElem?_set_self hlt
    have hsame {k' : Nat} (hne : k ≠ k') : (ls.set k (l₀ ++ bs))[k']? = ls[k']? :=
      List.getElem?_set_ne hne
    have hbefore : ∀ (k' : Nat) l', ls[k']? = some l' → k' ≠ i → ∀ a ∈ l', p a = false := by
      intro k' l' hl' hne a ha
      by_cases hkk' : k = k'
      · subst hkk'
        obtain rfl : l₀ = l' := Option.some.inj (hk.symm.trans hl')
        exact hother k _ hset hne a (List.mem_append_left bs ha)
      · exact hother k' l' ((hsame hkk').trans hl') hne a ha
    by_cases hki : k = i
    · subst hki
      obtain rfl : l₀ ++ bs = l := Option.some.inj (hset.symm.trans hi)
      rw [List.filter_append, List.filter_append, ih hk hbefore]
    · have hnone : bs.filter p = [] := List.filter_eq_nil_iff.mpr fun a ha =>
        Bool.not_eq_true _ ▸ hother k _ hset hki a (List.mem_append_right l₀ ha)
      rw [List.filter_append, hnone, List.append_nil, ih ((hsame hki).symm.trans hi) hbefore]

end Interleaves

/-! ## Jobs that tell what they do -/

namespace Job

variable {σ τ ε : Type} {js : List (Job τ α)}

/-- Jobs that are done, beside what each has told. -/
theorem exists_map_done {as : List α} {ps : List (Job τ α × List ε)}
    (h : ps.map Prod.fst = as.map done) :
    ∃ qs : List (α × List ε), qs.map Prod.fst = as ∧ ps = qs.map fun q => (done q.1, q.2) := by
  induction as generalizing ps with
  | nil => exact ⟨[], rfl, List.map_eq_nil_iff.mp h⟩
  | cons a as ih =>
    obtain ⟨⟨j, l⟩, ps, rfl, rfl, htail⟩ := List.map_eq_cons_iff.mp h
    obtain ⟨qs, rfl, rfl⟩ := ih htail
    exact ⟨(a, l) :: qs, rfl, rfl⟩

variable {work : τ → StateM (σ × List ε) (Job τ α)} {Tells : Job τ α → List ε → Prop}

/-- **A piece of work adds to what its job has told**, and that is what is heard of it. -/
def Telling (work : τ → StateM (σ × List ε) (Job τ α)) (Tells : Job τ α → List ε → Prop) : Prop :=
  ∀ t l s log, Tells (.due t) l → ∃ new, (work t (s, log)).2.2 = log ++ new ∧
    Tells (work t (s, log)).1 (l ++ new)

/-- **What jobs have told was heard interleaved**, since `log` was. -/
def Told (Tells : Job τ α → List ε → Prop) (log : List ε) (js : List (Job τ α))
    (heard : List ε) : Prop :=
  ∃ ps : List (Job τ α × List ε), ps.map Prod.fst = js ∧ (∀ p ∈ ps, Tells p.1 p.2) ∧
    ∃ new, heard = log ++ new ∧ Interleaves (ps.map Prod.snd) new

theorem told_start (hstart : ∀ j ∈ js, Tells j []) (log : List ε) : Told Tells log js log := by
  refine ⟨js.map fun j => (j, []), ?_, ?_, [], (List.append_nil log).symm, .nil ?_⟩
  · simp [Function.comp_def]
  · exact List.forall_mem_map.mpr hstart
  · simp

/-- **One turn** adds to what its job has told, and to what is heard. -/
theorem Told.turn (hwork : Telling work Tells) {log : List ε} {t : σ × List ε}
    (h : Told Tells log js t.2) {i : Nat} {t' : τ} (hi : js[i]? = some (.due t')) :
    Told Tells log (js.set i (work t' t).1) (work t' t).2.2 := by
  obtain ⟨s, heard⟩ := t
  obtain ⟨ps, rfl, htells, new, rfl, hnew⟩ := h
  rw [List.getElem?_map] at hi
  obtain ⟨⟨_, l⟩, hp, rfl⟩ := Option.map_eq_some_iff.mp hi
  obtain ⟨more, hlog, hmore⟩ := hwork t' l s (log ++ new) (htells _ (List.mem_of_getElem? hp))
  refine ⟨ps.set i ((work t' (s, log ++ new)).1, l ++ more), ?_, fun p hmem => ?_, new ++ more,
    ?_, ?_⟩
  · rw [List.map_set]
  · rcases List.mem_or_eq_of_mem_set hmem with hmem | rfl
    · exact htells p hmem
    · exact hmore
  · rw [hlog, List.append_assoc]
  · have hl : (ps.map Prod.snd)[i]? = some l := by
      rw [List.getElem?_map, hp, Option.map_some]
    rw [List.map_set]
    exact .more hnew hl more

/-- **What jobs tell that take turns is heard interleaved**: once all of them are done, each has told
what it should, and that is what is heard. -/
theorem exists_told (hwork : Telling work Tells) (hstart : ∀ j ∈ js, Tells j [])
    {schedule : List Nat} {s : σ} {log : List ε} {as : List α}
    (h : results? (takeTurns work schedule js (s, log)).1 = some as) :
    ∃ qs : List (α × List ε), qs.map Prod.fst = as ∧ (∀ q ∈ qs, Tells (.done q.1) q.2) ∧
      ∃ new, (takeTurns work schedule js (s, log)).2.2 = log ++ new ∧
        Interleaves (qs.map Prod.snd) new := by
  have htold : Told Tells log (takeTurns work schedule js (s, log)).1
      (takeTurns work schedule js (s, log)).2.2 :=
    takeTurns_induction work (P := fun js t => Told Tells log js t.2)
      (fun _ _ _ _ hi h => h.turn hwork hi) schedule (told_start hstart log)
  obtain ⟨ps, hjobs, htells, new, hlog, hnew⟩ := htold
  rw [eq_map_done h] at hjobs
  obtain ⟨qs, rfl, rfl⟩ := exists_map_done hjobs
  refine ⟨qs, rfl, fun q hq => htells _ (List.mem_map_of_mem hq), new, hlog, ?_⟩
  rwa [List.map_map] at hnew

/-- What a job tells that goes on alone. -/
theorem exists_told_goOn (hwork : Telling work Tells) (k : Nat) {j : Job τ α} {l : List ε}
    (h : Tells j l) (s : σ) (log : List ε) :
    ∃ new, (alone work k j (s, log)).2.2 = log ++ new ∧
      Tells (alone work k j (s, log)).1 (l ++ new) := by
  induction k generalizing j l s log with
  | zero => exact ⟨[], (List.append_nil log).symm, (List.append_nil l).symm ▸ h⟩
  | succ k ih =>
    rw [alone, bind_apply]
    cases j with
    | due t =>
      obtain ⟨new, hlog, hnew⟩ := hwork t l s log h
      obtain ⟨more, hlog', hmore⟩ := ih hnew (work t (s, log)).2.1 (work t (s, log)).2.2
      refine ⟨new ++ more, ?_, ?_⟩
      · rw [← List.append_assoc, ← hlog]
        exact hlog'
      · rw [← List.append_assoc]
        exact hmore
    | done a => exact ih h s log

/-- **Of jobs one after the other** all is heard one after the other. -/
theorem exists_told_alone (hwork : Telling work Tells) (hstart : ∀ j ∈ js, Tells j []) {k : Nat}
    {s : σ} {log : List ε} {as : List α} {t : σ × List ε}
    (h : js.mapM (alone work k) (s, log) = (as.map done, t)) :
    ∃ qs : List (α × List ε), qs.map Prod.fst = as ∧ (∀ q ∈ qs, Tells (.done q.1) q.2) ∧
      t.2 = log ++ qs.flatMap Prod.snd := by
  induction js generalizing s log as with
  | nil =>
    rw [mapM_nil_apply] at h
    obtain ⟨has, rfl⟩ := Prod.mk.inj h
    obtain rfl := List.map_eq_nil_iff.mp has.symm
    exact ⟨[], rfl, by simp, (List.append_nil log).symm⟩
  | cons j js ih =>
    obtain ⟨new, hlog, hnew⟩ := exists_told_goOn hwork k (hstart j List.mem_cons_self) s log
    rw [mapM_cons_apply] at h
    obtain ⟨has, rfl⟩ := Prod.mk.inj h
    obtain ⟨a, as, rfl, ha, has⟩ := List.map_eq_cons_iff.mp has.symm
    obtain ⟨qs, rfl, hqs, hrest⟩ := ih (fun j hj => hstart j (List.mem_cons_of_mem _ hj))
      (Prod.ext has.symm rfl)
    refine ⟨(a, new) :: qs, rfl, List.forall_mem_cons.mpr ⟨?_, hqs⟩, ?_⟩
    · rw [ha]
      exact hnew
    · rw [hrest, hlog, List.append_assoc]
      rfl

end Job

end ApiAvailability
