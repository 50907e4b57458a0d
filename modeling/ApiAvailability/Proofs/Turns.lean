import ApiAvailability.Proofs.Effects

/-!
# Proofs/Turns — jobs that take turns on one state

Several jobs work on one state.  The work of each is cut into pieces, and between any two of them
others may have their turn.  A **schedule** says whose turn it is, job by number; a turn of a job
that is done, or of none, passes without an effect, so that every interleaving is a schedule.

* `takeTurns_induction` — what a piece of any job keeps, every schedule keeps;
* `isSome_results?` — a schedule with turns enough for each job brings all of them to an end;
* `takeTurns_oneByOne` — one job after the other is one of the schedules.
-/

namespace ApiAvailability

/-- **A job**: the work that is due, or what came of it. -/
inductive Job (τ α : Type) where
  | due (t : τ)
  | done (a : α)

namespace Job

section Definitions

variable {τ α : Type} {m : Type → Type} [Monad m]

/-- What came of the jobs, if all of them are done. -/
def results? : List (Job τ α) → Option (List α)
  | [] => some []
  | due _ :: _ => none
  | done a :: js => (results? js).map (a :: ·)

variable (work : τ → m (Job τ α))

/-- One piece of the work on a job, if there is any left. -/
def goOn : Job τ α → m (Job τ α)
  | due t => work t
  | done a => return done a

/-- **A turn** of the job of a number. -/
def turn (js : List (Job τ α)) (i : Nat) : m (List (Job τ α)) :=
  match js[i]? with
  | some (due t) => return js.set i (← work t)
  | _ => return js

/-- **Turns** in the order of a schedule. -/
def takeTurns (schedule : List Nat) (js : List (Job τ α)) : m (List (Job τ α)) :=
  schedule.foldlM (turn work) js

/-- Up to so many pieces of the work on a job, with nobody in between. -/
def alone : Nat → Job τ α → m (Job τ α)
  | 0, j => return j
  | k + 1, j => do alone k (← goOn work j)

/-- The schedule that gives `k` turns to each of `n` jobs, one after the other. -/
def oneByOne (k : Nat) : Nat → List Nat
  | 0 => []
  | n + 1 => List.replicate k 0 ++ (oneByOne k n).map (· + 1)

end Definitions

variable {σ τ α : Type} {js : List (Job τ α)}

@[simp] theorem results?_map_done (as : List α) :
    results? (as.map (done : α → Job τ α)) = some as := by
  induction as with
  | nil => rfl
  | cons a as ih => rw [List.map_cons, results?, ih, Option.map_some]

/-- Jobs that came to results are all done. -/
theorem eq_map_done {as : List α} (h : results? js = some as) : js = as.map done := by
  induction js generalizing as with
  | nil =>
    obtain rfl : [] = as := Option.some.inj h
    rfl
  | cons j js ih =>
    cases j with
    | due t => contradiction
    | done a =>
      obtain ⟨as', has', rfl⟩ := Option.map_eq_some_iff.mp h
      rw [List.map_cons, ← ih has']

/-- Jobs none of which has work left have all come to results. -/
theorem isSome_results?_of_forall (h : ∀ (i : Nat) (t : τ), js[i]? ≠ some (due t)) :
    (results? js).isSome := by
  induction js with
  | nil => rfl
  | cons j js ih =>
    cases j with
    | due t => exact absurd rfl (h 0 t)
    | done a =>
      rw [results?, Option.isSome_map]
      exact ih fun i t => h (i + 1) t

/-- The jobs after one of them has changed. -/
theorem getElem?_set_iff {i k : Nat} {j j' x : Job τ α} (hi : js[i]? = some j) :
    (js.set i j')[k]? = some x ↔ k = i ∧ x = j' ∨ k ≠ i ∧ js[k]? = some x := by
  have hlt : i < js.length := (List.getElem?_eq_some_iff.mp hi).1
  rw [List.getElem?_set]
  by_cases hik : i = k
  · subst hik
    simp [hlt, eq_comm]
  · simp [hik, Ne.symm hik]

theorem set_self {i : Nat} {j : Job τ α} (hi : js[i]? = some j) : js.set i j = js := by
  obtain ⟨hlt, rfl⟩ := List.getElem?_eq_some_iff.mp hi
  exact List.set_getElem_self hlt

/-- What stays the same about the job whose turn it is stays the same about all jobs. -/
theorem map_set_of_eq {β : Type} {f : Job τ α → β} {i : Nat} {j j' : Job τ α}
    (hi : js[i]? = some j) (h : f j' = f j) : (js.set i j').map f = js.map f := by
  have hlt : i < js.length := (List.getElem?_eq_some_iff.mp hi).1
  ext1 k
  rw [List.getElem?_map, List.getElem?_map, List.getElem?_set]
  by_cases hik : i = k
  · subst hik
    rw [if_pos rfl, if_pos hlt, hi, Option.map_some, Option.map_some, h]
  · rw [if_neg hik]

variable (work : τ → StateM σ (Job τ α))

/-! ## What a piece of work keeps -/

theorem takeTurns_cons (i : Nat) (schedule : List Nat) (js : List (Job τ α)) (s : σ) :
    takeTurns work (i :: schedule) js s =
      takeTurns work schedule (turn work js i s).1 (turn work js i s).2 := rfl

theorem turn_due {i : Nat} {t : τ} (h : js[i]? = some (due t)) (s : σ) :
    turn work js i s = (js.set i (work t s).1, (work t s).2) := by
  rw [turn, h]
  rfl

theorem takeTurns_due {schedule : List Nat} {i : Nat} {t : τ} {s s' : σ} {j : Job τ α}
    (hi : js[i]? = some (due t)) (hwork : work t s = (j, s')) :
    takeTurns work (i :: schedule) js s = takeTurns work schedule (js.set i j) s' := by
  rw [takeTurns_cons, turn_due work hi, hwork]

/-- A turn is a piece of the work that is due, or passes. -/
theorem turn_cases (js : List (Job τ α)) (i : Nat) (s : σ) :
    (∃ t, js[i]? = some (due t) ∧ turn work js i s = (js.set i (work t s).1, (work t s).2)) ∨
      turn work js i s = (js, s) ∧ ∀ t, js[i]? ≠ some (due t) := by
  rw [turn]
  rcases h : js[i]? with _ | ⟨t | a⟩
  · exact .inr ⟨rfl, by simp⟩
  · exact .inl ⟨t, rfl, rfl⟩
  · exact .inr ⟨rfl, by simp⟩

/-- **What a piece of the work on any job keeps** while a condition holds of the state, a schedule
keeps that meets the condition at every moment. -/
theorem takeTurns_induction_while {P : List (Job τ α) → σ → Prop} {Q : σ → Prop}
    (hwork : ∀ js s i t, js[i]? = some (due t) → P js s → Q (work t s).2 →
      P (js.set i (work t s).1) (work t s).2)
    {schedule : List Nat} {js : List (Job τ α)} {s : σ}
    (hmeets : ∀ first second, schedule = first ++ second → Q (takeTurns work first js s).2)
    (h : P js s) : P (takeTurns work schedule js s).1 (takeTurns work schedule js s).2 := by
  induction schedule generalizing js s with
  | nil => exact h
  | cons i schedule ih =>
    rw [takeTurns_cons]
    refine ih (fun first second hsplit => ?_) ?_
    · exact hmeets (i :: first) second (congrArg (i :: ·) hsplit)
    · have hone : Q (turn work js i s).2 := hmeets [i] schedule rfl
      obtain ⟨t, hi, hturn⟩ | ⟨hturn, -⟩ := turn_cases work js i s
      · rw [hturn] at hone ⊢
        exact hwork js s i t hi h hone
      · rw [hturn]
        exact h

/-- **What a piece of the work on any job keeps, every schedule keeps.** -/
theorem takeTurns_induction {P : List (Job τ α) → σ → Prop}
    (hwork : ∀ js s i t, js[i]? = some (due t) → P js s →
      P (js.set i (work t s).1) (work t s).2)
    (schedule : List Nat) {js : List (Job τ α)} {s : σ} (h : P js s) :
    P (takeTurns work schedule js s).1 (takeTurns work schedule js s).2 :=
  takeTurns_induction_while work (Q := fun _ => True)
    (fun js s i t hi hP _ => hwork js s i t hi hP) (fun _ _ _ => trivial) h

/-- What no piece of work changes about a job stays as it is. -/
theorem map_takeTurns {β : Type} {f : Job τ α → β}
    (hwork : ∀ t s, f (work t s).1 = f (.due t)) (schedule : List Nat) (js : List (Job τ α))
    (s : σ) : (takeTurns work schedule js s).1.map f = js.map f :=
  takeTurns_induction work (P := fun js' _ => js'.map f = js.map f)
    (fun _ s _ t hi h => (map_set_of_eq hi (hwork t s)).trans h) schedule rfl

/-! ## Coming to an end -/

/-- **Turns enough for each job bring all to an end**, where every piece of work lowers a rank. -/
theorem isSome_results? (rank : τ → Nat)
    (hrank : ∀ t s t', (work t s).1 = due t' → rank t' < rank t) {schedule : List Nat}
    (h : ∀ (i : Nat) (t : τ), js[i]? = some (due t) → rank t < schedule.count i) (s : σ) :
    (results? (takeTurns work schedule js s).1).isSome := by
  induction schedule generalizing js s with
  | nil => exact isSome_results?_of_forall fun i t hi => absurd (h i t hi) (Nat.not_lt_zero _)
  | cons i schedule ih =>
    rw [takeTurns_cons]
    refine ih (fun j t' hj => ?_) _
    obtain ⟨t, hi, hturn⟩ | ⟨hturn, hpass⟩ := turn_cases work js i s
    · rw [hturn, List.getElem?_set] at hj
      have hcount := h j
      rw [List.count_cons] at hcount
      split at hj
      · next hij =>
        -- the job whose turn it was has used up one of its turns
        subst hij
        have hlt := hcount t hi
        obtain ⟨-, hnext⟩ : i < js.length ∧ (work t s).1 = due t' := by simpa using hj
        have hless := hrank t s t' hnext
        simp only [BEq.rfl, if_true] at hlt
        omega
      · next hij => simpa [hij] using hcount t' hj
    · rw [hturn] at hj
      have hne : i ≠ j := fun hij => hpass t' (hij ▸ hj)
      simpa [List.count_cons, hne] using h j t' hj

/-! ## One job after the other -/

theorem takeTurns_append (first second : List Nat) (js : List (Job τ α)) (s : σ) :
    takeTurns work (first ++ second) js s =
      takeTurns work second (takeTurns work first js s).1 (takeTurns work first js s).2 := by
  rw [takeTurns, List.foldlM_append]
  rfl

/-- The turn of the first job. -/
theorem turn_zero (j : Job τ α) (js : List (Job τ α)) (s : σ) :
    turn work (j :: js) 0 s = ((goOn work j s).1 :: js, (goOn work j s).2) := by
  cases j <;> rfl

theorem takeTurns_replicate_zero (k : Nat) (j : Job τ α) (js : List (Job τ α)) (s : σ) :
    takeTurns work (List.replicate k 0) (j :: js) s =
      ((alone work k j s).1 :: js, (alone work k j s).2) := by
  induction k generalizing j s with
  | zero => rfl
  | succ k ih =>
    rw [List.replicate_succ, takeTurns_cons, turn_zero]
    exact ih _ _

/-- Turns of the jobs behind the first one. -/
theorem takeTurns_map_succ (schedule : List Nat) (j : Job τ α) (js : List (Job τ α)) (s : σ) :
    takeTurns work (schedule.map (· + 1)) (j :: js) s =
      (j :: (takeTurns work schedule js s).1, (takeTurns work schedule js s).2) := by
  induction schedule generalizing js s with
  | nil => rfl
  | cons i schedule ih =>
    have hturn : turn work (j :: js) (i + 1) s =
        (j :: (turn work js i s).1, (turn work js i s).2) := by
      rw [turn, turn, List.getElem?_cons_succ]
      rcases js[i]? with _ | ⟨t | a⟩ <;> rfl
    rw [List.map_cons, takeTurns_cons, hturn, takeTurns_cons]
    exact ih _ _

/-- **One job after the other** is one of the schedules. -/
theorem takeTurns_oneByOne (k : Nat) (js : List (Job τ α)) (s : σ) :
    takeTurns work (oneByOne k js.length) js s = js.mapM (alone work k) s := by
  induction js generalizing s with
  | nil => rfl
  | cons j js ih =>
    rw [List.length_cons, oneByOne, takeTurns_append, takeTurns_replicate_zero,
      takeTurns_map_succ, mapM_cons_apply, ih]

/-! ## The same on larger states -/

/-- **Jobs whose work mirrors that of others mirror them**, whatever the schedule. -/
theorem takeTurns_mirrors {ρ : Type} {view : ρ → σ} {work' : τ → StateM ρ (Job τ α)}
    {work : τ → StateM σ (Job τ α)} (h : ∀ t, Mirrors view (work' t) (work t))
    (schedule : List Nat) (js : List (Job τ α)) :
    Mirrors view (takeTurns work' schedule js) (takeTurns work schedule js) := by
  induction schedule generalizing js with
  | nil => exact .pure js
  | cons i schedule ih =>
    have hturn : Mirrors view (turn work' js i) (turn work js i) := by
      unfold turn
      rcases js[i]? with _ | ⟨t | a⟩
      · exact .pure js
      · exact (h t).bind fun _ => .pure _
      · exact .pure js
    unfold takeTurns
    rw [List.foldlM_cons, List.foldlM_cons]
    exact hturn.bind ih

end Job

end ApiAvailability
