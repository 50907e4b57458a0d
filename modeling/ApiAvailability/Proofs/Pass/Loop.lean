import ApiAvailability.Pass.Loop
import ApiAvailability.Proofs.Effects

/-!
# Proofs/Pass/Loop — how long a loop of passes goes on

All that a loop remembers of its passes is a number, and that number is how many passes in a row
have failed up to now (`failuresBefore`).  So whether it gives up after a pass is told by the results
alone (`GivesUpAt`), and

* `runFrom_of_goesOn` — up to the first pass after which it ends, a loop does nothing but its passes;
* `ends_when_due` — it ends after the first pass after which it gives up or during which it is
  asked to stop, and not before; a pass that did not fail makes it forget those before.
-/

namespace ApiAvailability

/-- Whether a pass failed. -/
def isFailed : Except PassError PassOutcome → Bool
  | .ok _ => false
  | .error _ => true

/-! ## Failures in a row -/

section Results

variable (results : Nat → Except PassError PassOutcome)

/-- **How many passes in a row have failed** right before pass `n`. -/
def failuresBefore : Nat → Nat
  | 0 => 0
  | n + 1 =>
    match results n with
    | .ok _ => 0
    | .error _ => failuresBefore n + 1

variable {results} {n : Nat}

theorem failuresBefore_of_ok {o : PassOutcome} (h : results n = .ok o) :
    failuresBefore results (n + 1) = 0 := by
  rw [failuresBefore, h]

theorem failuresBefore_of_error {e : PassError} (h : results n = .error e) :
    failuresBefore results (n + 1) = failuresBefore results n + 1 := by
  rw [failuresBefore, h]

/-- At least `m` passes in a row have failed if there were so many and the last `m` all failed. -/
theorem le_failuresBefore_iff {m : Nat} : m ≤ failuresBefore results n ↔
    m ≤ n ∧ ∀ i < n, n ≤ i + m → isFailed (results i) = true := by
  induction n generalizing m with
  | zero => simp [failuresBefore]
  | succ n ih =>
    rcases m with _ | m
    · exact iff_of_true (Nat.zero_le _) ⟨Nat.zero_le _, fun i hi hm => by omega⟩
    rcases hn : results n with e | o
    · rw [failuresBefore_of_error hn, Nat.succ_le_succ_iff, ih]
      refine ⟨fun ⟨hm, h⟩ => ⟨by omega, fun i hi him => ?_⟩,
        fun ⟨hm, h⟩ => ⟨by omega, fun i hi him => h i (by omega) (by omega)⟩⟩
      rcases Nat.lt_succ_iff_lt_or_eq.mp hi with hi | rfl
      · exact h i hi (by omega)
      · rw [hn]
        rfl
    · rw [failuresBefore_of_ok hn]
      refine iff_of_false (Nat.not_succ_le_zero m) fun ⟨_, h⟩ => ?_
      have hfailed := h n (Nat.lt_succ_self n) (by omega)
      rw [hn] at hfailed
      contradiction

end Results

namespace LoopPlan

variable (p : LoopPlan)

/-! ## Giving up -/

/-- The failed passes in a row that a loop does not stand: at least one. -/
def patience : Nat := max 1 p.maxErrors

/-- **A loop gives up after pass `n`** if that pass failed and the loop is to stop at the first
failure, or if the last passes all failed, as many as it does not stand. -/
def GivesUpAt (results : Nat → Except PassError PassOutcome) (n : Nat) : Prop :=
  isFailed (results n) = true ∧ (p.stopOnError = true ∨
    p.patience ≤ n + 1 ∧ ∀ i ≤ n, n < i + p.patience → isFailed (results i) = true)

instance (results : Nat → Except PassError PassOutcome) (n : Nat) :
    Decidable (p.GivesUpAt results n) := inferInstanceAs (Decidable (_ ∧ _))

variable {p} {results : Nat → Except PassError PassOutcome} {n : Nat}

/-- After a pass that did not fail no loop gives up. -/
theorem not_givesUpAt_of_ok {o : PassOutcome} (h : results n = .ok o) :
    ¬p.GivesUpAt results n := by
  rintro ⟨hfailed, -⟩
  rw [h] at hfailed
  contradiction

/-- After a failed pass, the loop gives up if it is to stop at the first failure or if the number
that it remembers says so. -/
theorem givesUpAt_iff {e : PassError} (h : results n = .error e) : p.GivesUpAt results n ↔
    p.stopOnError = true ∨ p.maxErrors ≤ failuresBefore results n + 1 := by
  have hfailed : isFailed (results n) = true := by
    rw [h]
    rfl
  have hpatience : p.maxErrors ≤ failuresBefore results n + 1 ↔
      p.patience ≤ failuresBefore results (n + 1) := by
    rw [failuresBefore_of_error h, patience]
    omega
  rw [GivesUpAt, and_iff_right hfailed, hpatience, le_failuresBefore_iff]
  simp only [Nat.lt_succ_iff, Nat.succ_le_iff]

/-- A loop that gives up says why. -/
theorem after_of_givesUpAt {e : PassError} (h : p.GivesUpAt results n)
    (he : results n = .error e) : p.after (failuresBefore results n) (results n) =
      .error (if p.stopOnError then e else p.tooMany) := by
  rw [he, after]
  split
  · rfl
  · rename_i hstop
    rw [if_pos (((givesUpAt_iff he).mp h).resolve_left hstop)]

/-- A loop that does not give up remembers how many passes in a row have failed. -/
theorem after_of_not_givesUpAt (h : ¬p.GivesUpAt results n) :
    p.after (failuresBefore results n) (results n) = .ok (failuresBefore results (n + 1)) := by
  rcases hn : results n with e | o
  · rw [givesUpAt_iff hn, not_or] at h
    rw [after, if_neg h.1, if_neg h.2, failuresBefore_of_error hn]
  · rw [failuresBefore_of_ok hn]
    rfl

/-! ## The passes of a loop -/

variable {σ : Type} (pass : Nat → StateM σ (Except PassError PassOutcome × Bool)) (w : σ)

/-- **The state in which pass `n` begins**, when pass follows on pass. -/
def stateBefore : Nat → σ
  | 0 => w
  | n + 1 => (pass n (stateBefore n)).2

/-- What came of pass `n`. -/
def resultOf (n : Nat) : Except PassError PassOutcome := (pass n (stateBefore pass w n)).1.1

/-- Whether the loop was asked to stop during pass `n`. -/
def isAsked (n : Nat) : Bool := (pass n (stateBefore pass w n)).1.2

variable {pass w} {k fuel : Nat}

/-- One pass of a loop. -/
theorem runFrom_succ_apply (failed : Nat) (s : σ) : p.runFrom pass n failed (fuel + 1) s =
    match p.after failed (pass n s).1.1 with
    | .error e => ((.gaveUp e, n), (pass n s).2)
    | .ok failed =>
      if (pass n s).1.2 then ((.stopped, n), (pass n s).2)
      else p.runFrom pass (n + 1) failed fuel (pass n s).2 := by
  rw [runFrom, bind_apply]
  rcases pass n s with ⟨⟨result, asked⟩, s'⟩
  dsimp only
  cases p.after failed result with
  | error e => rfl
  | ok failed => cases asked <;> rfl

variable (p pass w) in
/-- **A loop goes on after pass `n`**: it does not give up and was not asked to stop. -/
def GoesOn (n : Nat) : Prop :=
  ¬p.GivesUpAt (resultOf pass w) n ∧ isAsked pass w n = false

/-- **As long as it goes on, a loop does nothing but its passes**, and it remembers how many in a
row have failed. -/
theorem runFrom_of_goesOn (h : ∀ i < k, p.GoesOn pass w i) : p.runFrom pass 0 0 (k + fuel) w =
    p.runFrom pass k (failuresBefore (resultOf pass w) k) fuel (stateBefore pass w k) := by
  induction k generalizing fuel with
  | zero => rw [Nat.zero_add, failuresBefore, stateBefore]
  | succ k ih =>
    obtain ⟨hgoes, hasked⟩ := h k (Nat.lt_succ_self k)
    have hafter := after_of_not_givesUpAt hgoes
    rw [resultOf] at hafter
    rw [isAsked] at hasked
    rw [Nat.succ_add_eq_add_succ, ih fun i hi => h i (Nat.lt_succ_of_lt hi), runFrom_succ_apply,
      hafter]
    simp only [hasked]
    rfl

/-- A loop that gives up after pass `k`. -/
theorem runFrom_of_givesUpAt {e : PassError} (h : ∀ i < k, p.GoesOn pass w i)
    (hk : p.GivesUpAt (resultOf pass w) k) (he : resultOf pass w k = .error e) :
    p.runFrom pass 0 0 (k + (fuel + 1)) w =
      ((.gaveUp (if p.stopOnError then e else p.tooMany), k), stateBefore pass w (k + 1)) := by
  have hafter := after_of_givesUpAt hk he
  rw [resultOf] at hafter
  rw [runFrom_of_goesOn h, runFrom_succ_apply, hafter]
  rfl

/-- A loop that stops after pass `k`. -/
theorem runFrom_of_isAsked (h : ∀ i < k, p.GoesOn pass w i)
    (hk : ¬p.GivesUpAt (resultOf pass w) k) (hasked : isAsked pass w k = true) :
    p.runFrom pass 0 0 (k + (fuel + 1)) w = ((.stopped, k), stateBefore pass w (k + 1)) := by
  have hafter := after_of_not_givesUpAt hk
  rw [resultOf] at hafter
  rw [isAsked] at hasked
  rw [runFrom_of_goesOn h, runFrom_succ_apply, hafter]
  simp only [hasked]
  rfl

/-- The loop up to a time limit, in terms of its passes. -/
theorem run_apply (hp : p.interval ≠ 0) (limit : Nat) : p.run limit pass w =
    let r := p.runFrom pass 0 0 (limit / p.interval + 1) w
    (some (r.1.1, if r.1.1 = .cutOff then limit else r.1.2 * p.interval), r.2) := by
  rw [run, if_neg hp]
  rfl

/-- A pass that is due up to the time limit is among those that there is time for. -/
theorem exists_fuel (hp : p.interval ≠ 0) {limit : Nat} (h : k * p.interval ≤ limit) :
    ∃ fuel, limit / p.interval + 1 = k + (fuel + 1) := by
  have hk : k ≤ limit / p.interval := (Nat.le_div_iff_mul_le (Nat.pos_of_ne_zero hp)).mpr h
  exact ⟨limit / p.interval - k, by omega⟩

/-- **A loop ends when it is due to end.**  Passes take no time, so that none is due yet when another
ends, and they may come to anything.  After the first pass after which the loop gives up, without
having been asked to stop before, it ends with that pass's failure or with the number of failures
that it was not to stand, and no further pass is made.  If there is no such pass and no one asks, it
is still going on at every time limit.  Asked to stop during a pass after which it does not give up,
it stops after that pass.  And a pass that did not fail, whatever came of it, makes it go on as if it
had just begun. -/
theorem ends_when_due (hp : p.interval ≠ 0)
    (pass : Nat → StateM σ (Except PassError PassOutcome × Bool)) (w : σ) (limit : Nat) :
    let results := resultOf pass w
    let asked := isAsked pass w
    let state := stateBefore pass w
    (∀ k e, p.GivesUpAt results k → (∀ i < k, ¬p.GivesUpAt results i) →
      (∀ i < k, asked i = false) → results k = .error e → k * p.interval ≤ limit →
      p.run limit pass w = (some (.gaveUp (if p.stopOnError then e else
        .reconcileFailed ("Max errors (" ++ toString p.maxErrors ++ ") reached")),
        k * p.interval), state (k + 1))) ∧
    ((∀ i, ¬p.GivesUpAt results i) → (∀ i, asked i = false) →
      p.run limit pass w = (some (.cutOff, limit), state (limit / p.interval + 1))) ∧
    (∀ j, asked j = true → (∀ i < j, asked i = false) → (∀ i ≤ j, ¬p.GivesUpAt results i) →
      j * p.interval ≤ limit →
      p.run limit pass w = (some (.stopped, j * p.interval), state (j + 1))) ∧
    ∀ j o fuel, results j = .ok o → (∀ i ≤ j, asked i = false) →
      (∀ i < j, ¬p.GivesUpAt results i) →
      p.runFrom pass 0 0 (j + 1 + fuel) w = p.runFrom pass (j + 1) 0 fuel (state (j + 1)) := by
  intro results asked state
  refine ⟨fun k e hk hfirst hasked he hlimit => ?_, fun hnever hasked => ?_,
    fun j hj hasked hnever hlimit => ?_, fun j o fuel ho hasked hnever => ?_⟩
  · obtain ⟨fuel, hfuel⟩ := exists_fuel hp hlimit
    rw [run_apply hp, hfuel, runFrom_of_givesUpAt (fun i hi => ⟨hfirst i hi, hasked i hi⟩) hk he]
    rfl
  · have hgoes : ∀ i < limit / p.interval + 1, p.GoesOn pass w i := fun i _ =>
      ⟨hnever i, hasked i⟩
    rw [run_apply hp, ← Nat.add_zero (limit / p.interval + 1), runFrom_of_goesOn hgoes]
    rfl
  · obtain ⟨fuel, hfuel⟩ := exists_fuel hp hlimit
    have hgoes : ∀ i < j, p.GoesOn pass w i := fun i hi => ⟨hnever i (Nat.le_of_lt hi), hasked i hi⟩
    rw [run_apply hp, hfuel, runFrom_of_isAsked hgoes (hnever j (Nat.le_refl j)) hj]
    rfl
  · have hgoes : ∀ i < j + 1, p.GoesOn pass w i := by
      intro i hi
      refine ⟨?_, hasked i (Nat.lt_succ_iff.mp hi)⟩
      rcases Nat.lt_succ_iff_lt_or_eq.mp hi with hi | rfl
      · exact hnever i hi
      · exact not_givesUpAt_of_ok ho
    rw [runFrom_of_goesOn hgoes, failuresBefore_of_ok ho]

/-- Passes of which some fail and the others are skipped, and which count themselves. -/
def samplePass (fails asks : Nat → Bool) (n : Nat) :
    StateM Nat (Except PassError PassOutcome × Bool) := fun passes =>
  ((if fails n then .error (.statusReadFailed (.backend "unreachable"))
    else .ok (.skipped .unmanaged), asks n), passes + 1)

/-- Of passes that all fail but the third, a loop that does not stand three failures makes six, even
if it is asked to stop during the last; one that stands more stops there.  Passes that do not fail
go on for ever, and the third makes the loop forget the two before. -/
theorem ends_when_due_failing :
    let fails (n : Nat) : Bool := n ≠ 2
    let asks (n : Nat) : Bool := n = 5
    run ⟨10, 3, false⟩ 1000 (samplePass fails asks) 0 =
      (some (.gaveUp (.reconcileFailed "Max errors (3) reached"), 50), 6) ∧
    run ⟨10, 3, false⟩ 35 (samplePass (fun _ => false) fun _ => false) 0 =
      (some (.cutOff, 35), 4) ∧
    run ⟨10, 7, false⟩ 1000 (samplePass fails asks) 0 = (some (.stopped, 50), 6) ∧
    runFrom ⟨10, 3, false⟩ (samplePass fails asks) 0 0 9 0 =
      runFrom ⟨10, 3, false⟩ (samplePass fails asks) 3 0 6 3 := by
  intro fails asks
  obtain ⟨hgivesUp, -, -, hforgets⟩ :=
    ends_when_due (p := ⟨10, 3, false⟩) (by decide) (samplePass fails asks) 0 1000
  obtain ⟨-, hgoesOn, -, -⟩ := ends_when_due (p := ⟨10, 3, false⟩) (by decide)
    (samplePass (fun _ => false) fun _ => false) 0 35
  obtain ⟨-, -, hstops, -⟩ :=
    ends_when_due (p := ⟨10, 7, false⟩) (by decide) (samplePass fails asks) 0 1000
  refine ⟨hgivesUp 5 _ (by decide) (by decide) (by decide) rfl (by decide),
    hgoesOn (fun i => not_givesUpAt_of_ok rfl) fun _ => rfl,
    hstops 5 rfl (by decide) (by decide) (by decide), ?_⟩
  exact hforgets 2 _ 6 rfl (by decide) (by decide)

end LoopPlan

end ApiAvailability
