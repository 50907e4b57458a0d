import ApiAvailability.Pass.Ensure
import ApiAvailability.Proofs.Turns

/-!
# Proofs/Pass/Interleaved — work on objects that takes turns

Making sure of an object is one call of the registry or two, and between any two calls others may
have their turn.  Here the entries of a pass are jobs: the entries are made sure of in the order of
one schedule (`ensureInTurns`), and when all of that is done those that could be are read back in
the order of another (`observeInTurns`).

* `isSome_ensureInTurns`, `isSome_fetchInTurns` — two turns for each entry are enough, and one;
* `ensureInTurns_oneByOne`, `observeInTurns_oneByOne` — the pass that takes entry by entry is one of
  the interleavings.
-/

namespace ApiAvailability

/-- **What is left of making sure of an object**: to look for it, or to make it. -/
inductive Ensuring where
  | look (d : Desired)
  | make (d : Desired)

namespace Ensuring

/-- The desired API service. -/
def desired : Ensuring → Desired
  | look d | make d => d

/-- The calls of the registry that may follow the next one. -/
def rank : Ensuring → Nat
  | look _ => 1
  | make _ => 0

/-- **One call of the registry**, and what is told in view of its answer. -/
def work {m : Type → Type} [Monad m] (registry : Registry m) (record : Event → m Unit) :
    Ensuring → m (Job Ensuring (Desired × Except StoreError Ensured))
  | look d => do
    match ← d.look registry record with
    | some result => return .done (d, result)
    | none => return .due (make d)
  | make d => return .done (d, ← d.make registry record)

end Ensuring

section Definitions

variable {m : Type → Type} [Monad m] (registry : Registry m) (record : Event → m Unit)

/-- One call of the registry, which reads an object back. -/
def fetchWork (d : Desired) : m (Job Desired (Desired × Except StoreError Health)) :=
  return .done (d, ← d.fetch registry)

/-- **Makes sure of objects in turns**: how that went for each, if the schedule brings all to an
end. -/
def ensureInTurns (schedule : List Nat) (ds : List Desired) :
    m (Option (List (Desired × Except StoreError Ensured))) :=
  return Job.results? (← Job.takeTurns (Ensuring.work registry record) schedule
    (ds.map fun d => .due (.look d)))

/-- **Reads objects back in turns.** -/
def fetchInTurns (schedule : List Nat) (ds : List Desired) :
    m (Option (List (Desired × Except StoreError Health))) :=
  return Job.results? (← Job.takeTurns (fetchWork registry) schedule (ds.map .due))

/-- **The observations of work in turns**: all entries are made sure of, and then those that could
be are read back. -/
def observeInTurns (first second : List Nat) (ds : List Desired) :
    m (Option (List Observation)) := do
  match ← ensureInTurns registry record first ds with
  | none => return none
  | some ensured =>
    match ← fetchInTurns registry second (ensured.filterMap ready?) with
    | none => return none
    | some fetched =>
      return some (ensured.filterMap Observation.ofEnsured? ++
        fetched.map fun (d, r) => ⟨d.name, .ofFetched r⟩)

end Definitions

variable {σ : Type} (registry : Registry (StateM σ)) (record : Event → StateM σ Unit)
  {ds : List Desired}

theorem ensureInTurns_apply (schedule : List Nat) (ds : List Desired) (w : σ) :
    ensureInTurns registry record schedule ds w =
      let p := Job.takeTurns (Ensuring.work registry record) schedule
        (ds.map fun d => .due (.look d)) w
      (Job.results? p.1, p.2) := rfl

theorem fetchInTurns_apply (schedule : List Nat) (ds : List Desired) (w : σ) :
    fetchInTurns registry schedule ds w =
      let p := Job.takeTurns (fetchWork registry) schedule (ds.map .due) w
      (Job.results? p.1, p.2) := rfl

/-- **What a call of any job keeps** holds when all entries have been made sure of. -/
theorem ensureInTurns_induction
    {P : List (Job Ensuring (Desired × Except StoreError Ensured)) → σ → Prop}
    (hwork : ∀ js w i t, js[i]? = some (.due t) → P js w →
      P (js.set i (t.work registry record w).1) (t.work registry record w).2)
    {schedule : List Nat} {w : σ} (h : P (ds.map fun d => .due (.look d)) w)
    {results : List (Desired × Except StoreError Ensured)}
    (hresults : results ∈ (ensureInTurns registry record schedule ds w).1) :
    P (results.map .done) (ensureInTurns registry record schedule ds w).2 := by
  rw [ensureInTurns_apply] at hresults ⊢
  rw [← Job.eq_map_done hresults]
  exact Job.takeTurns_induction _ hwork schedule h

/-- **What reading any object back keeps** holds when all have been read back. -/
theorem fetchInTurns_induction
    {P : List (Job Desired (Desired × Except StoreError Health)) → σ → Prop}
    (hwork : ∀ js w i d, js[i]? = some (.due d) → P js w →
      P (js.set i (fetchWork registry d w).1) (fetchWork registry d w).2)
    {schedule : List Nat} {w : σ} (h : P (ds.map .due) w)
    {results : List (Desired × Except StoreError Health)}
    (hresults : results ∈ (fetchInTurns registry schedule ds w).1) :
    P (results.map .done) (fetchInTurns registry schedule ds w).2 := by
  rw [fetchInTurns_apply] at hresults ⊢
  rw [← Job.eq_map_done hresults]
  exact Job.takeTurns_induction _ hwork schedule h

/-- **Work in turns that came to an end**: all entries were made sure of, and then all of those that
could be were read back. -/
theorem eq_of_mem_observeInTurns {first second : List Nat} {w : σ} {os : List Observation}
    (h : os ∈ (observeInTurns registry record first second ds w).1) :
    ∃ ensured w₁ fetched w₂, ensureInTurns registry record first ds w = (some ensured, w₁) ∧
      fetchInTurns registry second (ensured.filterMap ready?) w₁ = (some fetched, w₂) ∧
      observeInTurns registry record first second ds w =
        (some (ensured.filterMap Observation.ofEnsured? ++
          fetched.map fun (d, r) => ⟨d.name, .ofFetched r⟩), w₂) := by
  unfold observeInTurns at h ⊢
  rw [bind_apply] at h ⊢
  rcases hfirst : ensureInTurns registry record first ds w with ⟨_ | ensured, w₁⟩
  · rw [hfirst] at h
    contradiction
  · rw [hfirst] at h
    dsimp only at h ⊢
    rw [bind_apply] at h ⊢
    rcases hsecond : fetchInTurns registry second (ensured.filterMap ready?) w₁ with
      ⟨_ | fetched, w₂⟩
    · rw [hsecond] at h
      contradiction
    · exact ⟨ensured, w₁, fetched, w₂, rfl, hsecond, rfl⟩

/-! ## Turns enough -/

theorem Ensuring.rank_lt {t t' : Ensuring} {w : σ} (h : (t.work registry record w).1 = .due t') :
    t'.rank < t.rank := by
  cases t with
  | look d =>
    rw [work, bind_apply] at h
    rcases hlook : (d.look registry record w).1 with _ | result
    · rw [hlook] at h
      obtain rfl : make d = t' := Job.due.inj h
      exact Nat.zero_lt_one
    · rw [hlook] at h
      contradiction
  | make d => contradiction

/-- **Two turns for each entry** are enough to make sure of it. -/
theorem isSome_ensureInTurns {schedule : List Nat} (h : ∀ i < ds.length, 2 ≤ schedule.count i)
    (w : σ) : (ensureInTurns registry record schedule ds w).1.isSome := by
  refine Job.isSome_results? _ Ensuring.rank (fun _ _ _ => Ensuring.rank_lt registry record) ?_ w
  intro i t hi
  rw [List.getElem?_map] at hi
  obtain ⟨d, hd, ht⟩ := Option.map_eq_some_iff.mp hi
  obtain rfl : Ensuring.look d = t := Job.due.inj ht
  exact h i (List.getElem?_eq_some_iff.mp hd).1

/-- **One turn for each entry** is enough to read it back. -/
theorem isSome_fetchInTurns {schedule : List Nat} (h : ∀ i < ds.length, 1 ≤ schedule.count i)
    (w : σ) : (fetchInTurns registry schedule ds w).1.isSome := by
  refine Job.isSome_results? _ (fun _ => 0) nofun ?_ w
  intro i d hi
  rw [List.getElem?_map] at hi
  obtain ⟨d', hd', -⟩ := Option.map_eq_some_iff.mp hi
  exact h i (List.getElem?_eq_some_iff.mp hd').1

/-- **Turns enough for each entry** bring the work to an end. -/
theorem isSome_observeInTurns {first second : List Nat}
    (hfirst : ∀ i < ds.length, 2 ≤ first.count i) (hsecond : ∀ i < ds.length, 1 ≤ second.count i)
    (w : σ) : (observeInTurns registry record first second ds w).1.isSome := by
  obtain ⟨ensured, hensured⟩ := Option.isSome_iff_exists.mp
    (isSome_ensureInTurns registry record hfirst w)
  have hlength : (ensured.map Job.done).length = ds.length :=
    ensureInTurns_induction registry record (P := fun js _ => js.length = ds.length)
      (fun js w i t hi h => by rw [List.length_set, h]) (by rw [List.length_map]) hensured
  have hle : (ensured.filterMap ready?).length ≤ ds.length := by
    rw [← hlength, List.length_map]
    exact List.length_filterMap_le _ _
  obtain ⟨fetched, hfetched⟩ := Option.isSome_iff_exists.mp
    (isSome_fetchInTurns registry (fun i hi => hsecond i (Nat.lt_of_lt_of_le hi hle))
      (ensureInTurns registry record first ds w).2)
  rw [observeInTurns]
  rw [bind_apply, hensured]
  dsimp only
  rw [bind_apply, hfetched]
  rfl

/-! ## Entry by entry -/

theorem Ensuring.alone_look (d : Desired) (w : σ) :
    Job.alone (work registry record) 2 (.due (look d)) w =
      (.done (d, (d.ensure registry record w).1), (d.ensure registry record w).2) := by
  rw [Job.alone]
  rw [bind_apply, Job.goOn, work, Desired.ensure]
  rw [bind_apply, bind_apply]
  rcases (d.look registry record w).1 with _ | result <;> rfl

theorem mapM_alone_look (ds : List Desired) (w : σ) :
    (ds.map fun d => Job.due (.look d)).mapM (Job.alone (Ensuring.work registry record) 2) w =
      ((ensureAll registry record ds w).1.map .done, (ensureAll registry record ds w).2) := by
  rw [ensureAll]
  induction ds generalizing w with
  | nil => rfl
  | cons d ds ih =>
    rw [List.map_cons, mapM_cons_apply, mapM_cons_apply, Ensuring.alone_look, ih]
    rfl

theorem mapM_alone_fetch (ds : List Desired) (w : σ) :
    (ds.map Job.due).mapM (Job.alone (fetchWork registry) 1) w =
      ((fetchAll registry ds w).1.map .done, (fetchAll registry ds w).2) := by
  rw [fetchAll]
  induction ds generalizing w with
  | nil => rfl
  | cons d ds ih =>
    rw [List.map_cons, mapM_cons_apply, mapM_cons_apply, ih]
    rfl

/-- **Entry by entry** is one of the orders in which objects are made sure of. -/
theorem ensureInTurns_oneByOne (ds : List Desired) (w : σ) :
    ensureInTurns registry record (Job.oneByOne 2 ds.length) ds w =
      (some (ensureAll registry record ds w).1, (ensureAll registry record ds w).2) := by
  have hturns := Job.takeTurns_oneByOne (Ensuring.work registry record) 2
    (ds.map fun d => .due (.look d)) w
  rw [List.length_map, mapM_alone_look] at hturns
  rw [ensureInTurns_apply, hturns]
  simp only [Job.results?_map_done]

theorem fetchInTurns_oneByOne (ds : List Desired) (w : σ) :
    fetchInTurns registry (Job.oneByOne 1 ds.length) ds w =
      (some (fetchAll registry ds w).1, (fetchAll registry ds w).2) := by
  have hturns := Job.takeTurns_oneByOne (fetchWork registry) 1 (ds.map .due) w
  rw [List.length_map, mapM_alone_fetch] at hturns
  rw [fetchInTurns_apply, hturns]
  simp only [Job.results?_map_done]

/-- **The pass that takes entry by entry** is one of the interleavings. -/
theorem observeInTurns_oneByOne (ds : List Desired) (w : σ) :
    ∃ n, observeInTurns registry record (Job.oneByOne 2 ds.length) (Job.oneByOne 1 n) ds w =
      (some (observe registry record ds w).1, (observe registry record ds w).2) := by
  refine ⟨((ensureAll registry record ds w).1.filterMap ready?).length, ?_⟩
  rw [observeInTurns, observe]
  rw [bind_apply, ensureInTurns_oneByOne, bind_apply]
  dsimp only
  rw [bind_apply, fetchInTurns_oneByOne, bind_apply]
  rfl

end ApiAvailability
