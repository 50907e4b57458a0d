import Mathlib.Order.Defs.Unbundled

/-!
# Proofs/Effects — computations on a state, one step after the other

The reconciler is written for any monad; on a state `σ` it is a function `σ → α × σ`.  Here are the
equations that run such a computation step by step, and two rules that lead from its steps to the
whole: what each step keeps is kept by all of them (`Keeps.bind`, `Keeps.mapM`), and what each step
does alike on a larger state is done alike by all (`Mirrors.bind`, `Mirrors.mapM`).

A step of a system leads from one state to another and has labels, none or some, for what happened
in it.  What one step makes of a part of the state in view of its labels, many steps make of it in
view of all their labels: `Steps.foldl`, and `Steps.countP` where the part is a count.
-/

namespace ApiAvailability

variable {σ α β : Type}

/-! ## Running -/

theorem bind_apply (x : StateM σ α) (f : α → StateM σ β) (s : σ) :
    (x >>= f) s = f (x s).1 (x s).2 := rfl

theorem pure_apply (a : α) (s : σ) : (pure a : StateM σ α) s = (a, s) := rfl

theorem mapM_nil_apply (f : α → StateM σ β) (s : σ) : ([] : List α).mapM f s = ([], s) := by
  rw [List.mapM_nil, pure_apply]

theorem mapM_cons_apply (f : α → StateM σ β) (a : α) (as : List α) (s : σ) :
    (a :: as).mapM f s = ((f a s).1 :: (as.mapM f (f a s).2).1, (as.mapM f (f a s).2).2) := by
  rw [List.mapM_cons, bind_apply, bind_apply, pure_apply]

/-- Computations that leave the state as it is answer as they do at first. -/
theorem mapM_of_still {f : α → StateM σ β} {g : α → β} {s : σ} {as : List α}
    (h : ∀ a ∈ as, f a s = (g a, s)) : as.mapM f s = (as.map g, s) := by
  induction as with
  | nil => exact mapM_nil_apply f s
  | cons a as ih =>
    have hrest := ih fun a' ha' => h a' (List.mem_cons_of_mem a ha')
    rw [mapM_cons_apply, h a List.mem_cons_self, hrest, List.map_cons]

/-- What came of computations came of one of them, in some state. -/
theorem exists_of_mem_mapM {f : α → StateM σ β} {as : List α} {s : σ} {b : β}
    (h : b ∈ (as.mapM f s).1) : ∃ a ∈ as, ∃ s', (f a s').1 = b := by
  induction as generalizing s with
  | nil =>
    rw [mapM_nil_apply] at h
    contradiction
  | cons a as ih =>
    rw [mapM_cons_apply] at h
    rcases List.mem_cons.mp h with rfl | h
    · exact ⟨a, List.mem_cons_self, s, rfl⟩
    · obtain ⟨a', ha', hs'⟩ := ih h
      exact ⟨a', List.mem_cons_of_mem a ha', hs'⟩

/-- What comes of a computation in some state is among what comes of them all. -/
theorem exists_mem_mapM (f : α → StateM σ β) {as : List α} {a : α} (h : a ∈ as) (s : σ) :
    ∃ s', (f a s').1 ∈ (as.mapM f s).1 := by
  induction as generalizing s with
  | nil => contradiction
  | cons a' as ih =>
    rw [mapM_cons_apply]
    rcases List.mem_cons.mp h with rfl | h
    · exact ⟨s, List.mem_cons_self⟩
    · obtain ⟨s', hs'⟩ := ih h (f a' s).2
      exact ⟨s', List.mem_cons_of_mem _ hs'⟩

/-- What is paired with its result stays in its place. -/
theorem map_fst_mapM (f : α → StateM σ β) (as : List α) (s : σ) :
    (as.mapM (fun a => do return (a, ← f a)) s).1.map Prod.fst = as := by
  induction as generalizing s with
  | nil => rw [mapM_nil_apply, List.map_nil]
  | cons a as ih =>
    rw [mapM_cons_apply, List.map_cons, ih]
    rfl

/-! ## Keeping a relation -/

/-- A computation **keeps** a relation if it leads from every state to a related one. -/
def Keeps (R : σ → σ → Prop) (x : StateM σ α) : Prop := ∀ s, R s (x s).2

namespace Keeps

variable {R : σ → σ → Prop}

theorem of_eq {x : StateM σ α} {a : α} {s s' : σ} (h : Keeps R x) (hx : x s = (a, s')) : R s s' := by
  have hs := h s
  rwa [hx] at hs

/-- A computation that reads the state only keeps every reflexive relation. -/
theorem of_snd_eq [Std.Refl R] {x : StateM σ α} (h : ∀ s, (x s).2 = s) : Keeps R x := by
  intro s
  rw [h]
  exact refl s

theorem pure [Std.Refl R] (a : α) : Keeps R (pure a : StateM σ α) := of_snd_eq fun _ => rfl

theorem bind [IsTrans σ R] {x : StateM σ α} {f : α → StateM σ β} (hx : Keeps R x)
    (hf : ∀ a, Keeps R (f a)) : Keeps R (x >>= f) := by
  intro s
  exact IsTrans.trans _ _ _ (hx s) (hf (x s).1 (x s).2)

/-- **What each step keeps is kept by all of them.** -/
theorem mapM [IsPreorder σ R] {f : α → StateM σ β} {as : List α} (h : ∀ a ∈ as, Keeps R (f a)) :
    Keeps R (as.mapM f) := by
  induction as with
  | nil =>
    rw [List.mapM_nil]
    exact pure []
  | cons a as ih =>
    rw [List.mapM_cons]
    refine bind (h a List.mem_cons_self) fun b => ?_
    exact bind (ih fun a' h' => h a' (List.mem_cons_of_mem a h')) fun bs => pure (b :: bs)

end Keeps

/-- **A property is kept**: it holds afterwards if it held before. -/
def Kept (P : σ → Prop) (s s' : σ) : Prop := P s → P s'

instance (P : σ → Prop) : IsPreorder σ (Kept P) where
  refl _ h := h
  trans _ _ _ h h' hs := h' (h hs)

/-! ## Failing in vain -/

/-- A computation **spares** a state, as far as a relation tells, if it keeps that whenever it
fails. -/
def Spares {ε : Type} (R : σ → σ → Prop) (x : StateM σ (Except ε α)) : Prop :=
  ∀ e s s', x s = (.error e, s') → R s s'

namespace Spares

variable {ε : Type} {R : σ → σ → Prop}

theorem of_keeps {x : StateM σ (Except ε α)} (h : Keeps R x) : Spares R x :=
  fun _ _ _ hx => h.of_eq hx

/-- A step that spares the state, after steps that keep the relation. -/
theorem bind [IsTrans σ R] {x : StateM σ α} {f : α → StateM σ (Except ε β)} (hx : Keeps R x)
    (hf : ∀ a, Spares R (f a)) : Spares R (x >>= f) := by
  intro e s s' h
  rw [bind_apply] at h
  exact IsTrans.trans _ _ _ (hx s) (hf _ e _ s' h)

/-- A step that spares the state, and after which nothing happens if it failed and nothing fails if
it did not. -/
theorem then_done {ε' : Type} {x : StateM σ (Except ε' α)} {f : Except ε' α → StateM σ (Except ε β)}
    (hx : Spares R x) (herror : ∀ cause s, (f (.error cause) s).2 = s)
    (hok : ∀ a e s s', f (.ok a) s ≠ (.error e, s')) : Spares R (x >>= f) := by
  intro e s s' h
  rw [bind_apply] at h
  rcases hs : x s with ⟨cause | a, s₁⟩
  · rw [hs] at h
    obtain rfl : s₁ = s' := (herror cause s₁).symm.trans (congrArg Prod.snd h)
    exact hx cause s s₁ hs
  · rw [hs] at h
    exact absurd h (hok a e s₁ s')

end Spares

/-! ## The same on larger states -/

variable {τ : Type}

/-- A computation on states `τ` **mirrors** one on states `σ` if the two give the same result and,
as `view` shows it, leave the same state. -/
def Mirrors (view : τ → σ) (x' : StateM τ α) (x : StateM σ α) : Prop :=
  ∀ t, ((x' t).1, view (x' t).2) = x (view t)

namespace Mirrors

variable {view : τ → σ}

theorem pure (a : α) : Mirrors view (pure a : StateM τ α) (pure a) := fun _ => rfl

theorem bind {x' : StateM τ α} {x : StateM σ α} {f' : α → StateM τ β} {f : α → StateM σ β}
    (hx : Mirrors view x' x) (hf : ∀ a, Mirrors view (f' a) (f a)) :
    Mirrors view (x' >>= f') (x >>= f) := by
  intro t
  rw [bind_apply, bind_apply, ← hx t]
  exact hf (x' t).1 (x' t).2

/-- **What mirrors step by step mirrors as a whole.** -/
theorem mapM {f' : α → StateM τ β} {f : α → StateM σ β} (h : ∀ a, Mirrors view (f' a) (f a))
    (as : List α) : Mirrors view (as.mapM f') (as.mapM f) := by
  induction as with
  | nil =>
    rw [List.mapM_nil, List.mapM_nil]
    exact pure []
  | cons a as ih =>
    rw [List.mapM_cons, List.mapM_cons]
    exact bind (h a) fun b => bind ih fun bs => pure (b :: bs)

end Mirrors

/-! ## Any number of steps -/

/-- **Any number of steps**, with all their labels in order. -/
inductive Steps (step : σ → List α → σ → Prop) : σ → List α → σ → Prop
  | none (w : σ) : Steps step w [] w
  | one {w w₁ w' : σ} {as as' : List α} (h : step w as w₁) (rest : Steps step w₁ as' w') :
      Steps step w (as ++ as') w'

namespace Steps

variable {step : σ → List α → σ → Prop} {w w' : σ} {as : List α}

/-- **A part of the state that follows the labels** of each step follows the labels of all. -/
theorem foldl (view : σ → β) {f : β → α → β}
    (hstep : ∀ w as w', step w as w' → view w' = as.foldl f (view w))
    (h : Steps step w as w') : view w' = as.foldl f (view w) := by
  induction h with
  | none w => rfl
  | one h rest ih => rw [ih, hstep _ _ _ h, List.foldl_append]

/-- **A count of labels.** -/
theorem countP (count : σ → Nat) {p : α → Bool}
    (hstep : ∀ w as w', step w as w' → count w' = count w + as.countP p)
    (h : Steps step w as w') : count w' = count w + as.countP p := by
  induction h with
  | none w => rfl
  | one h rest ih => rw [ih, hstep _ _ _ h, List.countP_append, Nat.add_assoc]

/-- A part of the state that no step changes without a label of a certain kind. -/
theorem unchanged (view : σ → β) {p : α → Bool}
    (hstep : ∀ w as w', step w as w' → as.countP p = 0 → view w' = view w)
    (h : Steps step w as w') (hnone : as.countP p = 0) : view w' = view w := by
  induction h with
  | none w => rfl
  | one h rest ih =>
    rw [List.countP_append] at hnone
    rw [ih (by omega), hstep _ _ _ h (by omega)]

end Steps

end ApiAvailability
