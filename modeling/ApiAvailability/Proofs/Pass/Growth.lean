import ApiAvailability.Proofs.Pass.Course

/-!
# Proofs/Pass/Growth — what all steps of a pass keep, passes keep

A pass consists of calls of the parts of its reconciler.  So a preorder on states that every such
call keeps is kept by the pass (`Reconciler.Keeping.sync`), and by any number of passes
(`Run.grows`).

The relation of interest is `Growing`: of all that is seen of a state nothing is lost or changed,
and what is new is of a certain kind.
-/

namespace ApiAvailability

variable {σ κ α : Type}

/-! ## Growing -/

/-- **Growth**: what was there is still there, and what was not there before is as `may` tells. -/
structure Grows (may : κ → α → Prop) (before after : κ → Option α) : Prop where
  kept : ∀ k a, before k = some a → after k = some a
  added : ∀ k a, after k = some a → before k = some a ∨ (before k = none ∧ may k a)

namespace Grows

variable {may may' : κ → α → Prop} {before between after : κ → Option α}

theorem refl (may : κ → α → Prop) (before : κ → Option α) : Grows may before before where
  kept _ _ h := h
  added _ _ h := .inl h

theorem trans (h : Grows may before between) (h' : Grows may between after) :
    Grows may before after where
  kept k a hk := h'.kept k a (h.kept k a hk)
  added k a hk := by
    rcases h'.added k a hk with hk | ⟨hnone, hmay⟩
    · exact h.added k a hk
    · refine .inr ⟨?_, hmay⟩
      cases hb : before k with
      | none => rfl
      | some b => rw [h.kept k b hb] at hnone; contradiction

theorem mono (hmay : ∀ k a, may k a → may' k a) (h : Grows may before after) :
    Grows may' before after where
  kept := h.kept
  added k a hk := (h.added k a hk).imp_right fun hk => ⟨hk.1, hmay k a hk.2⟩

/-- What is seen is as before, or it is new. -/
theorem eq_or_new (h : Grows may before after) (k : κ) :
    after k = before k ∨ before k = none ∧ ∃ a, after k = some a ∧ may k a := by
  cases hafter : after k with
  | none =>
    refine .inl ?_
    cases hbefore : before k with
    | none => rfl
    | some b =>
      rw [h.kept k b hbefore] at hafter
      contradiction
  | some a =>
    rcases h.added k a hafter with hbefore | ⟨hnone, hmay⟩
    · exact .inl hbefore.symm
    · exact .inr ⟨hnone, a, rfl, hmay⟩

/-- What grows, grows in each of its parts. -/
theorem comp {ι : Type} (part : ι → κ) (h : Grows may before after) :
    Grows (fun i => may (part i)) (fun i => before (part i)) (fun i => after (part i)) where
  kept i := h.kept (part i)
  added i := h.added (part i)

/-- One thing more is growth, if there was nothing in its place. -/
theorem of_one {k : κ} {a : α} (hnone : before k = none) (hk : after k = some a) (hmay : may k a)
    (hother : ∀ k', k' ≠ k → after k' = before k') : Grows may before after where
  kept k' b hb := by
    by_cases hk' : k' = k
    · rw [hk', hnone] at hb; contradiction
    · rw [hother k' hk', hb]
  added k' b hb := by
    by_cases hk' : k' = k
    · subst hk'
      rw [hk] at hb
      exact .inr ⟨hnone, Option.some.inj hb ▸ hmay⟩
    · exact .inl (hother k' hk' ▸ hb)

end Grows

/-- **The view of a state grows**, and an invariant stays. -/
def Growing (inv : σ → Prop) (view : σ → κ → Option α) (may : κ → α → Prop) (s s' : σ) : Prop :=
  inv s → inv s' ∧ Grows may (view s) (view s')

namespace Growing

variable {inv : σ → Prop} {view : σ → κ → Option α} {may : κ → α → Prop} {s s' : σ}

instance : IsPreorder σ (Growing inv view may) where
  refl s h := ⟨h, .refl may (view s)⟩
  trans _ _ _ h h' hinv :=
    ⟨(h' (h hinv).1).1, (h hinv).2.trans (h' (h hinv).1).2⟩

/-- The invariant may be taken for granted. -/
theorem of_inv (h : inv s → Growing inv view may s s') : Growing inv view may s s' :=
  fun hinv => h hinv hinv

/-- What is not seen may change. -/
theorem of_eq (hinv : inv s → inv s') (hview : view s' = view s) : Growing inv view may s s' :=
  fun h => ⟨hinv h, hview ▸ .refl may (view s)⟩

end Growing

/-! ## The steps of a pass -/

section Steps

variable {R : σ → σ → Prop} [IsPreorder σ R] {registry : Registry (StateM σ)}
  {record : Event → StateM σ Unit} {d : Desired} {ds : List Desired}

section Ensure

variable (hget : ∀ name, Keeps R (registry.get name)) (hrecord : ∀ e, Keeps R (record e))

include hget hrecord

theorem Desired.look_keeps : Keeps R (d.look registry record) := by
  refine (hget d.name).bind fun answer => ?_
  cases answer with
  | ok o => exact .pure _
  | error e =>
    dsimp only
    split
    · exact .pure _
    · exact (hrecord _).bind fun _ => .pure _

variable (hcreate : Keeps R (registry.create d.toObject))

include hcreate

theorem Desired.ensure_keeps : Keeps R (d.ensure registry record) := by
  refine (look_keeps hget hrecord).bind fun found => ?_
  cases found with
  | some result => exact .pure result
  | none =>
    refine hcreate.bind fun answer => ?_
    cases answer with
    | ok o => exact (hrecord _).bind fun _ => .pure _
    | error e =>
      dsimp only
      split
      · exact .pure _
      · exact (hrecord _).bind fun _ => .pure _

end Ensure

theorem Desired.fetch_keeps (hget : ∀ name, Keeps R (registry.get name)) :
    Keeps R (d.fetch registry) := by
  refine (hget d.name).bind fun answer => ?_
  cases answer <;> exact .pure _

/-- The work on some desired services keeps what ensuring and fetching each of them keeps. -/
theorem observe_keeps (hensure : ∀ d ∈ ds, Keeps R (d.ensure registry record))
    (hfetch : ∀ d : Desired, Keeps R (d.fetch registry)) :
    Keeps R (observe registry record ds) := by
  have hensureAll : Keeps R (ensureAll registry record ds) :=
    .mapM fun d hd => (hensure d hd).bind fun _ => .pure _
  have hfetchAll (ds : List Desired) : Keeps R (fetchAll registry ds) :=
    .mapM fun d _ => (hfetch d).bind fun _ => .pure _
  exact hensureAll.bind fun ensured => (hfetchAll _).bind fun fetched => .pure _

end Steps

namespace Reconciler

/-- **The first half of a pass keeps a relation.** -/
structure Opening (R : σ → σ → Prop) (r : Reconciler (StateM σ)) : Prop where
  read : Keeps R r.status.read
  precondition : Keeps R r.precondition
  provider : Keeps R r.provider

/-- **A pass keeps a relation up to its verdict**, as far as it does not create objects. -/
structure Working (R : σ → σ → Prop) (r : Reconciler (StateM σ)) : Prop extends r.Opening R where
  get : ∀ name, Keeps R (r.registry.get name)
  recordEvent : ∀ e, Keeps R (r.recordEvent e)

/-- **A reconciler keeps a relation**, as far as it does not create objects. -/
structure Keeping (R : σ → σ → Prop) (r : Reconciler (StateM σ)) : Prop extends r.Working R where
  upsert : ∀ c, Keeps R (r.status.upsert c)
  recordVersion : ∀ component version, Keeps R (r.recordVersion component version)

variable {R : σ → σ → Prop} [IsPreorder σ R] {r : Reconciler (StateM σ)} {now : Time.Timestamp}
  {w w' : σ}

namespace Opening

variable (h : r.Opening R)

include h

omit [IsPreorder σ R] in
theorem check (hw : r.Reaches now w .check w') : R w w' := by
  cases hw with
  | managed hbegin hread _ =>
    obtain rfl := hbegin.eq
    exact h.read.of_eq hread

theorem provide (hw : r.Reaches now w .provide w') : R w w' := by
  cases hw with
  | ready hw hcheck => exact IsTrans.trans _ _ _ (h.check hw) (h.precondition.of_eq hcheck)

theorem work {ds : List Desired} (hw : r.Reaches now w (.work ds) w') : R w w' := by
  cases hw with
  | provided hw hprovide => exact IsTrans.trans _ _ _ (h.provide hw) (h.provider.of_eq hprovide)

/-- Up to an obstacle that it meets early, a pass keeps what its first half keeps. -/
theorem meets {o : Obstacle} (hw : r.Meets now w o w') (ho : o.IsEarly) : R w w' := by
  cases hw with
  | unread hbegin hread =>
    obtain rfl := hbegin.eq
    exact h.read.of_eq hread
  | unmanaged hbegin hread _ =>
    obtain rfl := hbegin.eq
    exact h.read.of_eq hread
  | unchecked hw hcheck => exact IsTrans.trans _ _ _ (h.check hw) (h.precondition.of_eq hcheck)
  | unready hw hcheck => exact IsTrans.trans _ _ _ (h.check hw) (h.precondition.of_eq hcheck)
  | unprovided hw hprovide => exact IsTrans.trans _ _ _ (h.provide hw) (h.provider.of_eq hprovide)
  | unwritten => exact ho.elim

/-- **A pass that ends early keeps what its first half keeps.** -/
theorem sync_of_endsEarly (hend : EndsEarly (r.sync now w).1) : R w (r.sync now w).2 := by
  obtain ⟨o, w', hmeets, ho⟩ := meets_of_endsEarly hend
  rw [hmeets.sync_eq]
  exact h.meets hmeets ho

end Opening

/-- Up to its verdict a pass keeps a relation, if creating what the provider desires keeps it. -/
theorem Working.write (h : r.Working R)
    (hcreate : ∀ w' ds, R w w' → (r.provider w').1 = .ok ds →
      ∀ d ∈ ds, Keeps R (r.registry.create d.toObject))
    {v : Verdict} (hw : r.Reaches now w (.write v) w') : R w w' := by
  cases hw with
  | @observed ds os w₂ _ hw hobserve =>
    cases hw with
    | @provided _ w₁ _ hw hprovide =>
      have hcreated := hcreate w₁ ds (h.provide hw) (congrArg Prod.fst hprovide)
      have hkept : Keeps R (r.observe ds) :=
        observe_keeps (fun d hd => Desired.ensure_keeps h.get h.recordEvent (hcreated d hd))
          fun d => Desired.fetch_keeps h.get
      exact IsTrans.trans _ _ _ (h.work (.provided hw hprovide)) (hkept.of_eq hobserve)

/-- **A pass keeps a relation** that its reconciler keeps, if creating what the provider desires
keeps it too. -/
theorem Keeping.sync (h : r.Keeping R)
    (hcreate : ∀ w' ds, R w w' → (r.provider w').1 = .ok ds →
      ∀ d ∈ ds, Keeps R (r.registry.create d.toObject)) (now : Time.Timestamp) :
    R w (r.sync now w).2 := by
  rcases course r now w with ⟨o, w', hmeets⟩ | ⟨v, w', hconclude⟩
  · rw [hmeets.sync_eq]
    cases o with
    | unwritten e =>
      cases hmeets with
      | unwritten hw hupsert =>
        exact IsTrans.trans _ _ _ (h.write hcreate hw) ((h.upsert _).of_eq hupsert)
    | _ => exact h.meets hmeets trivial
  · rw [hconclude.sync_eq_concluded, concluded]
    have hwritten : R w w' := by
      cases hconclude with
      | written hw hupsert =>
        exact IsTrans.trans _ _ _ (h.write hcreate hw) ((h.upsert _).of_eq hupsert)
    split
    · exact IsTrans.trans _ _ _ hwritten (h.recordVersion _ _ w')
    · exact hwritten

/-- **A pass whose verdict cannot be written** keeps what is kept up to there and by writing in
vain. -/
theorem Working.sync_of_unwritten (h : r.Working R)
    (hcreate : ∀ w' ds, R w w' → (r.provider w').1 = .ok ds →
      ∀ d ∈ ds, Keeps R (r.registry.create d.toObject))
    (hupsert : ∀ c, Spares R (r.status.upsert c)) {e : StoreError}
    (hsync : (r.sync now w).1 = .error (.statusWriteFailed e)) : R w (r.sync now w).2 := by
  rcases course r now w with ⟨o, w', hmeets⟩ | ⟨v, w', hconclude⟩
  · rw [hmeets.sync_eq] at hsync ⊢
    by_cases ho : o.IsEarly
    · exact h.meets hmeets ho
    · cases hmeets with
      | unwritten hw hwritten =>
        exact IsTrans.trans _ _ _ (h.write hcreate hw) (hupsert _ _ _ _ hwritten)
      | _ => exact absurd trivial ho
  · rw [hconclude.sync_eq_concluded] at hsync
    contradiction

end Reconciler

/-! ## Runs -/

/-- **A run of passes** of a reconciler, with the states in which they begin.  Before each, and
after the last, the world may change as `between` tells. -/
inductive Run (r : Reconciler (StateM σ)) (between : σ → σ → Prop) : σ → List σ → σ → Prop
  | rest {w w' : σ} (h : between w w') : Run r between w [] w'
  | pass {w w₁ w' : σ} {ws : List σ} (h : between w w₁) (now : Time.Timestamp)
      (rest : Run r between (r.sync now w₁).2 ws w') : Run r between w (w₁ :: ws) w'

/-- **A view that grows over each pass grows over a run**, by what one of its passes may add. -/
theorem Run.grows {r : Reconciler (StateM σ)} {between : σ → σ → Prop} {inv : σ → Prop}
    {view : σ → κ → Option α} {may : σ → κ → α → Prop} {w w' : σ} {ws : List σ}
    (hbetween : ∀ w w', between w w' → inv w → inv w' ∧ view w' = view w)
    (hsync : ∀ now w, Growing inv view (may w) w (r.sync now w).2) (h : Run r between w ws w')
    (hinv : inv w) : inv w' ∧ Grows (fun k a => ∃ w₁ ∈ ws, may w₁ k a) (view w) (view w') := by
  induction h with
  | rest h =>
    obtain ⟨hinv', hview⟩ := hbetween _ _ h hinv
    exact ⟨hinv', hview ▸ .refl _ _⟩
  | @pass w w₁ w' ws h now rest ih =>
    obtain ⟨hinv₁, hview⟩ := hbetween _ _ h hinv
    obtain ⟨hinv₂, hpass⟩ := hsync now w₁ hinv₁
    obtain ⟨hinv', hrest⟩ := ih hinv₂
    refine ⟨hinv', hview ▸ (hpass.mono ?_).trans (hrest.mono ?_)⟩
    · exact fun k a hmay => ⟨w₁, List.mem_cons_self, hmay⟩
    · rintro k a ⟨w₂, hw₂, hmay⟩
      exact ⟨w₂, List.mem_cons_of_mem w₁ hw₂, hmay⟩

end ApiAvailability
