import ApiAvailability.Proofs.Operator.Edits
import ApiAvailability.Proofs.Pass.Growth
import ApiAvailability.Proofs.Pass.Mirror
import ApiAvailability.Store.Memory

/-!
# Proofs/Pass/Deeds — what a pass does

A reconciler can be made to note what it does, which makes no difference to its passes
(`sync_noted`).  The notes are the **deeds** of a pass, whatever the collaborators are and whatever
they answer:

* `deeds_of_endsEarly` — a pass that ends early does nothing;
* `edits_deeds` — the result of a pass tells which conditions and versions it has written.
-/

namespace ApiAvailability

/-- **A deed** of a pass. -/
inductive Deed where
  /-- The registry is called. -/
  | call (a : Action)
  /-- An event is told. -/
  | event (e : Event)
  /-- A condition or a version is written. -/
  | edit (e : Edit)
  /-- A condition is not written, because that fails. -/
  | refused (c : OperatorCondition)

/-- The edit that a deed is, if it is one. -/
def Deed.edit? : Deed → Option Edit
  | edit e => some e
  | _ => none

/-- The deed that it is to write a condition, in view of the answer. -/
def Deed.ofAnswer (c : OperatorCondition) : Except StoreError Unit → Deed
  | .ok _ => .edit (.condition c)
  | .error _ => .refused c

variable {σ α : Type}

/-! ## Notes -/

/-- A computation that notes what it has done, in view of its result. -/
def noting (deeds : α → List Deed) (x : StateM σ α) : StateM (σ × List Deed) α := fun t =>
  ((x t.1).1, (x t.1).2, t.2 ++ deeds (x t.1).1)

theorem noting_mirrors (deeds : α → List Deed) (x : StateM σ α) :
    Mirrors Prod.fst (noting deeds x) x := fun _ => rfl

/-- More deeds are noted, all of which are as `P` tells. -/
def Adds (P : Deed → Prop) (t t' : σ × List Deed) : Prop :=
  ∃ ds, t'.2 = t.2 ++ ds ∧ ∀ d ∈ ds, P d

instance (P : Deed → Prop) : IsPreorder (σ × List Deed) (Adds P) where
  refl t := ⟨[], (List.append_nil t.2).symm, fun d hd => absurd hd List.not_mem_nil⟩
  trans := by
    rintro t t₁ t₂ ⟨ds, hds, hP⟩ ⟨ds', hds', hP'⟩
    refine ⟨ds ++ ds', by rw [hds', hds, List.append_assoc], fun d hd => ?_⟩
    exact (List.mem_append.mp hd).elim (hP d) (hP' d)

theorem noting_adds {P : Deed → Prop} {deeds : α → List Deed} (h : ∀ a, ∀ d ∈ deeds a, P d)
    (x : StateM σ α) : Keeps (Adds P) (noting deeds x) := fun _ => ⟨_, rfl, h _⟩

namespace Reconciler

/-- **The reconciler that notes its deeds.** -/
def noted (r : Reconciler (StateM σ)) : Reconciler (StateM (σ × List Deed)) where
  registry := {
    get := fun name => noting (fun _ => [.call (.get name)]) (r.registry.get name)
    create := fun o => noting (fun _ => [.call (.create o)]) (r.registry.create o) }
  provider := noting (fun _ => []) r.provider
  precondition := noting (fun _ => []) r.precondition
  status := {
    read := noting (fun _ => []) r.status.read
    upsert := fun c => noting (fun answer => [.ofAnswer c answer]) (r.status.upsert c) }
  recordVersion component version :=
    noting (fun _ => [.edit (.version component version)]) (r.recordVersion component version)
  recordEvent e := noting (fun _ => [.event e]) (r.recordEvent e)
  component := r.component
  operandVersion := r.operandVersion

/-- **The deeds of a pass.** -/
def deeds (r : Reconciler (StateM σ)) (now : Time.Timestamp) (w : σ) : List Deed :=
  (r.noted.sync now (w, [])).2.2

/-- The edits that are due after a pass with a certain result: its verdict, if it has one, and the
version if the verdict is positive. -/
def due {m : Type → Type} (r : Reconciler m) (now : Time.Timestamp) :
    Except PassError PassOutcome → List Edit
  | .ok (.reconciled v) =>
    .condition (v.toCondition now) ::
      if v.isAvailable then [.version r.component r.operandVersion] else []
  | _ => []

variable {r : Reconciler (StateM σ)} {now : Time.Timestamp} {w : σ}

theorem noted_mirrors (r : Reconciler (StateM σ)) : r.noted.Mirrors Prod.fst r where
  get _ := noting_mirrors _ _
  create _ := noting_mirrors _ _
  provider := noting_mirrors _ _
  precondition := noting_mirrors _ _
  read := noting_mirrors _ _
  upsert _ := noting_mirrors _ _
  recordVersion _ _ := noting_mirrors _ _
  recordEvent _ := noting_mirrors _ _
  component := rfl
  operandVersion := rfl

/-- **Notes make no difference to a pass.** -/
theorem sync_noted (r : Reconciler (StateM σ)) (now : Time.Timestamp) (t : σ × List Deed) :
    ((r.noted.sync now t).1, (r.noted.sync now t).2.1) = r.sync now t.1 :=
  r.noted_mirrors.sync now t

theorem noted_upsert {c : OperatorCondition} {answer : Except StoreError Unit}
    {t t' : σ × List Deed} (h : r.noted.status.upsert c t = (answer, t')) :
    t'.2 = t.2 ++ [.ofAnswer c answer] := by
  obtain ⟨rfl, rfl⟩ := Prod.mk.inj h
  rfl

/-- Nothing is done before there is work on objects. -/
theorem noted_opening (r : Reconciler (StateM σ)) :
    r.noted.Opening (Adds fun _ => False) where
  read := noting_adds (fun _ _ hd => absurd hd List.not_mem_nil) _
  precondition := noting_adds (fun _ _ hd => absurd hd List.not_mem_nil) _
  provider := noting_adds (fun _ _ hd => absurd hd List.not_mem_nil) _

/-- The work on objects writes no condition and no version. -/
theorem noted_observe (r : Reconciler (StateM σ)) (ds : List Desired) :
    Keeps (Adds (·.edit? = none)) (r.noted.observe ds) := by
  have hget (name : String) : Keeps (Adds (·.edit? = none)) (r.noted.registry.get name) :=
    noting_adds (fun _ d hd => List.mem_singleton.mp hd ▸ rfl) _
  have hcreate (o : ApiService) : Keeps (Adds (·.edit? = none)) (r.noted.registry.create o) :=
    noting_adds (fun _ d hd => List.mem_singleton.mp hd ▸ rfl) _
  have hrecord (e : Event) : Keeps (Adds (·.edit? = none)) (r.noted.recordEvent e) :=
    noting_adds (fun _ d hd => List.mem_singleton.mp hd ▸ rfl) _
  exact observe_keeps (fun d _ => Desired.ensure_keeps hget hrecord (hcreate _))
    fun d => Desired.fetch_keeps hget

theorem eq_nil_of_adds {ds : List Deed} {t : σ × List Deed} (h : Adds (fun _ => False) (w, ds) t) :
    t.2 = ds := by
  obtain ⟨ds', ht, hnone⟩ := h
  rw [ht, List.eq_nil_iff_forall_not_mem.mpr hnone, List.append_nil]

/-- Nothing is written before the verdict is. -/
theorem edits_of_reaches_write {v : Verdict} {t : σ × List Deed}
    (h : r.noted.Reaches now (w, []) (.write v) t) : t.2.filterMap Deed.edit? = [] := by
  cases h with
  | @observed ds _ t₁ _ hwork hobserve =>
    have hopening : t₁.2 = [] := eq_nil_of_adds (r.noted_opening.work hwork)
    obtain ⟨done, ht, hdone⟩ := (r.noted_observe ds).of_eq hobserve
    rw [ht, hopening, List.nil_append]
    exact List.filterMap_eq_nil_iff.mpr hdone

theorem due_of_endsEarly {result : Except PassError PassOutcome} (h : EndsEarly result) :
    r.due now result = [] := by
  rcases result with e | _ | v
  · rfl
  · rfl
  · exact h.elim

/-- **A pass that ends early does nothing.** -/
theorem deeds_of_endsEarly (h : EndsEarly (r.sync now w).1) : r.deeds now w = [] := by
  rw [← r.sync_noted now (w, [])] at h
  exact eq_nil_of_adds (r.noted_opening.sync_of_endsEarly h)

/-- **The result of a pass tells what it has written**: its verdict if that could be written, and
then the version if the verdict is positive. -/
theorem edits_deeds (r : Reconciler (StateM σ)) (now : Time.Timestamp) (w : σ) :
    (r.deeds now w).filterMap Deed.edit? = r.due now (r.sync now w).1 := by
  have hresult : (r.sync now w).1 = (r.noted.sync now (w, [])).1 :=
    congrArg Prod.fst (r.sync_noted now (w, [])).symm
  -- the course is that of the pass with notes, where deeds are part of the state
  rcases course r.noted now (w, []) with ⟨o, t, hmeets⟩ | ⟨v, t, hconclude⟩
  · rw [hresult, deeds, hmeets.sync_eq]
    by_cases ho : o.IsEarly
    · have hend := Obstacle.endsEarly_result.mpr ho
      rw [eq_nil_of_adds (r.noted_opening.meets hmeets ho), due_of_endsEarly hend]
      rfl
    · cases hmeets with
      | unwritten hwrite hupsert =>
        rw [noted_upsert hupsert, List.filterMap_append, edits_of_reaches_write hwrite]
        rfl
      | _ => exact absurd trivial ho
  · rw [hresult, deeds, hconclude.sync_eq_concluded, concluded, due]
    cases hconclude with
    | written hwrite hupsert =>
      have hwritten : t.2.filterMap Deed.edit? = [.condition (v.toCondition now)] := by
        rw [noted_upsert hupsert, List.filterMap_append, edits_of_reaches_write hwrite]
        rfl
      split
      · change (t.2 ++ [Deed.edit (.version r.component r.operandVersion)]).filterMap _ = _
        rw [List.filterMap_append, hwritten]
        rfl
      · exact hwritten

end Reconciler

end ApiAvailability
