import ApiAvailability.Pass.Reconciler
import ApiAvailability.Proofs.Effects

/-!
# Proofs/Pass/Course — how far a pass gets

A pass goes through phases, each of which begins in the state that the one before it left
(`Reaches`).  It ends at the first obstacle that it meets, or with its verdict written; there is no
third way (`course`).

    read ──managed──▸ check ──true──▸ provide ──▸ work ──▸ write ──▸ conclude
-/

namespace ApiAvailability

variable {σ : Type}

/-- **What a pass has to do next.** -/
inductive Phase where
  /-- The record is to be read. -/
  | read
  /-- The precondition is to be asked. -/
  | check
  /-- The provider is to be asked. -/
  | provide
  /-- Objects are to be ensured and fetched. -/
  | work (ds : List Desired)
  /-- The verdict is to be written. -/
  | write (v : Verdict)
  /-- The verdict is written. -/
  | conclude (v : Verdict)

/-- **What a pass does not get past.** -/
inductive Obstacle where
  /-- The record cannot be read. -/
  | unread (e : StoreError)
  /-- The operator is not to act. -/
  | unmanaged (reason : SkipReason)
  /-- The precondition fails. -/
  | unchecked (e : PassError)
  /-- The precondition does not hold. -/
  | unready
  /-- The provider fails. -/
  | unprovided (e : PassError)
  /-- The verdict cannot be written. -/
  | unwritten (e : StoreError)

/-- What comes of a pass that meets an obstacle. -/
def Obstacle.result : Obstacle → Except PassError PassOutcome
  | unread e => .error (.statusReadFailed e)
  | unmanaged reason => .ok (.skipped reason)
  | unchecked e => .error e.asPrecondition
  | unready => .ok (.skipped .preconditionNotMet)
  | unprovided e => .error e.asProvider
  | unwritten e => .error (.statusWriteFailed e)

/-- Whether an obstacle is met before there is any work on objects. -/
def Obstacle.IsEarly : Obstacle → Prop
  | unwritten _ => False
  | _ => True

/-- **Ways for a pass to end early**: the record cannot be read, there is nothing to do, or
precondition or provider fails. -/
def EndsEarly : Except PassError PassOutcome → Prop
  | .error (.statusReadFailed _) => True
  | .ok (.skipped _) => True
  | .error (.preconditionFailed _) => True
  | .error (.providerFailed _) => True
  | _ => False

theorem PassError.asPrecondition_eq (e : PassError) :
    ∃ reason, e.asPrecondition = .preconditionFailed reason := by
  cases e <;> exact ⟨_, rfl⟩

theorem PassError.asProvider_eq (e : PassError) :
    ∃ reason, e.asProvider = .providerFailed reason := by
  cases e <;> exact ⟨_, rfl⟩

/-- A pass that meets an obstacle early ends early, and no other does. -/
theorem Obstacle.endsEarly_result {o : Obstacle} : EndsEarly o.result ↔ o.IsEarly := by
  cases o with
  | unchecked e =>
    obtain ⟨reason, he⟩ := e.asPrecondition_eq
    simp [result, he, EndsEarly, IsEarly]
  | unprovided e =>
    obtain ⟨reason, he⟩ := e.asProvider_eq
    simp [result, he, EndsEarly, IsEarly]
  | _ => simp [result, EndsEarly, IsEarly]

/-- An operator is managed if no pass is skipped for its sake. -/
theorem ManagementState.skip?_eq_none {m : ManagementState} : m.skip? = none ↔ m = .managed := by
  cases m <;> simp [skip?]

namespace Reconciler

variable (r : Reconciler (StateM σ)) (now : Time.Timestamp) (w : σ)

/-- **A pass that begins in the state `w` comes to a phase**, in a state that the phases before it
left. -/
inductive Reaches : Phase → σ → Prop
  | begin : Reaches .read w
  | managed {state : OperatorState} {w₁ w₂ : σ} (h : Reaches .read w₁)
      (hread : r.status.read w₁ = (.ok state, w₂)) (hmanaged : state.managementState = .managed) :
      Reaches .check w₂
  | ready {w₁ w₂ : σ} (h : Reaches .check w₁) (hcheck : r.precondition w₁ = (.ok true, w₂)) :
      Reaches .provide w₂
  | provided {ds : List Desired} {w₁ w₂ : σ} (h : Reaches .provide w₁)
      (hprovide : r.provider w₁ = (.ok ds, w₂)) : Reaches (.work ds) w₂
  | observed {ds : List Desired} {os : List Observation} {w₁ w₂ : σ} (h : Reaches (.work ds) w₁)
      (hobserve : r.observe ds w₁ = (os, w₂)) : Reaches (.write (aggregate os)) w₂
  | written {v : Verdict} {w₁ w₂ : σ} (h : Reaches (.write v) w₁)
      (hupsert : r.status.upsert (v.toCondition now) w₁ = (.ok (), w₂)) : Reaches (.conclude v) w₂

/-- **A pass meets an obstacle** in the phase that it has come to, and leaves the state behind. -/
inductive Meets : Obstacle → σ → Prop
  | unread {e : StoreError} {w₁ w₂ : σ} (h : r.Reaches now w .read w₁)
      (hread : r.status.read w₁ = (.error e, w₂)) : Meets (.unread e) w₂
  | unmanaged {state : OperatorState} {reason : SkipReason} {w₁ w₂ : σ}
      (h : r.Reaches now w .read w₁) (hread : r.status.read w₁ = (.ok state, w₂))
      (hskip : state.managementState.skip? = some reason) : Meets (.unmanaged reason) w₂
  | unchecked {e : PassError} {w₁ w₂ : σ} (h : r.Reaches now w .check w₁)
      (hcheck : r.precondition w₁ = (.error e, w₂)) : Meets (.unchecked e) w₂
  | unready {w₁ w₂ : σ} (h : r.Reaches now w .check w₁)
      (hcheck : r.precondition w₁ = (.ok false, w₂)) : Meets .unready w₂
  | unprovided {e : PassError} {w₁ w₂ : σ} (h : r.Reaches now w .provide w₁)
      (hprovide : r.provider w₁ = (.error e, w₂)) : Meets (.unprovided e) w₂
  | unwritten {v : Verdict} {e : StoreError} {w₁ w₂ : σ} (h : r.Reaches now w (.write v) w₁)
      (hupsert : r.status.upsert (v.toCondition now) w₁ = (.error e, w₂)) : Meets (.unwritten e) w₂

/-- What a pass still does from a phase on. -/
def rest : Phase → StateM σ (Except PassError PassOutcome)
  | .read => r.sync now
  | .check => do
    match ← r.precondition with
    | .error e => return .error e.asPrecondition
    | .ok false => return .ok (.skipped .preconditionNotMet)
    | .ok true =>
      match ← r.provider with
      | .error e => return .error e.asProvider
      | .ok ds => r.report now (aggregate (← r.observe ds))
  | .provide => do
    match ← r.provider with
    | .error e => return .error e.asProvider
    | .ok ds => r.report now (aggregate (← r.observe ds))
  | .work ds => do r.report now (aggregate (← r.observe ds))
  | .write v => r.report now v
  | .conclude v => do
    if v.isAvailable then r.recordVersion r.component r.operandVersion
    return .ok (.reconciled v)

variable {r now w}

theorem Reaches.eq {w' : σ} (h : r.Reaches now w .read w') : w' = w := by
  cases h
  rfl

/-- **From the phase that it has come to, a pass goes on with the rest.** -/
theorem Reaches.sync_eq {p : Phase} {w' : σ} (h : r.Reaches now w p w') :
    r.sync now w = r.rest now p w' := by
  induction h with
  | begin => rfl
  | managed _ hread hmanaged ih =>
    rw [ih, rest, sync, bind_apply, hread]
    dsimp only
    rw [ManagementState.skip?_eq_none.mpr hmanaged]
    rfl
  | ready _ hcheck ih =>
    rw [ih, rest, bind_apply, hcheck]
    rfl
  | provided _ hprovide ih =>
    rw [ih, rest, bind_apply, hprovide]
    rfl
  | observed _ hobserve ih =>
    rw [ih, rest, bind_apply, hobserve]
    rfl
  | written _ hupsert ih =>
    rw [ih, rest, report, bind_apply, hupsert]
    rfl

/-- **A pass ends at the first obstacle.** -/
theorem Meets.sync_eq {o : Obstacle} {w' : σ} (h : r.Meets now w o w') :
    r.sync now w = (o.result, w') := by
  cases h with
  | unread h hread =>
    rw [h.sync_eq, rest, sync, bind_apply, hread]
    rfl
  | unmanaged h hread hskip =>
    rw [h.sync_eq, rest, sync, bind_apply, hread]
    dsimp only
    rw [hskip]
    rfl
  | unchecked h hcheck =>
    rw [h.sync_eq, rest, bind_apply, hcheck]
    rfl
  | unready h hcheck =>
    rw [h.sync_eq, rest, bind_apply, hcheck]
    rfl
  | unprovided h hprovide =>
    rw [h.sync_eq, rest, bind_apply, hprovide]
    rfl
  | unwritten h hupsert =>
    rw [h.sync_eq, rest, report, bind_apply, hupsert]
    rfl

/-- The state in which a pass ends that has written its verdict. -/
def concluded (r : Reconciler (StateM σ)) (v : Verdict) (w' : σ) : σ :=
  if v.isAvailable then (r.recordVersion r.component r.operandVersion w').2 else w'

/-- A pass that has written its verdict says so, whatever becomes of the version. -/
theorem Reaches.sync_eq_concluded {v : Verdict} {w' : σ}
    (h : r.Reaches now w (.conclude v) w') :
    r.sync now w = (.ok (.reconciled v), r.concluded v w') := by
  rw [h.sync_eq, rest, concluded]
  split <;> rfl

/-- **There is no third way**: a pass meets an obstacle, or it has its verdict written. -/
theorem course (r : Reconciler (StateM σ)) (now : Time.Timestamp) (w : σ) :
    (∃ o w', r.Meets now w o w') ∨ ∃ v w', r.Reaches now w (.conclude v) w' := by
  have hbegin : r.Reaches now w .read w := .begin
  rcases hread : r.status.read w with ⟨e | state, w₁⟩
  · exact .inl ⟨_, _, .unread hbegin hread⟩
  cases hskip : state.managementState.skip? with
  | some reason => exact .inl ⟨_, _, .unmanaged hbegin hread hskip⟩
  | none =>
    have hmanaged := Reaches.managed hbegin hread (ManagementState.skip?_eq_none.mp hskip)
    rcases hcheck : r.precondition w₁ with ⟨e | _ | _, w₂⟩
    · exact .inl ⟨_, _, .unchecked hmanaged hcheck⟩
    · exact .inl ⟨_, _, .unready hmanaged hcheck⟩
    have hready := Reaches.ready hmanaged hcheck
    rcases hprovide : r.provider w₂ with ⟨e | ds, w₃⟩
    · exact .inl ⟨_, _, .unprovided hready hprovide⟩
    have hprovided := Reaches.provided hready hprovide
    have hobserved := Reaches.observed hprovided rfl
    rcases hupsert : r.status.upsert ((aggregate (r.observe ds w₃).1).toCondition now)
      (r.observe ds w₃).2 with ⟨e | _, w₅⟩
    · exact .inl ⟨_, _, .unwritten hobserved hupsert⟩
    · exact .inr ⟨_, _, .written hobserved hupsert⟩

/-- A pass that comes to a verdict came to work on objects, and the verdict is over what it observed
there. -/
theorem exists_work {v : Verdict} (h : (r.sync now w).1 = .ok (.reconciled v)) :
    ∃ ds w', r.Reaches now w (.work ds) w' ∧ v = aggregate (r.observe ds w').1 := by
  rcases r.course now w with ⟨o, w', hmeets⟩ | ⟨v', w', hconclude⟩
  · rw [hmeets.sync_eq] at h
    cases o <;> cases h
  · rw [hconclude.sync_eq_concluded] at h
    obtain rfl : v' = v := PassOutcome.reconciled.inj (Except.ok.inj h)
    cases hconclude with
    | written hwrite _ =>
      cases hwrite with
      | observed hwork hobserve => exact ⟨_, _, hwork, by rw [hobserve]⟩

/-- A pass that comes to a verdict has read the record of an operator that is to act. -/
theorem Reaches.exists_read {v : Verdict} (h : r.Reaches now w (.write v) w') :
    ∃ os state w₁, v = aggregate os ∧ r.status.read w = (.ok state, w₁) ∧
      state.managementState = .managed := by
  cases h with
  | observed h _ =>
    cases h with
    | provided h _ =>
      cases h with
      | ready h _ =>
        cases h with
        | managed h hread hmanaged =>
          rw [h.eq] at hread
          exact ⟨_, _, _, rfl, hread, hmanaged⟩

/-- And so has a pass whose verdict cannot be written. -/
theorem exists_read_of_refused {e : StoreError}
    (h : (r.sync now w).1 = .error (.statusWriteFailed e)) :
    ∃ state w₁, r.status.read w = (.ok state, w₁) := by
  rcases course r now w with ⟨o, w', hmeets⟩ | ⟨v, w', hconclude⟩
  · rw [hmeets.sync_eq] at h
    have hresult : o.result = .error (.statusWriteFailed e) := h
    have hlate : ¬ o.IsEarly := by
      rw [← Obstacle.endsEarly_result, hresult]
      exact not_false
    cases hmeets with
    | unwritten hw _ =>
      obtain ⟨os, state, w₁, -, hread, -⟩ := hw.exists_read
      exact ⟨state, w₁, hread⟩
    | _ => exact absurd trivial hlate
  · rw [hconclude.sync_eq_concluded] at h
    contradiction

/-- A pass that ends early has met an obstacle early. -/
theorem meets_of_endsEarly (h : EndsEarly (r.sync now w).1) :
    ∃ o w', r.Meets now w o w' ∧ o.IsEarly := by
  rcases course r now w with ⟨o, w', hmeets⟩ | ⟨v, w', hconclude⟩
  · rw [hmeets.sync_eq] at h
    exact ⟨o, w', hmeets, Obstacle.endsEarly_result.mp h⟩
  · rw [hconclude.sync_eq_concluded] at h
    exact h.elim

end Reconciler

end ApiAvailability
