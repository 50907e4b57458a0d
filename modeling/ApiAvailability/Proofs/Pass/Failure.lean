import ApiAvailability.Proofs.Pass.Course
import ApiAvailability.Rehearsal.World

/-!
# Proofs/Pass/Failure — why a pass fails

A pass fails if the first obstacle that it meets is a failure, and then with that failure, in the
words of its phase (`fails_at_first_obstacle`).  What the registry answers has no part in that:
up to the work on objects two passes with different registries go the same way (`Meets.congr`).
-/

namespace ApiAvailability

/-! ## Failures in the words of a phase -/

/-- **A failure is passed on as one of a kind**: as it is if it is of that kind, and otherwise as its
text, in one failure of that kind. -/
def PassError.PassedOnAs (kind : String → PassError) (e e' : PassError) : Prop :=
  (∃ reason, e = kind reason ∧ e' = e) ∨ ((∀ reason, e ≠ kind reason) ∧ e' = kind e.message)

theorem PassError.passedOnAs_precondition {e e' : PassError} :
    e.PassedOnAs .preconditionFailed e' ↔ e.asPrecondition = e' := by
  cases e <;> simp [PassedOnAs, asPrecondition, eq_comm]

theorem PassError.passedOnAs_provider {e e' : PassError} :
    e.PassedOnAs .providerFailed e' ↔ e.asProvider = e' := by
  cases e <;> simp [PassedOnAs, asProvider, eq_comm]

/-- What a pass fails with that meets an obstacle, if that is a failure. -/
def Obstacle.Raises : Obstacle → PassError → Prop
  | unread cause, e => e = .statusReadFailed cause
  | unmanaged _, _ => False
  | unchecked cause, e => cause.PassedOnAs .preconditionFailed e
  | unready, _ => False
  | unprovided cause, e => cause.PassedOnAs .providerFailed e
  | unwritten cause, e => e = .statusWriteFailed cause

/-- An error is raised by an obstacle exactly if the pass ends with it there. -/
theorem Obstacle.raises_iff {o : Obstacle} {e : PassError} :
    o.Raises e ↔ o.result = .error e := by
  cases o with
  | unchecked cause => simp [Raises, result, PassError.passedOnAs_precondition]
  | unprovided cause => simp [Raises, result, PassError.passedOnAs_provider]
  | _ => simp [Raises, result, eq_comm]

/-- Whether a failure ends passes.  The others concern one object, or no pass at all. -/
def PassError.EndsPass : PassError → Prop
  | preconditionFailed _ => True
  | providerFailed _ => True
  | statusReadFailed _ => True
  | statusWriteFailed _ => True
  | ensure .. => False
  | fetch .. => False
  | reconcileFailed _ => False
  | invalidConfig _ => False

theorem Obstacle.Raises.endsPass {o : Obstacle} {e : PassError} (h : o.Raises e) : e.EndsPass := by
  cases o with
  | unread cause => exact h ▸ trivial
  | unmanaged reason => exact h.elim
  | unchecked cause =>
    rcases h with ⟨reason, rfl, rfl⟩ | ⟨-, rfl⟩
    · trivial
    · trivial
  | unready => exact h.elim
  | unprovided cause =>
    rcases h with ⟨reason, rfl, rfl⟩ | ⟨-, rfl⟩
    · trivial
    · trivial
  | unwritten cause => exact h ▸ trivial

variable {σ : Type}

namespace Reconciler

variable {r r' : Reconciler (StateM σ)} {now : Time.Timestamp} {w : σ}

/-! ## Another registry -/

/-- **Two reconcilers begin their passes alike**: they have the same record, precondition and
provider. -/
structure BeginsAs (r r' : Reconciler (StateM σ)) : Prop where
  status : r'.status = r.status
  precondition : r'.precondition = r.precondition
  provider : r'.provider = r.provider

namespace BeginsAs

/-- To begin alike goes both ways. -/
theorem symm (h : r.BeginsAs r') : r'.BeginsAs r :=
  ⟨h.status.symm, h.precondition.symm, h.provider.symm⟩

variable (h : r.BeginsAs r') {w' : σ}

include h

/-- Both come to their checks alike. -/
theorem check (hw : r.Reaches now w .check w') : r'.Reaches now w .check w' := by
  cases hw with
  | managed hbegin hread hmanaged =>
    obtain rfl := hbegin.eq
    exact .managed .begin (h.status ▸ hread) hmanaged

/-- Both come to their providers alike. -/
theorem provide (hw : r.Reaches now w .provide w') : r'.Reaches now w .provide w' := by
  cases hw with
  | ready hw hcheck => exact .ready (h.check hw) (h.precondition ▸ hcheck)

/-- Both come to the same work. -/
theorem work {ds : List Desired} (hw : r.Reaches now w (.work ds) w') :
    r'.Reaches now w (.work ds) w' := by
  cases hw with
  | provided hw hprovide => exact .provided (h.provide hw) (h.provider ▸ hprovide)

/-- An obstacle that is met early is met with any registry. -/
theorem meets {o : Obstacle} (hw : r.Meets now w o w') (ho : o.IsEarly) :
    r'.Meets now w o w' := by
  cases hw with
  | unread hbegin hread =>
    obtain rfl := hbegin.eq
    exact .unread .begin (h.status ▸ hread)
  | unmanaged hbegin hread hskip =>
    obtain rfl := hbegin.eq
    exact .unmanaged .begin (h.status ▸ hread) hskip
  | unchecked hw hcheck => exact .unchecked (h.check hw) (h.precondition ▸ hcheck)
  | unready hw hcheck => exact .unready (h.check hw) (h.precondition ▸ hcheck)
  | unprovided hw hprovide => exact .unprovided (h.provide hw) (h.provider ▸ hprovide)
  | unwritten => exact ho.elim

/-- If all writes are answered alike, a verdict that cannot be written cannot be written with any
registry, whatever verdict that makes. -/
theorem meets_unwritten {e : StoreError}
    (halike : ∀ c c' w₁ w₂, (r.status.upsert c w₁).1 = (r.status.upsert c' w₂).1)
    (hw : r.Meets now w (.unwritten e) w') : ∃ w'', r'.Meets now w (.unwritten e) w'' := by
  cases hw with
  | @unwritten v _ w₁ _ hw hupsert =>
    cases hw with
    | @observed ds os w₀ _ hw hobserve =>
      -- the other registry may lead to another verdict, at another state
      have hwrite := Reaches.observed (h.work hw) rfl
      have hanswer : (r'.status.upsert ((aggregate (r'.observe ds w₀).1).toCondition now)
          (r'.observe ds w₀).2).1 = .error e := by
        rw [h.status, halike _ ((aggregate os).toCondition now) _ w₁, hupsert]
      exact ⟨_, .unwritten hwrite (Prod.ext hanswer rfl)⟩

end BeginsAs

/-! ## The first obstacle -/

/-- **A pass fails with an error** exactly if it meets an obstacle that raises it. -/
theorem sync_eq_error_iff {e : PassError} :
    (r.sync now w).1 = .error e ↔ ∃ o w', r.Meets now w o w' ∧ o.Raises e := by
  constructor
  · intro h
    rcases course r now w with ⟨o, w', hmeets⟩ | ⟨v, w', hconclude⟩
    · rw [hmeets.sync_eq] at h
      exact ⟨o, w', hmeets, Obstacle.raises_iff.mpr h⟩
    · rw [hconclude.sync_eq_concluded] at h
      contradiction
  · rintro ⟨o, w', hmeets, hraises⟩
    rw [hmeets.sync_eq]
    exact Obstacle.raises_iff.mp hraises

/-- **A pass is skipped** exactly if the operator is not to act, or not yet. -/
theorem sync_eq_skipped_iff {reason : SkipReason} :
    (r.sync now w).1 = .ok (.skipped reason) ↔ ∃ w', r.Meets now w (.unmanaged reason) w' ∨
      (reason = .preconditionNotMet ∧ r.Meets now w .unready w') := by
  constructor
  · intro h
    rcases course r now w with ⟨o, w', hmeets⟩ | ⟨v, w', hconclude⟩
    · rw [hmeets.sync_eq] at h
      refine ⟨w', ?_⟩
      cases o with
      | unmanaged reason' => exact .inl (PassOutcome.skipped.inj (Except.ok.inj h) ▸ hmeets)
      | unready => exact .inr ⟨(PassOutcome.skipped.inj (Except.ok.inj h)).symm, hmeets⟩
      | _ => contradiction
    · rw [hconclude.sync_eq_concluded] at h
      cases Except.ok.inj h
  · rintro ⟨w', hmeets | ⟨rfl, hmeets⟩⟩
    · rw [hmeets.sync_eq]
      rfl
    · rw [hmeets.sync_eq]
      rfl

/-- **A pass comes to a verdict** exactly if it gets as far as to conclude with it. -/
theorem sync_eq_reconciled_iff {v : Verdict} :
    (r.sync now w).1 = .ok (.reconciled v) ↔ ∃ w', r.Reaches now w (.conclude v) w' := by
  constructor
  · intro h
    rcases course r now w with ⟨o, w', hmeets⟩ | ⟨v', w', hconclude⟩
    · rw [hmeets.sync_eq] at h
      cases o <;> simp [Obstacle.result] at h
    · rw [hconclude.sync_eq_concluded] at h
      obtain rfl := PassOutcome.reconciled.inj (Except.ok.inj h)
      exact ⟨w', hconclude⟩
  · rintro ⟨w', hconclude⟩
    rw [hconclude.sync_eq_concluded]

/-- A failure other than of writing is the same with any registry. -/
theorem BeginsAs.sync_eq_error (h : r.BeginsAs r') {e : PassError}
    (he : ∀ cause, e ≠ .statusWriteFailed cause) (hsync : (r.sync now w).1 = .error e) :
    (r'.sync now w).1 = .error e := by
  obtain ⟨o, w', hmeets, hraises⟩ := sync_eq_error_iff.mp hsync
  refine sync_eq_error_iff.mpr ⟨o, w', h.meets hmeets ?_, hraises⟩
  cases o with
  | unwritten cause => exact absurd hraises (he cause)
  | _ => trivial

/-- If all writes are answered alike, so is the failure of writing. -/
theorem BeginsAs.sync_eq_error_of_alike (h : r.BeginsAs r')
    (halike : ∀ c c' w₁ w₂, (r.status.upsert c w₁).1 = (r.status.upsert c' w₂).1)
    {e : PassError} (hsync : (r.sync now w).1 = .error e) : (r'.sync now w).1 = .error e := by
  obtain ⟨o, w', hmeets, hraises⟩ := sync_eq_error_iff.mp hsync
  cases o with
  | unwritten cause =>
    obtain ⟨w'', hmeets'⟩ := h.meets_unwritten halike hmeets
    exact sync_eq_error_iff.mpr ⟨_, w'', hmeets', hraises⟩
  | _ => exact sync_eq_error_iff.mpr ⟨_, w', h.meets hmeets trivial, hraises⟩

/-- **A pass fails at the first obstacle, if that is a failure**, and not otherwise.  It fails with
that failure, in the words of its phase, and so never with one that concerns a single object or no
pass at all.  It is skipped if the first obstacle is a reason to skip it, whatever would fail later,
and has a verdict if there is no obstacle.  No answer of the registry makes it fail: with another
registry, which may answer anything, it fails with the same, unless writing itself is answered in
another way then. -/
theorem fails_at_first_obstacle (r : Reconciler (StateM σ)) (now : Time.Timestamp) (w : σ) :
    (∀ e, (r.sync now w).1 = .error e ↔ ∃ o w', r.Meets now w o w' ∧ o.Raises e) ∧
    (∀ e, (r.sync now w).1 = .error e → e.EndsPass) ∧
    (∀ reason, (r.sync now w).1 = .ok (.skipped reason) ↔ ∃ w',
      r.Meets now w (.unmanaged reason) w' ∨
        (reason = .preconditionNotMet ∧ r.Meets now w .unready w')) ∧
    (∀ v, (r.sync now w).1 = .ok (.reconciled v) ↔ ∃ w', r.Reaches now w (.conclude v) w') ∧
    ∀ registry recordEvent, let r' := { r with registry, recordEvent }
      (∀ e, (∀ cause, e ≠ .statusWriteFailed cause) →
        ((r'.sync now w).1 = .error e ↔ (r.sync now w).1 = .error e)) ∧
      ((∀ c c' w₁ w₂, (r.status.upsert c w₁).1 = (r.status.upsert c' w₂).1) →
        ∀ e, (r'.sync now w).1 = .error e ↔ (r.sync now w).1 = .error e) := by
  refine ⟨fun e => sync_eq_error_iff, ?_, ?_, ?_, ?_⟩
  · intro e h
    obtain ⟨o, w', -, hraises⟩ := sync_eq_error_iff.mp h
    exact hraises.endsPass
  · exact fun reason => sync_eq_skipped_iff
  · exact fun v => sync_eq_reconciled_iff
  · intro registry recordEvent r'
    have hbegins : r.BeginsAs r' := ⟨rfl, rfl, rfl⟩
    refine ⟨fun e he => ⟨hbegins.symm.sync_eq_error he, hbegins.sync_eq_error he⟩, ?_⟩
    intro halike e
    exact ⟨hbegins.symm.sync_eq_error_of_alike halike, hbegins.sync_eq_error_of_alike halike⟩

/-- A reconciler that desires one service, and whose collaborators give set answers. -/
def answering (check : Except PassError Bool) (called : Except StoreError ApiService)
    (written : Except StoreError Unit) : Reconciler (StateM Unit) where
  registry := ⟨fun _ => pure called, fun _ => pure called⟩
  provider := pure (.ok [.new "build" "v1" ⟨"openshift-apiserver", "api"⟩])
  precondition := pure check
  status := ⟨pure (.ok .initial), fun _ => pure written⟩
  recordVersion _ _ := pure ()
  recordEvent _ := pure ()
  component := "openshift-apiserver"
  operandVersion := "4.2.0"

/-- A failure of another kind that the precondition gives is wrapped once; and a verdict that cannot
be written makes a pass fail alike whether the registry knows the object or denies it. -/
theorem fails_at_first_obstacle_answering :
    let now := Rehearsal.World.time 0
    let denied : Except StoreError ApiService := .error (.backend "denied")
    let known : Except StoreError ApiService :=
      .ok (Desired.new "build" "v1" ⟨"openshift-apiserver", "api"⟩).toObject
    ((answering (.error (.fetch "v1.build" (.backend "gone"))) denied (.ok ())).sync now ()).1 =
      .error (.preconditionFailed (StoreError.backend "gone").message) ∧
    ((answering (.ok true) denied (.error (.backend "full"))).sync now ()).1 =
      .error (.statusWriteFailed (.backend "full")) ∧
    ((answering (.ok true) known (.error (.backend "full"))).sync now ()).1 =
      .error (.statusWriteFailed (.backend "full")) := by
  intro now denied known
  obtain ⟨hforeign, -⟩ := fails_at_first_obstacle
    (answering (.error (.fetch "v1.build" (.backend "gone"))) denied (.ok ())) now ()
  obtain ⟨hfull, -, -, -, hregistry⟩ := fails_at_first_obstacle
    (answering (.ok true) denied (.error (.backend "full"))) now ()
  have hpassed : (PassError.fetch "v1.build" (.backend "gone")).PassedOnAs .preconditionFailed
      (.preconditionFailed (StoreError.backend "gone").message) :=
    .inr ⟨fun _ => PassError.noConfusion, rfl⟩
  have hunchecked := (hforeign _).mpr ⟨.unchecked _, (), .unchecked (.managed .begin rfl rfl) rfl,
    hpassed⟩
  have hunwritten := (hfull (.statusWriteFailed (.backend "full"))).mpr ⟨.unwritten _, (),
    .unwritten (.observed (.provided (.ready (.managed .begin rfl rfl) rfl) rfl) rfl) rfl, rfl⟩
  have halike := (hregistry ⟨fun _ => pure known, fun _ => pure known⟩ fun _ => pure ()).2
    fun _ _ _ _ => rfl
  exact ⟨hunchecked, hunwritten, (halike _).mpr hunwritten⟩

end Reconciler

end ApiAvailability
