import ApiAvailability.Proofs.Observation.Lines
import ApiAvailability.Proofs.Pass.Account

/-!
# Proofs/Pass/Verdict — the verdict of a pass, line by line

What a pass has to say of a desired service is `Desired.line?`: it is read off the registry before
the pass, and, for an object that could be made sure of, off the objects after it.

* `aggregate_observations` — the verdict states these lines, in order;
* `sync_memory` — a whole pass, told on the world before;
* `sync_account` — what an unhindered pass returns and stores.
-/

namespace ApiAvailability

open Rehearsal

/-! ## The lines of a verdict -/

/-- What keeps the object of a name from being available, as a registry answers. -/
def Cluster.shortfall? (c : Cluster) (name : String) : Option String :=
  match (c.get name).1 with
  | .error e => some e.message
  | .ok o =>
    match o.availableCondition? with
    | none => some ("not available: " ++ Health.noCondition)
    | some condition =>
      if condition.status = .true then none
      else some ("not available: " ++ condition.message.getD "")

namespace Desired

variable (c : Cluster) (after : Std.ExtTreeMap String ApiService compare) (d : Desired)

/-- **What a pass has to say of a desired service**: on a registry `c` why its object can be neither
found nor made, and otherwise what keeps it from being available with the objects `after`. -/
def cause? : Option String :=
  match (c.get d.name).1 with
  | .ok _ => (c.withObjects after).shortfall? d.name
  | .error e =>
    if e.isNotFound then
      match (c.create d.toObject).1 with
      | .ok _ => (c.withObjects after).shortfall? d.name
      | .error e =>
        if e.isAlreadyExists then (c.withObjects after).shortfall? d.name else some e.message
    else some e.message

/-- The line that tells of it. -/
def line? : Option String :=
  (d.cause? c after).map fun text => resourceName ++ "/" ++ d.name ++ ": " ++ oneLine text

/-- The outcome of an entry. -/
def outcome : Outcome :=
  match (d.fate c).failure? with
  | some e => .ensureFailed e.message
  | none => (c.withObjects after).readBack d

theorem complaint?_readBack : (c.readBack d).complaint? = c.shortfall? d.name := by
  rw [Cluster.readBack, Cluster.shortfall?]
  rcases (c.get d.name).1 with e | o
  · rfl
  · have hmap : (Except.ok o : Except StoreError ApiService).map Health.ofObject =
        .ok (.ofObject o) := rfl
    rw [hmap]
    rw [Health.ofObject]
    rcases ho : o.availableCondition? with _ | condition
    · simp [ho, Outcome.ofFetched, Outcome.complaint?]
    · by_cases h : condition.status = .true
      · simp [ho, h, Outcome.ofFetched, Outcome.complaint?]
      · simp [ho, h, Outcome.ofFetched, Outcome.complaint?]

theorem complaint?_outcome : (d.outcome c after).complaint? = d.cause? c after := by
  have hback := complaint?_readBack (c.withObjects after) d
  rw [outcome, cause?, fate]
  rcases (c.get d.name).1 with e | o
  · by_cases he : e.isNotFound = true
    · rcases (c.create d.toObject).1 with e' | o
      · by_cases he' : e'.isAlreadyExists = true
        · simp [he, he', Fate.failure?, hback]
        · simp [he, he', Fate.failure?, Outcome.complaint?]
      · simp [he, Fate.failure?, hback]
    · simp [he, Fate.failure?, Outcome.complaint?]
  · simp [Fate.failure?, hback]

theorem line?_outcome :
    Observation.line? ⟨d.name, d.outcome c after⟩ = d.line? c after := by
  rw [Observation.line?, Failure.ofObservation?, line?]
  rw [Option.map_map, complaint?_outcome]
  rfl

end Desired

namespace Cluster

variable {c : Cluster} {ds : List Desired}

/-- A pass observes every entry once. -/
theorem observations_perm : (c.observations ds).Perm
    (ds.map fun d => ⟨d.name, d.outcome c (c.filled ds)⟩) := by
  rw [observations, ready]
  generalize c.filled ds = after
  induction ds with
  | nil => exact .refl []
  | cons d ds ih =>
    cases hf : (d.fate c).failure? with
    | some e => simpa [hf, Desired.outcome] using ih
    | none =>
      simp only [List.filterMap_cons, List.filter_cons, List.map_cons, hf, Option.map_none,
        Option.isNone_none, if_true, Desired.outcome]
      exact List.perm_middle.trans (ih.cons _)

/-- **The verdict of a pass states a line for each entry that has one.** -/
theorem aggregate_observations : Verdict.Stating
    ((ds.filterMap (Desired.line? c (c.filled ds))).mergeSort lineOrder)
    (aggregate (c.observations ds)) := by
  have hlines : (c.observations ds).filterMap Observation.line? |>.Perm
      (ds.filterMap (Desired.line? c (c.filled ds))) := by
    refine (observations_perm.filterMap _).trans (.of_eq ?_)
    rw [List.filterMap_map]
    exact List.filterMap_congr fun d _ => d.line?_outcome c _
  rw [← sort_eq_of_perm hlines]
  exact aggregate_stating _

end Cluster

/-! ## A whole pass -/

section Pass

variable {s : Stage} {r : Reconciler (StateM World)} {w : World}

/-- **A pass that gets to work**, told on the world before. -/
theorem sync_memory (hs : s.backend = .memory) (hc : w.cluster.Stateless) {ds : List Desired}
    (hd : (ds.map (·.name)).Nodup) (h : s.opening w (s.assembled.status.read w).1 = .ok ds)
    (now : Time.Timestamp) :
    s.Concludes now (aggregate (w.cluster.observations ds)) (w.cluster.worked ds)
      (w.cluster.ensureEvents ds) w (s.assembled.sync now w).1 (s.assembled.sync now w).2 := by
  obtain ⟨n, checked, stopping, -, hsync⟩ := Stage.sync_of_opening_ok now h
  have hobserve := observe_memory hs (w := w.begun (w.checks.drop n) checked stopping) hc hd
  rw [hsync, hobserve]
  exact Stage.concludes_report hs now _ _ _ w _ checked stopping

/-- **What an unhindered pass returns and stores.**  It returns a verdict that states a line for
each desired service that has one, in order; the stored condition then has status, reason and
message of the verdict; and the objects are those before, joined by those that were missing. -/
theorem sync_account (hs : s.backend = .memory) (hr : s.reconciler = .ok r)
    (hc : w.cluster.Stateless) (hd : (w.desired.map (·.name)).Nodup) (hw : s.Unhindered w)
    (now : Time.Timestamp) :
    ∃ v condition, (r.sync now w).1 = .ok (.reconciled v) ∧
      (r.sync now w).2.status.state.status.condition? Verdict.conditionType = some condition ∧
      condition.status = v.status ∧ condition.reason = v.reason ∧ condition.message = v.message ∧
      (r.sync now w).2.cluster.objects = w.cluster.filled w.desired ∧
      Verdict.Stating ((w.desired.filterMap
        (Desired.line? w.cluster (r.sync now w).2.cluster.objects)).mergeSort lineOrder) v := by
  obtain rfl := Stage.eq_assembled hr
  have hsync := sync_memory hs hc hd (hw.opening hs) now
  let v := aggregate (w.cluster.observations w.desired)
  let before := w.status.state.status.condition? Verdict.conditionType
  let condition := before.elim (v.toCondition now) (·.supersede (v.toCondition now))
  have hsame : condition.status = v.status ∧ condition.reason = v.reason ∧
      condition.message = v.message := by
    cases hb : before <;> simp [condition, hb, OperatorCondition.supersede, Verdict.toCondition]
  have hresult := hsync.result
  have hstate := hsync.state
  rw [hw.writable, Option.elim_none] at hresult hstate
  have hcondition := s.condition?_reported now v w.status.state
  refine ⟨v, condition, hresult, ?_, hsame.1, hsame.2.1, hsame.2.2, ?_, ?_⟩
  · rw [hstate]
    exact hcondition
  · rw [hsync.cluster]
    rfl
  · rw [hsync.cluster]
    exact w.cluster.aggregate_observations

/-- A pass over a troubled world names every trouble, sorted by object. -/
theorem sync_account_troubled :
    World.troubled.cluster.Stateless ∧ (World.troubled.desired.map (·.name)).Nodup ∧
    Stage.complete.Unhindered World.troubled ∧
    ∃ v condition, (Stage.complete.assembled.sync (World.time 0) World.troubled).1 =
        .ok (.reconciled v) ∧
      (Stage.complete.assembled.sync (World.time 0) World.troubled).2.status.state.status.condition?
        Verdict.conditionType = some condition ∧
      condition.status = .false ∧ condition.reason = some "Error" ∧
      condition.message = some ("apiservices.apiregistration.k8s.io/v1.apps: " ++
        "not available: no Available condition reported\n" ++
        "apiservices.apiregistration.k8s.io/v1.build: not available: down for now\n" ++
        "apiservices.apiregistration.k8s.io/v1.route: denied") := by
  refine ⟨World.stateless_troubled, World.nodup_troubled, World.unhindered_troubled, ?_⟩
  obtain ⟨v, condition, hv, hcondition, hstatus, hreason, hmessage, hobjects, hstating⟩ :=
    sync_account rfl (Stage.reconciler_of_without rfl) World.stateless_troubled World.nodup_troubled
      World.unhindered_troubled (World.time 0)
  have hlines : World.troubled.desired.filterMap (Desired.line? World.troubled.cluster
      (World.troubled.cluster.filled World.troubled.desired)) =
      ["apiservices.apiregistration.k8s.io/v1.route: denied",
        "apiservices.apiregistration.k8s.io/v1.build: not available: down for now",
        "apiservices.apiregistration.k8s.io/v1.apps: " ++
          "not available: no Available condition reported"] := by
    decide +kernel
  have hsorted : List.mergeSort ["apiservices.apiregistration.k8s.io/v1.route: denied",
        "apiservices.apiregistration.k8s.io/v1.build: not available: down for now",
        "apiservices.apiregistration.k8s.io/v1.apps: " ++
          "not available: no Available condition reported"] lineOrder =
      ["apiservices.apiregistration.k8s.io/v1.apps: " ++
          "not available: no Available condition reported",
        "apiservices.apiregistration.k8s.io/v1.build: not available: down for now",
        "apiservices.apiregistration.k8s.io/v1.route: denied"] := by
    simp [List.mergeSort, lineOrder]
  rw [hobjects, hlines, hsorted] at hstating
  refine ⟨v, condition, hv, hcondition, ?_, ?_, ?_⟩
  · rw [hstatus, hstating.status, if_neg (List.cons_ne_nil _ _)]
  · rw [hreason, hstating.reason, if_neg (List.cons_ne_nil _ _), Verdict.errorReason]
  · rw [hmessage, hstating.message, if_neg (List.cons_ne_nil _ _)]
    decide +kernel

end Pass

end ApiAvailability
