import ApiAvailability.Proofs.Operator.Record
import ApiAvailability.Proofs.Pass.Stocked
import ApiAvailability.Proofs.Pass.Verdict

/-!
# Proofs/Pass/Repeat — a pass after a pass

In a steady world the first pass does all there is to do.  What it adds is there for the second,
which meets other fates and yet learns the same (`observations_worked`), and what it writes is
written again without a change (`reported_again`).

* `sync_again` — a second pass;
* `sync_idempotent` — any number of passes after the first one.
-/

namespace ApiAvailability

open Rehearsal

/-! ## The registry after a pass -/

namespace Desired

variable {c c' : Cluster} {d : Desired}

/-- An object that is added was missing and has been created. -/
theorem fate_of_isAdded (h : d.isAdded c = true) : d.fate c = .created ∧
    c.reaction (.create d.toObject) = none ∧
    ∃ e, (c.get d.name).1 = .error e ∧ e.isNotFound = true := by
  obtain ⟨hmissed, hadmits⟩ := Bool.and_eq_true_iff.mp h
  obtain ⟨hreaction, habsent⟩ := Bool.and_eq_true_iff.mp hadmits
  rw [Option.isNone_iff_eq_none] at hreaction
  have hcreate : (c.create d.toObject).1 = .ok d.toObject := by
    rw [Cluster.create_fst, hreaction, Option.getD_none, if_neg (of_decide_eq_true habsent)]
  unfold fate at hmissed ⊢
  rcases hget : (c.get d.name).1 with e | o
  · by_cases he : e.isNotFound = true
    · refine ⟨?_, hreaction, e, rfl, he⟩
      simp [he, hcreate]
    · simp [hget, he, Fate.missed] at hmissed
  · simp [hget, Fate.missed] at hmissed

/-- An object that was added can be made sure of again, and is not added again. -/
theorem fate_of_isAdded_of_mem (h : d.isAdded c = true) (hreaction : c'.reaction = c.reaction)
    (hmem : d.name ∈ c'.objects) : (d.fate c').failure? = none ∧ d.isAdded c' = false := by
  obtain ⟨-, hsilent, e, hget, he⟩ := fate_of_isAdded h
  have hadmits : c'.admits d.toObject = false := by simp [Cluster.admits, hmem]
  refine ⟨?_, by rw [isAdded, hadmits, Bool.and_false]⟩
  have hcreate : (c'.create d.toObject).1 = .error (.alreadyExists resourceName d.name) := by
    rw [Cluster.create_fst, hreaction, hsilent, Option.getD_none, name_toObject, if_pos hmem]
  obtain ⟨o, ho⟩ := Cluster.exists_object hmem
  rw [fate]
  rw [Cluster.get_fst] at hget ⊢
  rw [hreaction, ho]
  rcases hr : c.reaction (.get d.name) with _ | answer
  · rfl
  · rw [hr, Option.getD_some] at hget
    rw [Option.getD_some, hget]
    simp [he, hcreate, StoreError.isAlreadyExists, Fate.failure?]

end Desired

namespace Cluster

variable {c : Cluster} (hc : c.Stateless) {ds : List Desired} (hd : (ds.map (·.name)).Nodup)

theorem Stateless.worked (hc : c.Stateless) (ds : List Desired) : (c.worked ds).Stateless :=
  (hc.hear _).withObjects _

theorem Stateless.reaction_worked (hc : c.Stateless) (ds : List Desired) :
    (c.worked ds).reaction = c.reaction := hc.reaction_hear _

include hc hd

/-- **After the work on an entry** its object can be made sure of as before, and is not added
again. -/
theorem fate_worked {d : Desired} (h : d ∈ ds) :
    (d.fate (c.worked ds)).failure? = (d.fate c).failure? ∧ d.isAdded (c.worked ds) = false := by
  have hobject : (c.worked ds).objects[d.name]? =
      if d.isAdded c then some d.toObject else c.objects[d.name]? := getElem?_fill_of_mem hd h
  cases hadded : d.isAdded c with
  | true =>
    rw [hadded, if_pos rfl] at hobject
    have hmem : d.name ∈ (c.worked ds).objects :=
      Std.ExtTreeMap.mem_iff_isSome_getElem?.mpr (by rw [hobject]; rfl)
    rw [(Desired.fate_of_isAdded hadded).1]
    exact Desired.fate_of_isAdded_of_mem hadded (hc.reaction_worked ds) hmem
  | false =>
    rw [hadded, if_neg Bool.false_ne_true] at hobject
    have hagree : AgreeOn d.name (c.worked ds) c := ⟨hc.reaction_worked ds, hobject⟩
    rw [Desired.fate_congr hagree, Desired.isAdded_congr hagree]
    exact ⟨rfl, hadded⟩

/-- **A second pass adds nothing.** -/
theorem filled_worked : (c.worked ds).filled ds = c.filled ds :=
  fill_eq_self fun _ h => (fate_worked hc hd h).2

/-- **A second pass learns what the first one learnt.** -/
theorem observations_worked : (c.worked ds).observations ds = c.observations ds := by
  have hfailure : ∀ d ∈ ds, (d.fate (c.worked ds)).failure? = (d.fate c).failure? :=
    fun d h => (fate_worked hc hd h).1
  have hready : (c.worked ds).ready ds = c.ready ds :=
    List.filter_congr fun d h => by rw [hfailure d h]
  have hback (d : Desired) :
      ((c.worked ds).withObjects ((c.worked ds).filled ds)).readBack d =
        (c.withObjects (c.filled ds)).readBack d := by
    have hagree : AgreeOn d.name ((c.worked ds).withObjects ((c.worked ds).filled ds))
        (c.withObjects (c.filled ds)) :=
      ⟨hc.reaction_worked ds, congrArg (·[d.name]?) (filled_worked hc hd)⟩
    rw [readBack, readBack, get_congr hagree]
  rw [observations]
  rw [hready]
  refine congrArg₂ (· ++ ·) (List.filterMap_congr fun d h => by rw [hfailure d h]) ?_
  exact List.map_congr_left fun d _ => by rw [hback d]

end Cluster

/-! ## A second pass -/

section Pass

variable {s : Stage} {w : World} {n : Nat}

/-- Writing the same verdict again changes nothing in the record. -/
theorem Rehearsal.Stage.reported_again (now now' : Time.Timestamp) (v : Verdict)
    (state : OperatorState) :
    s.reported now' v (s.reported now v state) = s.reported now v state := by
  have hsame : (v.toCondition now).sameState (v.toCondition now') = true :=
    OperatorCondition.sameState_iff.mpr ⟨rfl, rfl, rfl, rfl⟩
  have hcondition := OperatorState.setCondition_again hsame
  unfold Stage.reported
  split
  · rw [OperatorState.setCondition_setVersion, hcondition, OperatorState.setVersion_again]
  · rw [hcondition]

/-- **A second pass comes to what the first one came to**, and leaves objects and record as the
first one left them. -/
theorem sync_again (hs : s.backend = .memory) (hc : w.cluster.Stateless)
    (hd : (w.desired.map (·.name)).Nodup) (hw : s.Steady (n + 1) w) (now now' : Time.Timestamp) :
    let w₁ := (s.assembled.sync now w).2
    let w₂ := (s.assembled.sync now' w₁).2
    w₁.cluster.Stateless ∧ (s.assembled.sync now' w₁).1 = (s.assembled.sync now w).1 ∧
      w₂.cluster.objects = w₁.cluster.objects ∧ w₂.status.state = w₁.status.state := by
  intro w₁ w₂
  have hfollows : w.Follows w₁ := Stage.follows_sync hs now w
  have hopening := hw.opening_eq hfollows hs
  rcases h : s.opening w (s.assembled.status.read w).1 with ending | ds
  · obtain ⟨i, checked, stopping, -, hsync⟩ := Stage.sync_of_opening_error now h
    obtain ⟨i', checked', stopping', -, hsync'⟩ :=
      Stage.sync_of_opening_error now' (hopening.trans h)
    have hw₁ : w₁ = w.begun (w.checks.drop i) checked stopping := congrArg Prod.snd hsync
    have hw₂ : w₂ = w₁.begun (w₁.checks.drop i') checked' stopping' := congrArg Prod.snd hsync'
    refine ⟨hw₁ ▸ hc, ?_, by rw [hw₂, World.cluster_begun], by rw [hw₂, World.status_begun]⟩
    rw [hsync', hsync]
  · obtain rfl : w.desired = ds := (Stage.opening_eq_ok_iff.mp h).2.2.2
    have hfirst := sync_memory hs hc hd h now
    have hc₁ : w₁.cluster.Stateless := hfirst.cluster ▸ hc.worked w.desired
    have hsecond := sync_memory hs hc₁ hd (hopening.trans h) now'
    have hobservations : w₁.cluster.observations w.desired = w.cluster.observations w.desired := by
      rw [hfirst.cluster, Cluster.observations_worked hc hd]
    have hresult := hsecond.result
    have hstate := hsecond.state
    rw [hobservations, hw.writeError?_eq hfollows] at hresult hstate
    refine ⟨hc₁, hresult.trans hfirst.result.symm, ?_, ?_⟩
    · rw [hsecond.cluster, hfirst.cluster]
      exact Cluster.filled_worked hc hd
    · refine hstate.trans ?_
      have hstate₁ := hfirst.state
      cases hwrite : w.writeError? with
      | some e => rfl
      | none =>
        rw [hwrite, Option.elim_none] at hstate₁
        rw [Option.elim_none, hstate₁, Stage.reported_again]

/-- **Any number of passes after a first one.** -/
theorem mapM_sync_again (hs : s.backend = .memory) (hc : w.cluster.Stateless)
    (hd : (w.desired.map (·.name)).Nodup) (now : Time.Timestamp) (later : List Time.Timestamp)
    (hw : s.Steady later.length w) :
    let first := s.assembled.sync now w
    let rest := later.mapM s.assembled.sync first.2
    (∀ result ∈ rest.1, result = first.1) ∧ rest.2.cluster.objects = first.2.cluster.objects ∧
      rest.2.status.state = first.2.status.state := by
  induction later generalizing w now with
  | nil =>
    dsimp only
    rw [mapM_nil_apply]
    exact ⟨fun _ h => absurd h List.not_mem_nil, rfl, rfl⟩
  | cons now' later ih =>
    have hfollows := Stage.follows_sync hs now w
    obtain ⟨hc₁, hresult, hobjects, hstate⟩ := sync_again hs hc hd hw now now'
    have hd₁ : ((s.assembled.sync now w).2.desired.map (·.name)).Nodup := hfollows.desired ▸ hd
    obtain ⟨hresults, hobjects', hstate'⟩ := ih hc₁ hd₁ now' (hw.follows hfollows)
    dsimp only
    rw [mapM_cons_apply]
    refine ⟨List.forall_mem_cons.mpr ⟨hresult, fun result h => ?_⟩, hobjects'.trans hobjects,
      hstate'.trans hstate⟩
    exact (hresults result h).trans hresult

/-! ## Without reactors -/

section Quiet

variable (hs : s.backend = .memory)

include hs

theorem Rehearsal.Stage.cluster_report (now : Time.Timestamp) (v : Verdict) (w : World) :
    (s.assembled.report now v w).2.cluster = w.cluster := by
  rw [report_memory hs]
  split <;> rfl

/-- A pass without reactors leaves a registry that is stocked for the next one. -/
theorem sync_stocks (h : w.cluster.reactors = []) (hw : s.Steady (n + 1) w)
    (now : Time.Timestamp) :
    let w₁ := (s.assembled.sync now w).2
    w₁.cluster.reactors = [] ∧ ∀ ds, s.opening w₁ (s.assembled.status.read w₁).1 = .ok ds →
      w₁.cluster.Stocked ds := by
  intro w₁
  rw [hw.opening_eq (Stage.follows_sync hs now w) hs]
  rcases hopening : s.opening w (s.assembled.status.read w).1 with ending | ds
  · obtain ⟨i, checked, stopping, -, hsync⟩ := Stage.sync_of_opening_error now hopening
    have hw₁ : w₁ = w.begun (w.checks.drop i) checked stopping := congrArg Prod.snd hsync
    exact ⟨hw₁ ▸ h, fun ds hds => nomatch hds⟩
  · obtain ⟨i, checked, stopping, -, hsync⟩ := Stage.sync_of_opening_ok now hopening
    have hcluster : w₁.cluster =
        (s.assembled.observe ds (w.begun (w.checks.drop i) checked stopping)).2.cluster :=
      (congrArg (·.2.cluster) hsync).trans (Stage.cluster_report hs now _ _)
    have hstocked : w₁.cluster.Stocked ds := hcluster ▸ stocked_observe hs h
    exact ⟨hstocked.reactors, fun ds' hds => Except.ok.inj hds ▸ hstocked⟩

/-- A pass over a stocked registry creates nothing. -/
theorem count_sync
    (h : ∀ ds, s.opening w (s.assembled.status.read w).1 = .ok ds → w.cluster.Stocked ds)
    (now : Time.Timestamp) :
    (s.assembled.sync now w).2.cluster.count "create" = w.cluster.count "create" := by
  rcases hopening : s.opening w (s.assembled.status.read w).1 with ending | ds
  · obtain ⟨i, checked, stopping, -, hsync⟩ := Stage.sync_of_opening_error now hopening
    rw [hsync, World.cluster_begun]
  · obtain ⟨i, checked, stopping, -, hsync⟩ := Stage.sync_of_opening_ok now hopening
    rw [hsync, Stage.cluster_report hs]
    exact (observe_onlyReads hs (w.begun (w.checks.drop i) checked stopping) (h ds hopening)).2

/-- **Without reactors no pass after the first one creates anything.** -/
theorem count_mapM_sync (h : w.cluster.reactors = []) (now : Time.Timestamp)
    (later : List Time.Timestamp) (hw : s.Steady later.length w) :
    let first := s.assembled.sync now w
    (later.mapM s.assembled.sync first.2).2.cluster.count "create" =
      first.2.cluster.count "create" := by
  induction later generalizing w now with
  | nil =>
    dsimp only
    rw [mapM_nil_apply]
  | cons now' later ih =>
    obtain ⟨hreactors, hstocked⟩ := sync_stocks hs h hw now
    have hrest := ih hreactors now' (hw.follows (Stage.follows_sync hs now w))
    dsimp only
    rw [mapM_cons_apply]
    exact hrest.trans (count_sync hs hstocked now')

end Quiet

/-- **Passes are idempotent.**  In a steady world every pass after the first one comes to what the
first one came to, and leaves objects and record as the first one left them; without reactors it
creates nothing, also if names are desired twice. -/
theorem sync_idempotent {r : Reconciler (StateM World)} (hs : s.backend = .memory)
    (hr : s.reconciler = .ok r) (now : Time.Timestamp) (later : List Time.Timestamp)
    (hw : s.Steady later.length w) :
    let first := r.sync now w
    let rest := later.mapM r.sync first.2
    (w.cluster.Stateless → (w.desired.map (·.name)).Nodup →
      (∀ result ∈ rest.1, result = first.1) ∧ rest.2.cluster.objects = first.2.cluster.objects ∧
        rest.2.status.state = first.2.status.state) ∧
    (w.cluster.reactors = [] →
      rest.2.cluster.count "create" = first.2.cluster.count "create") := by
  obtain rfl := Stage.eq_assembled hr
  exact ⟨fun hc hd => mapM_sync_again hs hc hd now later hw,
    fun h => count_mapM_sync hs h now later hw⟩

/-- Passes after the first one over a troubled world find the same troubles, and without reactors
they create nothing, though a service is desired twice. -/
theorem sync_idempotent_troubled :
    (let first := Stage.complete.assembled.sync (World.time 0) World.troubled
     let rest := [World.time 1, World.time 2].mapM Stage.complete.assembled.sync first.2
     (∀ result ∈ rest.1, result = first.1) ∧ rest.2.cluster.objects = first.2.cluster.objects ∧
        rest.2.status.state = first.2.status.state) ∧
    (let first := Stage.complete.assembled.sync (World.time 0) World.doubled
     let rest := [World.time 1, World.time 2].mapM Stage.complete.assembled.sync first.2
     rest.2.cluster.count "create" = first.2.cluster.count "create") := by
  have hs : Stage.complete.backend = .memory := rfl
  have hr := Stage.complete.reconciler_of_without rfl
  have hsteady : Stage.complete.Steady 2 World.troubled := Stage.steady_of_eq_nil rfl rfl rfl
  have hsteady' : Stage.complete.Steady 2 World.doubled := Stage.steady_of_eq_nil rfl rfl rfl
  obtain ⟨hsame, -⟩ := sync_idempotent hs hr (World.time 0) [World.time 1, World.time 2] hsteady
  obtain ⟨-, hcount⟩ := sync_idempotent hs hr (World.time 0) [World.time 1, World.time 2] hsteady'
  exact ⟨hsame World.stateless_troubled World.nodup_troubled, hcount rfl⟩

end Pass

end ApiAvailability
