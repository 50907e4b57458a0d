import ApiAvailability.Proofs.Pass.Due
import ApiAvailability.Proofs.Pass.Repeat

/-!
# Proofs/Pass/Convergence — when a pass converges

On a registry without reactors a pass can make sure of every object, equal names or not, and adds
those that are missing, each as the first entry of its name has it (`observe_of_reactors`).  What is
added reports nothing yet, so that no name comes to be served by a pass (`Completed.serves_eq`).

* `isConverged_sync_iff` — a pass converges exactly if all that is desired was serving before it;
* `serves_setAll` — what serving objects take: that each of them reports so;
* `sync_converges_iff` — the two together, from one pass to the next.
-/

namespace ApiAvailability

open Rehearsal

/-! ## Serving -/

/-- **Conditions report that an API service is serving**: the first one of type `Available` is
true. -/
def serving (cs : List ServiceCondition) : Bool :=
  (cs.find? (·.type == ApiService.availableType)).any (·.status = .true)

theorem Health.ofObject_eq_available_iff_serving {o : ApiService} :
    ofObject o = available ↔ serving o.conditions = true := by
  rw [ofObject_eq_available_iff, serving, Option.any_eq_true]
  simp [ApiService.availableCondition?]

theorem Outcome.ofFetched_ok_eq_available_iff {health : Health} :
    ofFetched (.ok health) = available ↔ health = .available := by
  cases health <;> simp [ofFetched]

namespace Cluster

/-- **A registry serves a name**: it has an object of that name, which reports that it is
serving. -/
def serves (c : Cluster) (name : String) : Bool := c.objects[name]?.any (serving ·.conditions)

/-- Replaces the conditions of several objects, one after the other. -/
def setAll (c : Cluster) (us : List (String × List ServiceCondition)) : Cluster :=
  us.foldl (fun c u => (c.setConditions u.1 u.2).2) c

variable {c : Cluster} {ds : List Desired} {d : Desired} {name : String}

theorem mem_of_serves (h : c.serves name = true) : name ∈ c.objects := by
  rw [serves, Option.any_eq_true] at h
  obtain ⟨o, ho, -⟩ := h
  exact Std.ExtTreeMap.mem_iff_isSome_getElem?.mpr (Option.isSome_of_mem ho)

theorem readBack_eq_available_iff (h : c.reactors = []) :
    c.readBack d = .available ↔ c.serves d.name = true := by
  rw [readBack, get_fst, reaction_of_reactors h, Option.getD_none, serves]
  cases c.objects[d.name]? with
  | none => simp [Except.map, Outcome.ofFetched]
  | some o =>
    exact Outcome.ofFetched_ok_eq_available_iff.trans Health.ofObject_eq_available_iff_serving

/-! ### Other conditions -/

theorem reactors_setAll (us : List (String × List ServiceCondition)) :
    (c.setAll us).reactors = c.reactors := by
  induction us generalizing c with
  | nil => rfl
  | cons u us ih => exact ih.trans (reactors_setConditions u.2)

/-- **A name is served once its object reports so**, however often that is said. -/
theorem serves_setAll {us : List (String × List ServiceCondition)} (hmem : name ∈ c.objects)
    (hus : c.serves name = true ∨ name ∈ us.map Prod.fst)
    (hserving : ∀ u ∈ us, u.1 = name → serving u.2 = true) : (c.setAll us).serves name = true := by
  induction us generalizing c with
  | nil => exact hus.resolve_right List.not_mem_nil
  | cons u us ih =>
    have hobject := c.getElem?_setConditions u.1 u.2 name
    obtain ⟨o, ho⟩ := exists_object hmem
    refine ih ?_ ?_ fun u' hu' => hserving u' (List.mem_cons_of_mem u hu')
    · rw [Std.ExtTreeMap.mem_iff_isSome_getElem?, hobject, ho]
      split <;> rfl
    · rw [serves, hobject]
      by_cases hname : u.1 = name
      · rw [if_pos hname, ho]
        exact .inl (hserving u List.mem_cons_self hname)
      · rw [if_neg hname]
        exact hus.imp_right fun hmem => (List.mem_cons.mp hmem).resolve_left (Ne.symm hname)

end Cluster

/-! ## The work on objects -/

theorem Desired.getElem?_objectsAfter {c : Cluster} (h : c.reactors = []) (d : Desired)
    (name : String) : (d.objectsAfter c)[name]? =
      c.objects[name]?.or (if d.name = name then some d.toObject else none) := by
  rw [objectsAfter]
  by_cases hmem : d.name ∈ c.objects
  · rw [isAdded_of_mem h hmem, if_neg Bool.false_ne_true]
    by_cases hname : d.name = name
    · subst name
      obtain ⟨o, ho⟩ := Cluster.exists_object hmem
      rw [ho]
      rfl
    · rw [if_neg hname, Option.or_none]
  · rw [isAdded_of_not_mem h hmem, if_pos rfl, Std.ExtTreeMap.getElem?_insert]
    by_cases hname : d.name = name
    · subst name
      simp [hmem]
    · simp [hname]

theorem Desired.exists_result_fate {c : Cluster} (h : c.reactors = []) (d : Desired) :
    ∃ how, (d.fate c).result = .ok how := by
  by_cases hmem : d.name ∈ c.objects
  · rw [fate_of_mem h hmem]
    exact ⟨.alreadyExisted, rfl⟩
  · rw [(fate_of_isAdded (isAdded_of_not_mem h hmem)).1]
    exact ⟨.created, rfl⟩

/-- **A registry is completed** for some desired services: it has no reactors, and it has gained an
object for each name that was missing, that of the first entry. -/
structure Cluster.Completed (ds : List Desired) (c c' : Cluster) : Prop where
  reactors : c'.reactors = []
  object : ∀ name, c'.objects[name]? =
    c.objects[name]?.or ((ds.find? (·.name = name)).map Desired.toObject)

namespace Cluster.Completed

variable {ds : List Desired} {c c' : Cluster} (h : Completed ds c c')

include h

/-- What was added is not serving yet. -/
theorem serves_eq (name : String) : c'.serves name = c.serves name := by
  rw [serves, serves, h.object]
  cases c.objects[name]? with
  | some o => rfl
  | none => cases ds.find? (·.name = name) <;> rfl

theorem mem {d : Desired} (hd : d ∈ ds) : d.name ∈ c'.objects := by
  rw [Std.ExtTreeMap.mem_iff_isSome_getElem?, h.object, Option.isSome_or, Option.isSome_map,
    Bool.or_eq_true, List.find?_isSome]
  exact .inr ⟨d, hd, decide_eq_true rfl⟩

/-- Nothing is added where nothing is missing. -/
theorem objects_eq (hstored : ∀ d ∈ ds, d.name ∈ c.objects) : c'.objects = c.objects := by
  refine Std.ExtTreeMap.ext_getElem? fun name => ?_
  rw [h.object]
  cases hname : c.objects[name]? with
  | some o => rfl
  | none =>
    have hnone : ds.find? (·.name = name) = none := by
      refine List.find?_eq_none.mpr fun d hd heq => ?_
      have hmem := hstored d hd
      rw [of_decide_eq_true heq, Std.ExtTreeMap.mem_iff_isSome_getElem?, hname] at hmem
      contradiction
    rw [hnone]
    rfl

end Cluster.Completed

section Memory

variable {s : Stage} (hs : s.backend = .memory) {w : World} (h : w.cluster.reactors = [])
  (ds : List Desired)

include hs h

/-- **Without reactors every object can be made sure of.** -/
theorem ensureAll_of_reactors :
    let p := ensureAll s.assembled.registry s.assembled.recordEvent ds w
    w.cluster.Completed ds p.2.cluster ∧ p.1.filterMap ready? = ds ∧
      p.1.filterMap Observation.ofEnsured? = [] := by
  induction ds generalizing w with
  | nil =>
    rw [ensureAll]
    rw [mapM_nil_apply]
    exact ⟨⟨h, fun name => (Option.or_none).symm⟩, rfl, rfl⟩
  | cons d ds ih =>
    have hensure := Desired.ensure_memory hs (Cluster.stateless_of_reactors h) d
    obtain ⟨how, hhow⟩ := d.exists_result_fate h
    rw [hhow] at hensure
    rw [ensureAll_cons_apply, hensure]
    dsimp only
    obtain ⟨hcompleted, hready, hfailed⟩ := ih (w := s.moved w ((w.cluster.hear
      ((d.fate w.cluster).calls d)).withObjects (d.objectsAfter w.cluster))
      ((d.fate w.cluster).events d)) (Cluster.reactors_hear h _)
    refine ⟨⟨hcompleted.reactors, fun name => ?_⟩, ?_, ?_⟩
    · rw [hcompleted.object, Stage.cluster_moved, Cluster.objects_withObjects,
        d.getElem?_objectsAfter h, Option.or_assoc, List.find?_cons]
      by_cases hname : d.name = name <;> simp [hname]
    · rw [List.filterMap_cons, hready]
      rfl
    · rw [List.filterMap_cons, hfailed]
      rfl

/-- **The work on objects without reactors**: it completes the registry, and reads back an object
for every entry. -/
theorem observe_of_reactors :
    let p := s.assembled.observe ds w
    w.cluster.Completed ds p.2.cluster ∧
      p.1 = ds.map fun d => ⟨d.name, p.2.cluster.readBack d⟩ := by
  obtain ⟨hcompleted, hready, hfailed⟩ := ensureAll_of_reactors hs h ds
  rw [Reconciler.observe, observe]
  rw [bind_apply, bind_apply, pure_apply]
  generalize ensureAll s.assembled.registry s.assembled.recordEvent ds w = ensured at *
  have hstateless := Cluster.stateless_of_reactors hcompleted.reactors
  rw [hready, hfailed, fetchAll_memory hs hstateless, List.nil_append, List.map_map]
  refine ⟨⟨Cluster.reactors_hear hcompleted.reactors _, fun name => ?_⟩, ?_⟩
  · rw [Stage.cluster_moved, Cluster.objects_hear, hcompleted.object]
  · refine List.map_congr_left fun d _ => ?_
    rw [Stage.cluster_moved, Cluster.readBack, Cluster.get_congr (hstateless.agreeOn_hear _ _)]
    rfl

/-- **The verdict is positive exactly if all that is desired was serving.** -/
theorem isAvailable_observe_iff :
    (aggregate (s.assembled.observe ds w).1).isAvailable = true ↔
      ∀ d ∈ ds, w.cluster.serves d.name = true := by
  obtain ⟨hcompleted, hobservations⟩ := observe_of_reactors hs h ds
  rw [isAvailable_aggregate, hobservations, List.isEmpty_iff, List.filterMap_eq_nil_iff]
  simp only [List.forall_mem_map, Observation.line?, Failure.ofObservation?, Option.map_eq_none_iff,
    Outcome.complaint?_eq_none_iff, Cluster.readBack_eq_available_iff hcompleted.reactors,
    hcompleted.serves_eq]

end Memory

/-! ## Whole passes -/

namespace Rehearsal.Stage

variable {s : Stage} {r : Reconciler (StateM World)} {w w' : World} {now : Time.Timestamp}

/-- The version that is recorded of the component, if any is. -/
def recorded? (s : Stage) (w : World) : Option String :=
  if s.versionsInStatus then w.status.state.status.version? s.component
  else w.versions.versions[s.component]?

/-- **A pass converges**: its verdict is positive, the record says so without reason and message,
and the version is recorded. -/
structure Converges (s : Stage) (result : Except PassError PassOutcome) (w : World) : Prop where
  result : isConverged result = true
  condition : ∃ found, w.status.state.status.condition? Verdict.conditionType = some found ∧
    found.status = .true ∧ found.reason = none ∧ found.message = none
  version : s.recorded? w = some s.operandVersion

/-- **A pass that writes a positive verdict converges.** -/
theorem converges_of_concludes {os : List Observation} {c : Cluster} {es : List Event}
    {result : Except PassError PassOutcome} (h : s.Concludes now (aggregate os) c es w result w')
    (hw : w.writeError? = none) (hpositive : (aggregate os).isAvailable = true) :
    s.Converges result w' := by
  obtain ⟨hstatus, hreason, hmessage⟩ := aggregate_of_isAvailable hpositive
  have hresult := h.result
  have hstate := h.state
  have hversions := h.versions
  rw [hw, Option.elim_none] at hresult hstate
  refine ⟨?_, ?_, ?_⟩
  · rw [hresult]
    exact hpositive
  · rw [hstate, condition?_reported]
    refine ⟨_, rfl, ?_⟩
    cases w.status.state.status.condition? Verdict.conditionType <;>
      simp [OperatorCondition.supersede, Verdict.toCondition, hstatus, hreason, hmessage]
  · rw [recorded?]
    cases hin : s.versionsInStatus with
    | true =>
      rw [if_pos rfl, hstate, reported, hpositive, hin]
      exact OperatorStatus.version?_setVersion ..
    | false =>
      rw [hw, hpositive, hin] at hversions
      rw [if_neg Bool.false_ne_true, hversions]
      exact Std.ExtTreeMap.getElem?_insert_self

/-- **An unhindered pass writes the verdict over what it observes.** -/
theorem exists_concludes (hs : s.backend = .memory) (hw : s.Unhindered w) (now : Time.Timestamp) :
    ∃ w₀ es, w₀.cluster = w.cluster ∧
      let observed := s.assembled.observe w.desired w₀
      s.Concludes now (aggregate observed.1) observed.2.cluster es w (s.assembled.sync now w).1
        (s.assembled.sync now w).2 := by
  obtain ⟨n, checked, stopping, -, hsync⟩ := sync_of_opening_ok now (hw.opening hs)
  obtain ⟨c, es, hmoved⟩ :=
    observe_moved hs w.desired (w.begun (w.checks.drop n) checked stopping)
  refine ⟨w.begun (w.checks.drop n) checked stopping, es, rfl, ?_⟩
  dsimp only
  rw [hsync, hmoved]
  exact concludes_report hs now _ c es w (w.checks.drop n) checked stopping

section Memory

variable (hs : s.backend = .memory) (h : w.cluster.reactors = []) (hw : s.Unhindered w)

include hs h hw

/-- **A pass completes the registry**, whatever its verdict. -/
theorem completed_sync (now : Time.Timestamp) :
    w.cluster.Completed w.desired (s.assembled.sync now w).2.cluster := by
  obtain ⟨w₀, es, hcluster, hconcludes⟩ := exists_concludes hs hw now
  rw [hconcludes.cluster, ← hcluster]
  exact (observe_of_reactors hs (hcluster ▸ h) w.desired).1

/-- **A pass converges exactly if all that is desired was serving**, and otherwise its verdict is
negative. -/
theorem isConverged_sync_iff (now : Time.Timestamp) :
    (isConverged (s.assembled.sync now w).1 = true ↔
      ∀ d ∈ w.desired, w.cluster.serves d.name = true) ∧
    (isConverged (s.assembled.sync now w).1 = true →
      s.Converges (s.assembled.sync now w).1 (s.assembled.sync now w).2) := by
  obtain ⟨w₀, es, hcluster, hconcludes⟩ := exists_concludes hs hw now
  have hresult : isConverged (s.assembled.sync now w).1 =
      (aggregate (s.assembled.observe w.desired w₀).1).isAvailable := by
    rw [hconcludes.result, hw.writable]
    rfl
  rw [hresult, ← hcluster]
  exact ⟨isAvailable_observe_iff hs (hcluster ▸ h) w.desired,
    converges_of_concludes hconcludes hw.writable⟩

end Memory

end Rehearsal.Stage

variable {s : Stage} {r : Reconciler (StateM World)} {w : World}

/-- **When passes converge without faults**, whatever names are desired.  An unhindered pass on a
registry without reactors writes its verdict.  It converges exactly if all that is desired was
serving before it; a pass that has added an object does not converge.  After it all that is desired
is there, and once all of that reports to be serving, the next pass converges, whatever this one
came to. -/
theorem sync_converges_iff (hs : s.backend = .memory) (hr : s.reconciler = .ok r)
    (h : w.cluster.reactors = []) (hw : s.Unhindered w) (now : Time.Timestamp) :
    let p := r.sync now w
    isReconciled p.1 = true ∧
    (s.Converges p.1 p.2 ↔ ∀ d ∈ w.desired, w.cluster.serves d.name = true) ∧
    (isConverged p.1 = true ↔ ∀ d ∈ w.desired, w.cluster.serves d.name = true) ∧
    (p.2.cluster.objects ≠ w.cluster.objects → isConverged p.1 = false) ∧
    (∀ d ∈ w.desired, d.name ∈ p.2.cluster.objects) ∧ p.2.cluster.reactors = [] ∧
    ∀ (us : List (String × List ServiceCondition)) (w' : World) (later : Time.Timestamp),
      (∀ d ∈ w.desired, d.name ∈ us.map Prod.fst ∧
        ∀ u ∈ us, u.1 = d.name → serving u.2 = true) →
      w'.cluster = p.2.cluster.setAll us → w'.desired = w.desired → s.Unhindered w' →
      let q := r.sync later w'
      s.Converges q.1 q.2 ∧ q.2.cluster.objects = w'.cluster.objects := by
  obtain rfl := Stage.eq_assembled hr
  intro p
  obtain ⟨hiff, hconverges⟩ := Stage.isConverged_sync_iff hs h hw now
  have hcompleted : w.cluster.Completed w.desired p.2.cluster :=
    Stage.completed_sync hs h hw now
  refine ⟨?_, ⟨fun hp => hiff.mp hp.result, fun hall => hconverges (hiff.mpr hall)⟩, hiff, ?_,
    fun d hd => hcompleted.mem hd, hcompleted.reactors, ?_⟩
  · obtain ⟨w₀, es, -, hconcludes⟩ := Stage.exists_concludes hs hw now
    rw [hconcludes.result, hw.writable]
    rfl
  · intro hadded
    rw [← Bool.not_eq_true]
    intro hp
    exact hadded (hcompleted.objects_eq fun d hd => Cluster.mem_of_serves (hiff.mp hp d hd))
  · intro us w' later hus hcluster hdesired hw' q
    have hreactors : w'.cluster.reactors = [] := by
      rw [hcluster, Cluster.reactors_setAll, hcompleted.reactors]
    have hserves : ∀ d ∈ w'.desired, w'.cluster.serves d.name = true := by
      intro d hd
      rw [hdesired] at hd
      rw [hcluster]
      exact Cluster.serves_setAll (hcompleted.mem hd) (.inr (hus d hd).1) (hus d hd).2
    obtain ⟨hiff', hconverges'⟩ := Stage.isConverged_sync_iff hs hreactors hw' later
    refine ⟨hconverges' (hiff'.mpr hserves), ?_⟩
    exact (Stage.completed_sync hs hreactors hw' later).objects_eq fun d hd =>
      Cluster.mem_of_serves (hserves d hd)

/-- The world with another registry. -/
def Rehearsal.World.withCluster (w : World) (cluster : Cluster) : World := { w with cluster }

/-- Whether a pass is hindered is not up to the registry. -/
theorem Rehearsal.Stage.Unhindered.withCluster {s : Stage} {w : World} (h : s.Unhindered w)
    (c : Cluster) : s.Unhindered (w.withCluster c) :=
  ⟨h.managed, h.ready, h.provided, h.readable, h.writable⟩

/-- Reports of two API services that are serving. -/
def recovery : List (String × List ServiceCondition) :=
  let available : ServiceCondition := ⟨"Available", .true, none, none⟩
  [("v1.apps", [available]), ("v1.build", [available])]

/-- A service desired twice is missing and another is down, until both report to be serving. -/
theorem sync_converges_iff_doubled :
    let p := Stage.complete.assembled.sync (World.time 0) World.doubled
    let q := Stage.complete.assembled.sync (World.time 1)
      (p.2.withCluster (p.2.cluster.setAll recovery))
    isConverged p.1 = false ∧ (∀ d ∈ World.doubled.desired, d.name ∈ p.2.cluster.objects) ∧
      Stage.complete.Converges q.1 q.2 := by
  have hr : Stage.complete.reconciler = .ok Stage.complete.assembled :=
    Stage.reconciler_of_without rfl
  have hw : Stage.complete.Unhindered World.doubled := ⟨rfl, rfl, rfl, rfl, rfl⟩
  have hdown : ¬∀ d ∈ World.doubled.desired, World.doubled.cluster.serves d.name = true := by
    decide +kernel
  have hreports : ∀ d ∈ World.doubled.desired, d.name ∈ recovery.map Prod.fst ∧
      ∀ u ∈ recovery, u.1 = d.name → serving u.2 = true := by
    decide +kernel
  obtain ⟨-, -, hiff, -, hmem, -, hnext⟩ := sync_converges_iff rfl hr rfl hw (World.time 0)
  have hfollows := Stage.follows_sync (s := Stage.complete) rfl (World.time 0) World.doubled
  have hsteady : Stage.complete.Steady 1 World.doubled := Stage.steady_of_eq_nil rfl rfl rfl
  -- what the first pass leaves behind is not to be run again by the checks that follow
  generalize Stage.complete.assembled.sync (World.time 0) World.doubled = p at *
  have hw' : Stage.complete.Unhindered p.2 := hsteady.unhindered hfollows hw
  dsimp only
  refine ⟨Bool.eq_false_iff.mpr fun hp => hdown (hiff.mp hp), hmem, ?_⟩
  exact (hnext recovery (p.2.withCluster (p.2.cluster.setAll recovery)) (World.time 1) hreports rfl
    hfollows.desired (hw'.withCluster _)).1

end ApiAvailability
