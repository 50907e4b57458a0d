import ApiAvailability.Proofs.Heard
import ApiAvailability.Proofs.Pass.Due
import ApiAvailability.Proofs.Pass.Independence

/-!
# Proofs/Pass/Trace — what a pass leaves in the records

A registry in memory records the calls that are made, and the events that are told are recorded too.
Over pairwise distinct names, with reactors without memory, both records can be told entry by entry:
what is recorded of an entry, its trace, is settled by what the registry before the pass answers when
the object is looked for and when it is created (`Desired.Traces`).

The calls of jobs that take turns are recorded interleaved, and so are their events (`Recorded`).
What is recorded under a name can only be of the one entry that has it, so it is in its order
(`Interleaves.filter_name`); and the pass that takes entry by entry is one of the interleavings.
-/

namespace ApiAvailability

open Rehearsal

/-! ## Traces -/

/-- **What is recorded of an entry.** -/
structure Trace where
  /-- The calls by which its object is made sure of. -/
  ensuring : List Action
  /-- The calls by which its object is read back. -/
  reading : List Action
  events : List Event

namespace Desired

/-- **The trace of an entry**, by the answers when its object is looked for and when it is
created. -/
inductive Traces (d : Desired) (read made : Except StoreError ApiService) : Trace → Prop
  | unreadable {e : StoreError} (hread : read = .error e) (he : e.isNotFound = false) :
      Traces d read made ⟨[.get d.name], [], [⟨.warning, "ApiServiceGetFailed",
        "Failed to read APIService " ++ d.name ++ ": " ++ e.message⟩]⟩
  | found {o : ApiService} (hread : read = .ok o) :
      Traces d read made ⟨[.get d.name], [.get d.name], []⟩
  | refused {e e' : StoreError} (hread : read = .error e) (he : e.isNotFound = true)
      (hmade : made = .error e') (he' : e'.isAlreadyExists = false) :
      Traces d read made ⟨[.get d.name, .create d.toObject], [], [⟨.warning,
        "ApiServiceCreateFailed",
        "Failed to create APIService " ++ d.name ++ ": " ++ e'.message⟩]⟩
  | preceded {e e' : StoreError} (hread : read = .error e) (he : e.isNotFound = true)
      (hmade : made = .error e') (he' : e'.isAlreadyExists = true) :
      Traces d read made ⟨[.get d.name, .create d.toObject], [.get d.name], []⟩
  | created {e : StoreError} {o : ApiService} (hread : read = .error e) (he : e.isNotFound = true)
      (hmade : made = .ok o) :
      Traces d read made ⟨[.get d.name, .create d.toObject], [.get d.name], [⟨.normal,
        "ApiServiceCreated", "Created APIService " ++ d.name ++ " because it was missing"⟩]⟩

/-- The trace of an entry that meets its fate on a registry. -/
def trace (c : Cluster) (d : Desired) : Trace where
  ensuring := (d.fate c).calls d
  reading := if (d.fate c).failure?.isNone then [.get d.name] else []
  events := (d.fate c).events d

theorem traces (c : Cluster) (d : Desired) :
    d.Traces (c.get d.name).1 (c.create d.toObject).1 (d.trace c) := by
  rw [trace, fate]
  rcases (c.get d.name).1 with e | o
  · by_cases he : e.isNotFound = true
    · rcases (c.create d.toObject).1 with e' | o
      · by_cases he' : e'.isAlreadyExists = true
        · simp only [he, he', if_true]
          exact .preceded rfl he rfl he'
        · simp only [he, he', if_true]
          exact .refused rfl he rfl (Bool.eq_false_iff.mpr he')
      · simp only [he, if_true]
        exact .created rfl he rfl
    · simp only [he]
      exact .unreadable rfl (Bool.eq_false_iff.mpr he)
  · exact .found rfl

theorem name_of_mem_calls {d : Desired} {f : Fate} {a : Action} (h : a ∈ f.calls d) :
    a.name = d.name := by
  rw [Fate.calls] at h
  split at h
  · rcases List.mem_pair.mp h with rfl | rfl <;> rfl
  · rw [List.mem_singleton.mp h]
    rfl

theorem name_of_mem_get {d : Desired} {a : Action} (h : a ∈ [Action.get d.name]) :
    a.name = d.name := by
  rw [List.mem_singleton.mp h]
  rfl

end Desired

/-- **What was recorded between two moments `w` and `w'`**: first the calls `ensuring` and then the
calls `reading`, with the events `es` told meanwhile.  It is the traces `ts` of the entries. -/
structure TracedAs (s : Stage) (ds : List Desired) (w w' : World) (ts : List Trace)
    (ensuring reading : List Action) (es : List Event) : Prop where
  actions : w'.cluster.actions.toList = w.cluster.actions.toList ++ (ensuring ++ reading)
  events : w'.events = s.told w.events es
  /-- What is recorded under the name of an entry is its trace, by what the registry answered at the
  first moment. -/
  entries : List.Forall₂ (fun d t =>
    d.Traces (w.cluster.get d.name).1 (w.cluster.create d.toObject).1 t ∧
      ensuring.filter (·.name = d.name) = t.ensuring ∧
      reading.filter (·.name = d.name) = t.reading) ds ts
  /-- No other name is called. -/
  names : ∀ a ∈ ensuring ++ reading, ∃ d ∈ ds, a.name = d.name
  /-- The events are those of the traces. -/
  perm : es.Perm (ts.flatMap Trace.events)

/-- **The records tell of each entry**, between two moments. -/
def Traced (s : Stage) (ds : List Desired) (w w' : World) : Prop :=
  ∃ ts ensuring reading es, TracedAs s ds w w' ts ensuring reading es

/-! ## Calls interleaved -/

section Names

variable {ds : List Desired} {calls : Desired → List Action} {as : List Action}

/-- **What is recorded under a name** is of the entry that has it. -/
theorem Interleaves.filter_name (h : Interleaves (ds.map calls) as)
    (hcalls : ∀ d, ∀ a ∈ calls d, a.name = d.name) (hd : (ds.map (·.name)).Nodup) {d : Desired}
    (hmem : d ∈ ds) : as.filter (·.name = d.name) = calls d := by
  obtain ⟨i, hi⟩ := List.mem_iff_getElem?.mp hmem
  have hown : (calls d).filter (·.name = d.name) = calls d :=
    List.filter_eq_self.mpr fun a ha => decide_eq_true (hcalls d a ha)
  rw [← hown]
  refine h.filter_eq (by rw [List.getElem?_map, hi, Option.map_some]) fun k l hk hne a ha => ?_
  rw [List.getElem?_map] at hk
  obtain ⟨d', hk', rfl⟩ := Option.map_eq_some_iff.mp hk
  rw [decide_eq_false_iff_not, hcalls d' a ha]
  exact name_ne_of_getElem? hd hk' hi hne

/-- Only names of entries are recorded. -/
theorem Interleaves.exists_name (h : Interleaves (ds.map calls) as)
    (hcalls : ∀ d, ∀ a ∈ calls d, a.name = d.name) {a : Action} (ha : a ∈ as) :
    ∃ d ∈ ds, a.name = d.name := by
  rw [h.perm.mem_iff, ← List.flatMap_def, List.mem_flatMap] at ha
  obtain ⟨d, hd, ha⟩ := ha
  exact ⟨d, hd, hcalls d a ha⟩

end Names

/-! ## The records of jobs -/

/-- The calls that a job has made, on its way to its fate on the registry `c`. -/
def EnsureJob.calls (c : Cluster) : EnsureJob → List Action
  | .due (.look _) => []
  | .due (.make d) => [.get d.name]
  | .done (d, _) => (d.fate c).calls d

/-- The events that a job has told. -/
def EnsureJob.told (c : Cluster) : EnsureJob → List Event
  | .due _ => []
  | .done (d, _) => (d.fate c).events d

/-- **The records of jobs**, since the world `w`. -/
def Recorded (s : Stage) (w : World) (js : List EnsureJob) (w' : World) : Prop :=
  ∃ as es, w'.cluster.actions.toList = w.cluster.actions.toList ++ as ∧
    w'.events = s.told w.events es ∧
    Interleaves (js.map (EnsureJob.calls w.cluster)) as ∧
    Interleaves (js.map (EnsureJob.told w.cluster)) es

section Memory

variable {s : Stage} {w w' : World} {ds : List Desired} {js : List EnsureJob} {i : Nat}

/-- **A call** adds to the records what its job adds to what it has done. -/
theorem Recorded.set (h : Recorded s w js w') {t : Ensuring} (hi : js[i]? = some (.due t))
    {c : Cluster} {j : EnsureJob} {as : List Action} {es : List Event}
    (hc : c.actions.toList = w'.cluster.actions.toList ++ as)
    (hcalls : j.calls w.cluster = EnsureJob.calls w.cluster (.due t) ++ as)
    (htold : j.told w.cluster = es) : Recorded s w (js.set i j) (s.moved w' c es) := by
  obtain ⟨as', es', hactions, hevents, has, hes⟩ := h
  refine ⟨as' ++ as, es' ++ es, ?_, ?_, ?_, ?_⟩
  · rw [Stage.cluster_moved, hc, hactions, List.append_assoc]
  · rw [Stage.told_append, ← hevents]
    rfl
  · rw [List.map_set, hcalls]
    exact .more has (by rw [List.getElem?_map, hi, Option.map_some]) as
  · rw [List.map_set, htold]
    have htold : (js.map (EnsureJob.told w.cluster))[i]? = some [] := by
      rw [List.getElem?_map, hi]
      rfl
    exact .more hes htold es

theorem recorded_start : Recorded s w (ds.map fun d => .due (.look d)) w :=
  ⟨[], [], (List.append_nil _).symm, (Stage.told_nil _).symm,
    .nil (by simp [EnsureJob.calls]), .nil (by simp [EnsureJob.told])⟩

section Work

variable (hs : s.backend = .memory)

include hs

/-- **Any call of any job is recorded.** -/
theorem Recorded.work {t : Ensuring} (hi : js[i]? = some (.due t))
    (hapart : Apart w.cluster ds js w'.cluster) (h : Recorded s w js w') :
    let p := t.work s.assembled.registry s.assembled.recordEvent w'
    Recorded s w (js.set i p.1) p.2 := by
  have hfate : t.desired.fate w'.cluster = t.desired.fate w.cluster :=
    Desired.fate_congr (hapart.agreeOn hi)
  cases t with
  | look d =>
    rw [Ensuring.work, bind_apply, Desired.look_fate hs]
    dsimp only [Ensuring.desired] at hfate ⊢
    rw [hfate]
    cases hmissed : (d.fate w.cluster).missed with
    | true => exact h.set hi (Cluster.toList_actions_hear _) rfl rfl
    | false =>
      refine h.set hi (Cluster.toList_actions_hear _) ?_ rfl
      change (d.fate w.cluster).calls d = _
      rw [Fate.calls, hmissed]
      rfl
  | make d =>
    dsimp only [Ensuring.desired] at hfate
    have hmissed : (d.fate w.cluster).missed = true := (hapart.meeting i _ hi).1
    rw [Ensuring.work, bind_apply, Desired.make_fate hs d w' (hfate ▸ hmissed), hfate]
    refine h.set hi (Cluster.toList_actions_hear _) ?_ rfl
    change (d.fate w.cluster).calls d = _
    rw [Fate.calls, hmissed]
    rfl

/-- **Making sure in turns is recorded**: the calls and the events of all fates, interleaved. -/
theorem ensureInTurns_recorded (hc : w.cluster.Stateless) (hd : (ds.map (·.name)).Nodup)
    {schedule : List Nat} {ensured : List (Desired × Except StoreError Ensured)}
    (h : ensureInTurns s.assembled.registry s.assembled.recordEvent schedule ds w =
      (some ensured, w')) :
    Apart w.cluster ds (ensured.map .done) w'.cluster ∧
      ∃ as es, w'.cluster.actions.toList = w.cluster.actions.toList ++ as ∧
        w'.events = s.told w.events es ∧
        Interleaves (ds.map fun d => (d.fate w.cluster).calls d) as ∧
        Interleaves (ds.map fun d => (d.fate w.cluster).events d) es := by
  obtain ⟨hapart, as, es, hactions, hevents, has, hes⟩ :
      Apart w.cluster ds (ensured.map .done) w'.cluster ∧
        Recorded s w (ensured.map .done) w' := by
    have hall := ensureInTurns_induction _ _
      (P := fun js w' => Apart w.cluster ds js w'.cluster ∧ Recorded s w js w')
      (fun _ _ _ _ hi h => ⟨Apart.work hs hd hi h.1, Recorded.work hs hi h.1 h.2⟩)
      ⟨apart_start hc, recorded_start⟩ (congrArg Prod.fst h)
    rwa [h] at hall
  refine ⟨hapart, as, es, hactions, hevents, ?_, ?_⟩ <;> rw [← ensureInTurns_entries h]
  · rw [List.map_map] at has ⊢
    exact has
  · rw [List.map_map] at hes ⊢
    exact hes

/-- The call that a job has made to read back. -/
def FetchJob.calls : FetchJob → List Action
  | .due _ => []
  | .done (d, _) => [.get d.name]

/-- **Reading back in turns is recorded.** -/
theorem fetchInTurns_recorded {schedule : List Nat}
    {fetched : List (Desired × Except StoreError Health)}
    (h : fetchInTurns s.assembled.registry schedule ds w = (some fetched, w')) :
    w'.events = w.events ∧ ∃ as, w'.cluster.actions.toList = w.cluster.actions.toList ++ as ∧
      Interleaves (ds.map fun d => [.get d.name]) as := by
  have hentries := fetchInTurns_entries h
  have hall := fetchInTurns_induction s.assembled.registry
    (P := fun js w' => w'.events = w.events ∧
      ∃ as, w'.cluster.actions.toList = w.cluster.actions.toList ++ as ∧
        Interleaves (js.map FetchJob.calls) as)
    (fun js w' i d hi ⟨hevents, as, hactions, has⟩ => ?_)
    ⟨rfl, [], (List.append_nil _).symm, .nil (by simp [FetchJob.calls])⟩
    (congrArg Prod.fst h)
  · rw [h] at hall
    obtain ⟨hevents, as, hactions, has⟩ := hall
    refine ⟨hevents, as, hactions, ?_⟩
    rw [← hentries]
    rw [List.map_map] at has ⊢
    exact has
  · rw [fetchWork, bind_apply, Desired.fetch_memory hs]
    refine ⟨?_, as ++ [.get d.name], ?_, ?_⟩
    · rw [← hevents]
      exact Stage.told_nil _
    · change (w'.cluster.hear [.get d.name]).actions.toList = _
      rw [Cluster.toList_actions_hear, hactions, List.append_assoc]
    · have hcalls : (js.map FetchJob.calls)[i]? = some [] := by
        rw [List.getElem?_map, hi]
        rfl
      rw [List.map_set]
      exact .more has hcalls _

/-! ## The records of a pass -/

omit hs in
/-- Of an entry is recorded that its object was read back if it could be made sure of. -/
theorem filter_name_reading {c : Cluster} (hd : (ds.map (·.name)).Nodup) {reading : List Action}
    (h : Interleaves ((c.ready ds).map fun d => [.get d.name]) reading) {d : Desired}
    (hmem : d ∈ ds) : reading.filter (·.name = d.name) = (d.trace c).reading := by
  have hreads : ∀ d : Desired, ∀ a ∈ [Action.get d.name], a.name = d.name :=
    fun _ _ => Desired.name_of_mem_get
  rw [Desired.trace]
  dsimp only
  split
  · next hnone =>
    have hready : d ∈ c.ready ds := List.mem_filter.mpr ⟨hmem, hnone⟩
    exact h.filter_name hreads (hd.sublist (List.filter_sublist.map _)) hready
  · next hsome =>
    refine List.filter_eq_nil_iff.mpr fun a ha hname => hsome ?_
    obtain ⟨d', hready, hname'⟩ := h.exists_name hreads ha
    obtain ⟨hmem', hnone⟩ := List.mem_filter.mp hready
    have hsame : d'.name = d.name := hname'.symm.trans (of_decide_eq_true hname)
    rwa [← List.inj_on_of_nodup_map hd hmem' hmem hsame]

/-- **Work in turns is traced.** -/
theorem observeInTurns_traced (hc : w.cluster.Stateless) (hd : (ds.map (·.name)).Nodup)
    {first second : List Nat} {os : List Observation}
    (h : os ∈ (observeInTurns s.assembled.registry s.assembled.recordEvent first second ds w).1) :
    Traced s ds w
      (observeInTurns s.assembled.registry s.assembled.recordEvent first second ds w).2 := by
  obtain ⟨ensured, w₁, fetched, w₂, hfirst, hsecond, hrun⟩ := eq_of_mem_observeInTurns _ _ h
  obtain ⟨hapart, ensuring, told, hactions, hevents, hensuring, htold⟩ :=
    ensureInTurns_recorded hs hc hd hfirst
  rw [(hapart.eq hd).1, w.cluster.filterMap_ready?] at hsecond
  obtain ⟨hevents', reading, hactions', hreading⟩ := fetchInTurns_recorded hs hsecond
  have hensures : ∀ d : Desired, ∀ a ∈ (d.fate w.cluster).calls d, a.name = d.name :=
    fun _ _ => Desired.name_of_mem_calls
  have hreads : ∀ d : Desired, ∀ a ∈ [Action.get d.name], a.name = d.name :=
    fun _ _ => Desired.name_of_mem_get
  rw [hrun]
  refine ⟨ds.map (Desired.trace w.cluster), ensuring, reading, told, ?_, ?_, ?_, ?_, ?_⟩
  · rw [hactions', hactions, List.append_assoc]
  · rw [hevents', hevents]
  · rw [List.forall₂_map_right_iff, List.forall₂_same]
    intro d hmem
    exact ⟨d.traces w.cluster, hensuring.filter_name hensures hd hmem,
      filter_name_reading hd hreading hmem⟩
  · intro a ha
    rcases List.mem_append.mp ha with ha | ha
    · exact hensuring.exists_name hensures ha
    · obtain ⟨d, hready, hname⟩ := hreading.exists_name hreads ha
      exact ⟨d, List.mem_of_mem_filter hready, hname⟩
  · rw [List.flatMap_map]
    exact htold.perm

end Work

/-- The records tell the same between moments with the same records. -/
theorem Traced.congr {w₁ w₂ w' : World} (h : Traced s ds w₁ w₂)
    (hcluster : w₁.cluster = w.cluster) (hevents : w₁.events = w.events)
    (hcluster' : w'.cluster = w₂.cluster) (hevents' : w'.events = w₂.events) :
    Traced s ds w w' := by
  obtain ⟨ts, ensuring, reading, es, h⟩ := h
  refine ⟨ts, ensuring, reading, es, ?_, ?_, ?_, h.names, h.perm⟩
  · rw [hcluster', h.actions, hcluster]
  · rw [hevents', h.events, hevents]
  · rw [← hcluster]
    exact h.entries

/-- Writing a verdict is not recorded. -/
theorem report_records (hs : s.backend = .memory) (now : Time.Timestamp) (v : Verdict)
    (w : World) : (s.assembled.report now v w).2.cluster = w.cluster ∧
      (s.assembled.report now v w).2.events = w.events := by
  rw [Stage.report_memory hs]
  cases w.writeError? <;> exact ⟨rfl, rfl⟩

/-- **What a pass leaves in the records**, once it gets to work on entries of pairwise distinct
names, with reactors without memory: the traces of its entries, by what the registry before the pass
answers.  So it is when the work of the pass takes turns, under any schedule that comes to an end,
which is any with turns enough. -/
theorem sync_traced (hs : s.backend = .memory) {r : Reconciler (StateM World)}
    (hr : s.reconciler = .ok r) (hc : w.cluster.Stateless) (hd : (ds.map (·.name)).Nodup)
    {now : Time.Timestamp} {w₁ : World} (hw : r.Reaches now w (.work ds) w₁) :
    Traced s ds w (r.sync now w).2 ∧
    ∀ first second, let p := observeInTurns r.registry r.recordEvent first second ds w₁
      ((∀ i < ds.length, 2 ≤ first.count i ∧ 1 ≤ second.count i) → p.1.isSome) ∧
      ∀ os ∈ p.1, Traced s ds w p.2 := by
  obtain rfl := Stage.eq_assembled hr
  have hrests := (Stage.opening_rests s).work hw
  have hc₁ : w₁.cluster.Stateless := hrests.cluster ▸ hc
  refine ⟨?_, fun first second => ⟨fun hturns => ?_, fun os hos => ?_⟩⟩
  · obtain ⟨n, honeByOne⟩ :=
      observeInTurns_oneByOne s.assembled.registry s.assembled.recordEvent ds w₁
    have htraced : Traced s ds w₁ (s.assembled.observe ds w₁).2 := by
      have hturns := observeInTurns_traced hs hc₁ hd (congrArg Prod.fst honeByOne)
      rwa [honeByOne] at hturns
    obtain ⟨hcluster, hevents⟩ := report_records hs now
      (aggregate (s.assembled.observe ds w₁).1) (s.assembled.observe ds w₁).2
    rw [hw.sync_eq, Reconciler.rest, bind_apply]
    exact htraced.congr hrests.cluster hrests.events hcluster hevents
  · exact isSome_observeInTurns _ _ (fun i hi => (hturns i hi).1) (fun i hi => (hturns i hi).2) w₁
  · exact (observeInTurns_traced hs hc₁ hd hos).congr hrests.cluster hrests.events rfl rfl

end Memory

/-- What a pass over a troubled world leaves in the records. -/
theorem sync_traced_troubled :
    let r := Stage.complete.assembled
    Stage.complete.backend = .memory ∧ World.troubled.cluster.Stateless ∧
      (World.troubled.desired.map (·.name)).Nodup ∧
      ∃ w₁, r.Reaches (World.time 0) World.troubled (.work World.troubled.desired) w₁ ∧
        Traced Stage.complete World.troubled.desired World.troubled
          (r.sync (World.time 0) World.troubled).2 := by
  have hopening := World.unhindered_troubled.opening (s := Stage.complete) rfl
  obtain ⟨n, checked, stopping, -, hreaches⟩ := Stage.reaches_of_opening (World.time 0) hopening
  exact ⟨rfl, World.stateless_troubled, World.nodup_troubled, _, hreaches,
    (sync_traced rfl (Stage.reconciler_of_without rfl) World.stateless_troubled
      World.nodup_troubled hreaches).1⟩

end ApiAvailability
