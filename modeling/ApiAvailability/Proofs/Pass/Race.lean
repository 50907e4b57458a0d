import ApiAvailability.Proofs.Pass.Interleaved
import ApiAvailability.Proofs.Pass.Stocked
import Mathlib.Data.List.Nodup

/-!
# Proofs/Pass/Race — several making sure of the same object

Between looking for an object and making it others may have made it.  On a registry without
reactors that is the only thing that can come between, and it does no harm: whatever the schedule,
and whoever else desires the name, an object that was missing is made once.

The invariant is `Race`.  A name that was missing belongs to the job that created its object, if any
has (`Race.origin`, `Race.alone`), every other job of the name is on its way to finding it there
(`OnTrack`), and one event was told for each creator (`Race.told`).
-/

namespace ApiAvailability

open Rehearsal

/-- Jobs that make sure of objects. -/
abbrev EnsureJob := Job Ensuring (Desired × Except StoreError Ensured)

/-- Events of creation tell names apart. -/
theorem Event.created_eq_iff {d d' : Desired} :
    Event.created d = Event.created d' ↔ d.name = d'.name := by
  simp [Event.created]

/-! ## One call on a registry without reactors -/

namespace Desired

section Call

variable {s : Stage} (hs : s.backend = .memory) {w : World} (hr : w.cluster.reactors = [])

include hs hr

/-- **Looking for an object** tells whether it is there. -/
theorem look_of_reactors (d : Desired) :
    d.look s.assembled.registry s.assembled.recordEvent w =
      (if d.name ∈ w.cluster.objects then some (.ok .alreadyExisted) else none,
        s.moved w (w.cluster.hear [.get d.name]) []) := by
  rw [look_memory hs, Cluster.get_fst, Cluster.reaction_of_reactors hr, Option.getD_none]
  by_cases hmem : d.name ∈ w.cluster.objects
  · obtain ⟨o, ho⟩ := Cluster.exists_object hmem
    rw [ho, if_pos hmem]
    rfl
  · rw [Std.ExtTreeMap.getElem?_eq_none hmem, if_neg hmem]
    rfl

/-- **Making an object** that is there changes nothing. -/
theorem make_of_mem {d : Desired} (hmem : d.name ∈ w.cluster.objects) :
    d.make s.assembled.registry s.assembled.recordEvent w =
      (.ok .alreadyExisted, s.moved w (w.cluster.hear [.create d.toObject]) []) := by
  have hincluding : w.cluster.including d.toObject = w.cluster.objects := by
    simp [Cluster.including, Cluster.admits, hmem]
  rw [make_memory hs, Cluster.create_fst, Cluster.reaction_of_reactors hr, Option.getD_none,
    name_toObject, if_pos hmem, hincluding]
  simp [StoreError.isAlreadyExists]

/-- **Making an object** that is missing adds it and tells of it. -/
theorem make_of_not_mem {d : Desired} (hmem : d.name ∉ w.cluster.objects) :
    d.make s.assembled.registry s.assembled.recordEvent w =
      (.ok .created, s.moved w ((w.cluster.hear [.create d.toObject]).withObjects
        (w.cluster.objects.insert d.name d.toObject)) [.created d]) := by
  have hincluding :
      w.cluster.including d.toObject = w.cluster.objects.insert d.name d.toObject := by
    simp [Cluster.including, Cluster.admits, Cluster.reaction_of_reactors hr, hmem]
  rw [make_memory hs, Cluster.create_fst, Cluster.reaction_of_reactors hr, Option.getD_none,
    name_toObject, if_neg hmem, hincluding]

end Call

end Desired

/-! ## The race -/

/-- The desired API service of a job. -/
def EnsureJob.desired : EnsureJob → Desired
  | .due t => t.desired
  | .done (d, _) => d

/-- The job of a number has created the object of a desired service. -/
def Creates (js : List EnsureJob) (i : Nat) (d : Desired) : Prop :=
  js[i]? = some (.done (d, .ok .created))

/-- **Where a job stands**, with the objects `os` at the start and `os'` now: before making an
object it has found it missing, and in the end it has created the object or found one. -/
def OnTrack (os os' : Std.ExtTreeMap String ApiService compare) : EnsureJob → Prop
  | .due (.look _) => True
  | .due (.make d) => d.name ∉ os
  | .done (d, r) => (r = .ok .alreadyExisted ∧ d.name ∈ os') ∨
      (r = .ok .created ∧ d.name ∉ os ∧ os'[d.name]? = some d.toObject)

/-- **Jobs in a race** for the objects of desired services, with the objects `os` at the start, the
registry `c` now and the events `es` told meanwhile. -/
structure Race (os : Std.ExtTreeMap String ApiService compare) (ds : List Desired)
    (js : List EnsureJob) (c : Cluster) (es : List Event) : Prop where
  reactors : c.reactors = []
  entries : js.map EnsureJob.desired = ds
  onTrack : ∀ j ∈ js, OnTrack os c.objects j
  /-- Two creators have different names. -/
  alone : ∀ i k d d', Creates js i d → Creates js k d' → d.name = d'.name → i = k
  /-- An object is the one of the start, or missing at the start and then created. -/
  origin : ∀ name, c.objects[name]? = os[name]? ∨
    os[name]? = none ∧ ∃ i d, Creates js i d ∧ d.name = name
  told : es.Nodup ∧ ∀ e, e ∈ es ↔ ∃ i d, Creates js i d ∧ e = .created d

section Step

variable {os os' os'' : Std.ExtTreeMap String ApiService compare} {ds : List Desired}
  {js : List EnsureJob} {c c' : Cluster} {es : List Event} {i k : Nat} {d d' : Desired}
  {t : Ensuring} {j : EnsureJob}

theorem OnTrack.mono (h : OnTrack os os' j)
    (hgrow : ∀ (name : String) o, os'[name]? = some o → os''[name]? = some o) :
    OnTrack os os'' j := by
  rcases j with (d | d) | ⟨d, r⟩
  · trivial
  · exact h
  · obtain ⟨hr, hmem⟩ | ⟨hr, habsent, hobject⟩ := h
    · refine .inl ⟨hr, ?_⟩
      rw [Std.ExtTreeMap.mem_iff_isSome_getElem?, Option.isSome_iff_exists] at hmem ⊢
      exact hmem.imp fun o => hgrow _ o
    · exact .inr ⟨hr, habsent, hgrow _ _ hobject⟩

theorem creates_set (hi : js[i]? = some (.due t)) :
    Creates (js.set i j) k d ↔ k = i ∧ j = .done (d, .ok .created) ∨ Creates js k d := by
  unfold Creates
  rw [Job.getElem?_set_iff hi]
  by_cases hk : k = i
  · simp [hk, hi, eq_comm]
  · simp [hk]

namespace Race

/-- A name is missing now only if it was at the start. -/
theorem absent (h : Race os ds js c es) {name : String} (hname : name ∉ c.objects) :
    name ∉ os := by
  have hnow : c.objects[name]? = none := Std.ExtTreeMap.getElem?_eq_none hname
  have hstart : os[name]? = none := by
    obtain ho | ⟨ho, -⟩ := h.origin name
    · rw [← ho, hnow]
    · exact ho
  rw [Std.ExtTreeMap.mem_iff_isSome_getElem?, hstart]
  exact Bool.false_ne_true

/-- **A call that creates nothing** keeps the race, if its job stands where it should. -/
theorem quiet (h : Race os ds js c es) (hi : js[i]? = some (.due t))
    (hj : j.desired = t.desired) (hnot : ∀ d, j ≠ .done (d, .ok .created))
    (honTrack : OnTrack os c.objects j) (hreactors : c'.reactors = [])
    (hobjects : c'.objects = c.objects) : Race os ds (js.set i j) c' es := by
  have hcreates (k : Nat) (d : Desired) : Creates (js.set i j) k d ↔ Creates js k d := by
    rw [creates_set hi]
    exact or_iff_right fun hk => hnot d hk.2
  refine ⟨hreactors, (Job.map_set_of_eq hi hj).trans h.entries, ?_, ?_, ?_, ?_⟩
  · intro j' hj'
    rw [hobjects]
    obtain hj' | rfl := List.mem_or_eq_of_mem_set hj'
    · exact h.onTrack j' hj'
    · exact honTrack
  · simpa only [hcreates] using h.alone
  · simpa only [hcreates, hobjects] using h.origin
  · simpa only [hcreates] using h.told

/-- **A call that creates an object** keeps the race: no other job has created one of the name. -/
theorem create (h : Race os ds js c es) (hi : js[i]? = some (.due (.make d)))
    (hmem : d.name ∉ c.objects) (hreactors : c'.reactors = [])
    (hobjects : c'.objects = c.objects.insert d.name d.toObject) :
    Race os ds (js.set i (.done (d, .ok .created))) c' (es ++ [.created d]) := by
  have hcreates (k : Nat) (d' : Desired) :
      Creates (js.set i (.done (d, .ok .created))) k d' ↔ k = i ∧ d = d' ∨ Creates js k d' := by
    rw [creates_set hi]
    simp
  have hnone {k : Nat} {d' : Desired} (hk : Creates js k d') : d'.name ≠ d.name := by
    intro hname
    obtain ⟨hr, -⟩ | ⟨-, -, hobject⟩ := h.onTrack _ (List.mem_of_getElem? hk)
    · contradiction
    · rw [hname, Std.ExtTreeMap.getElem?_eq_none hmem] at hobject
      contradiction
  have hgrow : ∀ (name : String) o, c.objects[name]? = some o → c'.objects[name]? = some o := by
    intro name o ho
    have hne : d.name ≠ name := by
      rintro rfl
      rw [Std.ExtTreeMap.getElem?_eq_none hmem] at ho
      contradiction
    rw [hobjects, Std.ExtTreeMap.getElem?_insert, if_neg (by simpa using hne), ho]
  have hself : c'.objects[d.name]? = some d.toObject := by
    rw [hobjects, Std.ExtTreeMap.getElem?_insert_self]
  have hentries : (js.set i (.done (d, .ok .created))).map EnsureJob.desired = ds := by
    rw [← h.entries]
    exact Job.map_set_of_eq hi rfl
  refine ⟨hreactors, hentries, ?_, ?_, ?_, ?_, ?_⟩
  · intro j hj
    obtain hj | rfl := List.mem_or_eq_of_mem_set hj
    · exact (h.onTrack j hj).mono hgrow
    · exact .inr ⟨rfl, h.absent hmem, hself⟩
  · intro k k' d₁ d₂ h₁ h₂ hname
    rcases (hcreates k d₁).mp h₁ with ⟨hk, rfl⟩ | hold <;>
      rcases (hcreates k' d₂).mp h₂ with ⟨hk', hd⟩ | hold'
    · rw [hk, hk']
    · exact absurd hname.symm (hnone hold')
    · exact absurd (hd ▸ hname) (hnone hold)
    · exact h.alone k k' d₁ d₂ hold hold' hname
  · intro name
    by_cases hname : d.name = name
    · subst hname
      have hstart : os[d.name]? = none := Std.ExtTreeMap.getElem?_eq_none (h.absent hmem)
      exact .inr ⟨hstart, i, d, (hcreates i d).mpr (.inl ⟨rfl, rfl⟩), rfl⟩
    · rw [hobjects, Std.ExtTreeMap.getElem?_insert, if_neg (by simpa using hname)]
      refine (h.origin name).imp_right fun ⟨hstart, k, d', hk, hd'⟩ => ?_
      exact ⟨hstart, k, d', (hcreates k d').mpr (.inr hk), hd'⟩
  · refine List.nodup_append.mpr ⟨h.told.1, List.pairwise_singleton _ _, ?_⟩
    rintro e he e' he' rfl
    obtain ⟨k, d', hk, rfl⟩ := (h.told.2 e).mp he
    exact hnone hk (Event.created_eq_iff.mp (List.mem_singleton.mp he'))
  · intro e
    simp only [List.mem_append, List.mem_singleton, h.told.2, hcreates]
    constructor
    · rintro (⟨k, d', hk, rfl⟩ | rfl)
      · exact ⟨k, d', .inr hk, rfl⟩
      · exact ⟨i, d, .inl ⟨rfl, rfl⟩, rfl⟩
    · rintro ⟨k, d', ⟨-, rfl⟩ | hk, rfl⟩
      · exact .inr rfl
      · exact .inl ⟨k, d', hk, rfl⟩

end Race

end Step

/-- **A world in the course of a race** that began in the world `w`. -/
def Racing (s : Stage) (ds : List Desired) (w : World) (js : List EnsureJob) (w' : World) : Prop :=
  ∃ c es, w' = s.moved w c es ∧ Race w.cluster.objects ds js c es

section Memory

variable {s : Stage} (hs : s.backend = .memory) {w : World} {ds : List Desired}

include hs

/-- **Any call of any job keeps the race.** -/
theorem Racing.work {js : List EnsureJob} {w' : World} {i : Nat} {t : Ensuring}
    (h : Racing s ds w js w') (hi : js[i]? = some (.due t)) :
    let p := t.work s.assembled.registry s.assembled.recordEvent w'
    Racing s ds w (js.set i p.1) p.2 := by
  obtain ⟨c, es, rfl, h⟩ := h
  have hr : (s.moved w c es).cluster.reactors = [] := h.reactors
  have hr' (a : Action) : (c.hear [a]).reactors = [] := Cluster.reactors_hear h.reactors [a]
  have hfound (d d' : Desired) :
      (.done (d, .ok .alreadyExisted) : EnsureJob) ≠ .done (d', .ok .created) := by simp
  have hmissed (d d' : Desired) : (.due (.make d) : EnsureJob) ≠ .done (d', .ok .created) := by simp
  cases t with
  | look d =>
    refine ⟨c.hear [.get d.name], es, ?_⟩
    rw [Ensuring.work, bind_apply, Desired.look_of_reactors hs hr, Stage.moved_moved,
      List.append_nil, Stage.cluster_moved]
    by_cases hmem : d.name ∈ c.objects
    · rw [if_pos hmem]
      exact ⟨rfl, h.quiet hi rfl (hfound d) (.inl ⟨rfl, hmem⟩) (hr' _) (Cluster.objects_hear _)⟩
    · rw [if_neg hmem]
      exact ⟨rfl, h.quiet hi rfl (hmissed d) (h.absent hmem) (hr' _) (Cluster.objects_hear _)⟩
  | make d =>
    by_cases hmem : d.name ∈ c.objects
    · refine ⟨c.hear [.create d.toObject], es, ?_⟩
      rw [Ensuring.work, bind_apply, Desired.make_of_mem hs hr hmem, Stage.moved_moved,
        List.append_nil]
      exact ⟨rfl, h.quiet hi rfl (hfound d) (.inl ⟨rfl, hmem⟩) (hr' _) (Cluster.objects_hear _)⟩
    · refine ⟨(c.hear [.create d.toObject]).withObjects (c.objects.insert d.name d.toObject),
        es ++ [.created d], ?_⟩
      rw [Ensuring.work, bind_apply, Desired.make_of_not_mem hs hr hmem, Stage.moved_moved]
      exact ⟨rfl, h.create hi hmem (hr' _) rfl⟩

omit hs in
theorem racing_start (hr : w.cluster.reactors = []) :
    Racing s ds w (ds.map fun d => .due (.look d)) w := by
  have hnone (k : Nat) (d : Desired) : ¬ Creates (ds.map fun d => .due (.look d)) k d := by
    simp [Creates]
  refine ⟨w.cluster, [], by simp [Stage.moved], hr, ?_, ?_, ?_, fun _ => .inl rfl, ?_⟩
  · rw [List.map_map]
    exact List.map_id ds
  · intro j hj
    obtain ⟨d, -, rfl⟩ := List.mem_map.mp hj
    trivial
  · exact fun i k d d' hi => absurd hi (hnone i d)
  · simp [hnone]

end Memory

/-! ## The end of the race -/

/-- **Every missing object was made once**: how it went for each entry, from a world `w` to a world
`w'`. -/
structure EnsuredOnce (s : Stage) (ds : List Desired) (w : World)
    (results : List (Desired × Except StoreError Ensured)) (w' : World) : Prop where
  entries : results.map (·.1) = ds
  /-- No entry fails. -/
  returned : ∀ p ∈ results, ∃ how, p.2 = .ok how
  /-- An object that was there is left as it is, and every entry of its name finds it. -/
  found : ∀ name ∈ w.cluster.objects,
    w'.cluster.objects[name]? = w.cluster.objects[name]? ∧
      ∀ p ∈ results, p.1.name = name → p.2 = .ok .alreadyExisted
  /-- An object that was missing and is desired is created by one entry, whose object it is, and
  every other entry of its name finds it. -/
  made : ∀ name ∉ w.cluster.objects, (∃ d ∈ ds, d.name = name) →
    ∃ (i : Nat) (d : Desired), results[i]? = some (d, .ok .created) ∧ d.name = name ∧
      w'.cluster.objects[name]? = some d.toObject ∧
      ∀ (k : Nat) p, k ≠ i → results[k]? = some p → p.1.name = name → p.2 = .ok .alreadyExisted
  /-- Other names are left alone. -/
  untouched : ∀ name, (∀ d ∈ ds, d.name ≠ name) →
    w'.cluster.objects[name]? = w.cluster.objects[name]?
  /-- One event is told for every object that is created, and no others. -/
  told : ∃ es, w'.events = s.told w.events es ∧
    (∀ d ∈ ds, d.name ∉ w.cluster.objects → es.count (.created d) = 1) ∧
    ∀ e ∈ es, ∃ d ∈ ds, d.name ∉ w.cluster.objects ∧ e = .created d

section End

variable {os : Std.ExtTreeMap String ApiService compare} {ds : List Desired} {c : Cluster}
  {es : List Event} {results : List (Desired × Except StoreError Ensured)}

theorem creates_map_done {i : Nat} {d : Desired} :
    Creates (results.map .done) i d ↔ results[i]? = some (d, .ok .created) := by
  simp [Creates]

namespace Race

theorem onTrack_of_mem (h : Race os ds (results.map .done) c es) {d : Desired}
    {r : Except StoreError Ensured} (hd : (d, r) ∈ results) :
    (r = .ok .alreadyExisted ∧ d.name ∈ c.objects) ∨
      (r = .ok .created ∧ d.name ∉ os ∧ c.objects[d.name]? = some d.toObject) :=
  h.onTrack _ (List.mem_map_of_mem hd)

theorem map_fst (h : Race os ds (results.map .done) c es) : results.map (·.1) = ds := by
  rw [← h.entries, List.map_map]
  rfl

/-- **A missing object that is desired has a creator**, once all jobs are done. -/
theorem exists_creates (h : Race os ds (results.map .done) c es) {d : Desired} (hd : d ∈ ds)
    (hmem : d.name ∉ os) : ∃ i d', Creates (results.map .done) i d' ∧ d'.name = d.name := by
  rw [← h.map_fst] at hd
  obtain ⟨⟨d, r⟩, hp, rfl⟩ := List.mem_map.mp hd
  have hnow : d.name ∈ c.objects := by
    obtain ⟨-, hnow⟩ | ⟨-, -, hobject⟩ := h.onTrack_of_mem hp
    · exact hnow
    · rw [Std.ExtTreeMap.mem_iff_isSome_getElem?, hobject]
      rfl
  obtain hsame | ⟨-, hcreates⟩ := h.origin d.name
  · rw [Std.ExtTreeMap.mem_iff_isSome_getElem?, hsame,
      ← Std.ExtTreeMap.mem_iff_isSome_getElem?] at hnow
    exact absurd hnow hmem
  · exact hcreates

theorem mem_of_creates (h : Race os ds (results.map .done) c es) {i : Nat} {d : Desired}
    (hi : Creates (results.map .done) i d) :
    d ∈ ds ∧ d.name ∉ os ∧ c.objects[d.name]? = some d.toObject := by
  have hp := List.mem_of_getElem? (creates_map_done.mp hi)
  refine ⟨h.map_fst ▸ List.mem_map_of_mem (f := (·.1)) hp, ?_⟩
  obtain ⟨hr, -⟩ | ⟨-, hmade⟩ := h.onTrack_of_mem hp
  · contradiction
  · exact hmade

/-- **A race that is over** has made every missing object once. -/
theorem ensuredOnce {s : Stage} {w : World}
    (h : Race w.cluster.objects ds (results.map .done) c es) :
    EnsuredOnce s ds w results (s.moved w c es) where
  entries := h.map_fst
  returned := by
    rintro ⟨d, r⟩ hp
    obtain ⟨hr, -⟩ | ⟨hr, -⟩ := h.onTrack_of_mem hp
    · exact ⟨_, hr⟩
    · exact ⟨_, hr⟩
  found name hname := by
    refine ⟨?_, ?_⟩
    · obtain hsame | ⟨hstart, -⟩ := h.origin name
      · exact hsame
      · rw [Std.ExtTreeMap.mem_iff_isSome_getElem?, hstart] at hname
        contradiction
    · rintro ⟨d, r⟩ hp rfl
      obtain ⟨hr, -⟩ | ⟨-, habsent, -⟩ := h.onTrack_of_mem hp
      · exact hr
      · exact absurd hname habsent
  made := by
    rintro name hname ⟨d₀, hd₀, rfl⟩
    obtain ⟨i, d, hi, hd⟩ := h.exists_creates hd₀ hname
    obtain ⟨-, -, hobject⟩ := h.mem_of_creates hi
    refine ⟨i, d, creates_map_done.mp hi, hd, hd ▸ hobject, ?_⟩
    rintro k ⟨d', r⟩ hk hp hname'
    obtain ⟨hr, -⟩ | ⟨rfl, -⟩ := h.onTrack_of_mem (List.mem_of_getElem? hp)
    · exact hr
    · exact absurd (h.alone k i d' d (creates_map_done.mpr hp) hi (hname'.trans hd.symm)) hk
  untouched name hname := by
    obtain hsame | ⟨-, i, d, hi, hd⟩ := h.origin name
    · exact hsame
    · exact absurd hd (hname d (h.mem_of_creates hi).1)
  told := by
    refine ⟨es, rfl, fun d hd hmem => ?_, fun e he => ?_⟩
    · obtain ⟨i, d', hi, hname⟩ := h.exists_creates hd hmem
      refine List.count_eq_one_of_mem h.told.1 ((h.told.2 _).mpr ⟨i, d', hi, ?_⟩)
      exact Event.created_eq_iff.mpr hname.symm
    · obtain ⟨i, d, hi, rfl⟩ := (h.told.2 e).mp he
      obtain ⟨hd, hmem, -⟩ := h.mem_of_creates hi
      exact ⟨d, hd, hmem, rfl⟩

end Race

end End

variable {s : Stage} {w : World}

/-- **Every missing object is made once, under any interleaving**: whatever the schedule and however
often a name is desired, two turns for each entry bring all of them to an end, and in the end no
entry has failed and no object was made twice. -/
theorem ensureInTurns_ensuredOnce (hs : s.backend = .memory) (hr : w.cluster.reactors = [])
    (ds : List Desired) (schedule : List Nat) :
    let p := ensureInTurns s.assembled.registry s.assembled.recordEvent schedule ds w
    ((∀ i < ds.length, 2 ≤ schedule.count i) → p.1.isSome) ∧
      ∀ results ∈ p.1, EnsuredOnce s ds w results p.2 := by
  intro p
  refine ⟨fun h => isSome_ensureInTurns _ _ h w, fun results hresults => ?_⟩
  obtain ⟨c, es, hend, hrace⟩ := ensureInTurns_induction _ _
    (fun _ _ _ _ hi h => Racing.work hs h hi) (racing_start hr) hresults
  have hp : p.2 = s.moved w c es := hend
  rw [hp]
  exact hrace.ensuredOnce

/-- Two entries of one name look before either of them makes the object. -/
theorem ensureInTurns_doubled :
    let p := ensureInTurns Stage.complete.assembled.registry Stage.complete.assembled.recordEvent
      [0, 2, 1, 2, 0] World.doubled.desired World.doubled
    Stage.complete.backend = .memory ∧ World.doubled.cluster.reactors = [] ∧
      ∃ results ∈ p.1, EnsuredOnce Stage.complete World.doubled.desired World.doubled results p.2 ∧
        results.map (·.2) = [.ok .alreadyExisted, .ok .alreadyExisted, .ok .created] := by
  have h := ensureInTurns_ensuredOnce (s := Stage.complete) (w := World.doubled) rfl rfl
    World.doubled.desired [0, 2, 1, 2, 0]
  refine ⟨rfl, rfl, _, rfl, h.2 _ rfl, ?_⟩
  rfl

end ApiAvailability
