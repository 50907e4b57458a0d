import ApiAvailability.Proofs.Pass.Interleaved
import ApiAvailability.Proofs.Pass.Race
import ApiAvailability.Proofs.Pass.Verdict

/-!
# Proofs/Pass/Independence — what is learnt of a service is its own affair

Over pairwise distinct names no call of one entry bears on another: a reactor without memory says
the same whenever it is asked, and a call changes no object but the one of its name.  So however the
work takes turns, each entry meets its fate on the registry before (`Apart`), and

* `observeInTurns_memory` — the observations are those of the pass that takes entry by entry;
* `outcome_eq` — the outcome of an entry depends on the object of its name and on what the
  reactors say to its own two calls.
-/

namespace ApiAvailability

open Rehearsal

/-! ## One call, told by the fate of its entry -/

namespace Desired

variable {c c' : Cluster} {d : Desired}

section Call

variable {s : Stage} (hs : s.backend = .memory) (d : Desired) (w : World)

include hs

/-- **Looking for an object** decides its fate, unless it is missing. -/
theorem look_fate : d.look s.assembled.registry s.assembled.recordEvent w =
    let f := d.fate w.cluster
    (if f.missed then none else some f.result,
      s.moved w (w.cluster.hear [.get d.name]) (if f.missed then [] else f.events d)) := by
  rw [look_memory hs, fate]
  rcases (w.cluster.get d.name).1 with e | o
  · by_cases he : e.isNotFound = true
    · rcases (w.cluster.create d.toObject).1 with e' | o
      · by_cases he' : e'.isAlreadyExists = true <;> simp [he, he', Fate.missed]
      · simp [he, Fate.missed]
    · simp [he, Fate.missed, Fate.result, Fate.events]
  · rfl

/-- **Making an object** that was missing decides its fate. -/
theorem make_fate (h : (d.fate w.cluster).missed = true) :
    d.make s.assembled.registry s.assembled.recordEvent w =
      ((d.fate w.cluster).result,
        s.moved w ((w.cluster.hear [.create d.toObject]).withObjects (d.objectsAfter w.cluster))
          ((d.fate w.cluster).events d)) := by
  have hafter : d.objectsAfter w.cluster = w.cluster.including d.toObject := by
    rw [objectsAfter, isAdded, h, Bool.true_and]
    rfl
  rw [make_memory hs, hafter]
  revert h
  rw [fate]
  rcases (w.cluster.get d.name).1 with e | o
  · by_cases he : e.isNotFound = true
    · rcases (w.cluster.create d.toObject).1 with e' | o
      · by_cases he' : e'.isAlreadyExists = true <;> simp [he, he', Fate.result, Fate.events]
      · simp [he, Fate.result, Fate.events]
    · simp [he, Fate.missed]
  · simp [Fate.missed]

end Call

/-- The object of a name after it was made sure of, on registries that agree on the name. -/
theorem objectsAfter_congr (h : Cluster.AgreeOn d.name c c') :
    (d.objectsAfter c)[d.name]? = (d.objectsAfter c')[d.name]? := by
  unfold objectsAfter
  rw [isAdded_congr h]
  split
  · rw [Std.ExtTreeMap.getElem?_insert_self, Std.ExtTreeMap.getElem?_insert_self]
  · exact h.object

end Desired

/-! ## Entries kept apart -/

/-- **Where a job stands**, with the objects `os` now: its object is untouched until it is done, and
then it has met its fate on the registry `c` at the start. -/
def Meeting (c : Cluster) (os : Std.ExtTreeMap String ApiService compare) : EnsureJob → Prop
  | .due (.look d) => os[d.name]? = c.objects[d.name]?
  | .due (.make d) => (d.fate c).missed = true ∧ os[d.name]? = c.objects[d.name]?
  | .done (d, r) => r = (d.fate c).result ∧ os[d.name]? = (d.objectsAfter c)[d.name]?

/-- **Jobs that are kept apart** by their names, with the registry `c` at the start and `c'` now. -/
structure Apart (c : Cluster) (ds : List Desired) (js : List EnsureJob) (c' : Cluster) : Prop where
  stateless : c'.Stateless
  reaction : c'.reaction = c.reaction
  entries : js.map EnsureJob.desired = ds
  meeting : ∀ (k : Nat) j, js[k]? = some j → Meeting c c'.objects j
  others : ∀ name, (∀ d ∈ ds, d.name ≠ name) → c'.objects[name]? = c.objects[name]?

/-- Results that all come of their entries are known by the entries. -/
theorem eq_map_of_forall {α β : Type} {f : α → β} {ps : List (α × β)}
    (h : ∀ p ∈ ps, p.2 = f p.1) : ps = (ps.map (·.1)).map fun a => (a, f a) := by
  rw [List.map_map]
  refine (List.map_id ps).symm.trans (List.map_congr_left fun p hp => ?_)
  exact Prod.ext rfl (h p hp)

section Jobs

variable {c c' : Cluster} {ds : List Desired} {js : List EnsureJob} {i : Nat} {t : Ensuring}
  {j : EnsureJob} {os : Std.ExtTreeMap String ApiService compare}

theorem Meeting.congr {os' : Std.ExtTreeMap String ApiService compare} (h : Meeting c os j)
    (hsame : os'[j.desired.name]? = os[j.desired.name]?) : Meeting c os' j := by
  rcases j with (d | d) | ⟨d, r⟩
  · exact hsame.trans h
  · exact ⟨h.1, hsame.trans h.2⟩
  · exact ⟨h.1, hsame.trans h.2⟩

theorem mem_of_due (hentries : js.map EnsureJob.desired = ds) (hi : js[i]? = some (.due t)) :
    t.desired ∈ ds :=
  hentries ▸ List.mem_map_of_mem (f := EnsureJob.desired) (List.mem_of_getElem? hi)

/-- Entries in different places have different names. -/
theorem name_ne_of_getElem? (hd : (ds.map (·.name)).Nodup) {k : Nat} {d d' : Desired}
    (hi : ds[i]? = some d) (hk : ds[k]? = some d') (hne : i ≠ k) : d.name ≠ d'.name := by
  have hname {k : Nat} {d : Desired} (hk : ds[k]? = some d) :
      (ds.map (·.name))[k]? = some d.name := by
    rw [List.getElem?_map, hk, Option.map_some]
  intro he
  have hlt : i < (ds.map (·.name)).length := (List.getElem?_eq_some_iff.mp (hname hi)).1
  exact hne ((List.getElem?_inj hlt hd).mp ((hname hi).trans (he ▸ (hname hk).symm)))

/-- Jobs of different numbers have different names. -/
theorem name_ne_of_ne (hd : (ds.map (·.name)).Nodup) (hentries : js.map EnsureJob.desired = ds)
    {k : Nat} {j' : EnsureJob} (hi : js[i]? = some j) (hk : js[k]? = some j') (hne : i ≠ k) :
    j.desired.name ≠ j'.desired.name := by
  have hdesired {k : Nat} {j : EnsureJob} (hk : js[k]? = some j) : ds[k]? = some j.desired := by
    rw [← hentries, List.getElem?_map, hk, Option.map_some]
  exact name_ne_of_getElem? hd (hdesired hi) (hdesired hk) hne

/-- The registry now agrees with the one at the start on the name of a job that is not done. -/
theorem Apart.agreeOn (h : Apart c ds js c') (hi : js[i]? = some (.due t)) :
    Cluster.AgreeOn t.desired.name c' c := by
  refine ⟨h.reaction, ?_⟩
  have hmeeting := h.meeting i _ hi
  cases t with
  | look d => exact hmeeting
  | make d => exact hmeeting.2

/-- **A call** keeps jobs apart if it changes no object of another name and its job stands where it
should. -/
theorem Apart.set (hd : (ds.map (·.name)).Nodup) (h : Apart c ds js c')
    (hi : js[i]? = some (.due t)) (hj : j.desired = t.desired) (as : List Action)
    (hothers : ∀ name, t.desired.name ≠ name → os[name]? = c'.objects[name]?)
    (hmeeting : Meeting c os j) : Apart c ds (js.set i j) ((c'.hear as).withObjects os) := by
  refine ⟨(h.stateless.hear as).withObjects os, (h.stateless.reaction_hear as).trans h.reaction,
    (Job.map_set_of_eq hi hj).trans h.entries, ?_, ?_⟩
  · intro k j' hk
    obtain ⟨-, rfl⟩ | ⟨hne, hk⟩ := (Job.getElem?_set_iff hi).mp hk
    · exact hmeeting
    · exact (h.meeting k j' hk).congr (hothers _ (name_ne_of_ne hd h.entries hi hk hne.symm))
  · intro name hname
    exact (hothers name (hname _ (mem_of_due h.entries hi))).trans (h.others name hname)

end Jobs

section Memory

variable {s : Stage} (hs : s.backend = .memory) {w : World} {ds : List Desired}

include hs

/-- **Any call of any job keeps all jobs apart.** -/
theorem Apart.work (hd : (ds.map (·.name)).Nodup) {c : Cluster} {js : List EnsureJob} {i : Nat}
    {t : Ensuring} (hi : js[i]? = some (.due t)) (h : Apart c ds js w.cluster) :
    let p := t.work s.assembled.registry s.assembled.recordEvent w
    Apart c ds (js.set i p.1) p.2.cluster := by
  cases t with
  | look d =>
    have hagree : Cluster.AgreeOn d.name w.cluster c := h.agreeOn hi
    have hquiet (j : EnsureJob) (hj : j.desired = d) (hmeeting : Meeting c w.cluster.objects j) :
        Apart c ds (js.set i j) (w.cluster.hear [.get d.name]) := by
      have hset := h.set hd hi hj [.get d.name] (fun _ _ => rfl) hmeeting
      rwa [Cluster.withObjects_hear] at hset
    rw [Ensuring.work, bind_apply, Desired.look_fate hs]
    dsimp only
    rw [Desired.fate_congr hagree]
    cases hmissed : (d.fate c).missed with
    | true => exact hquiet (.due (.make d)) rfl ⟨hmissed, hagree.object⟩
    | false =>
      have hkept : d.objectsAfter c = c.objects := by
        rw [Desired.objectsAfter, Desired.isAdded, hmissed, Bool.false_and,
          if_neg Bool.false_ne_true]
      refine hquiet (.done (d, (d.fate c).result)) rfl ⟨rfl, ?_⟩
      rw [hkept]
      exact hagree.object
  | make d =>
    have hagree : Cluster.AgreeOn d.name w.cluster c := h.agreeOn hi
    have hfate := Desired.fate_congr hagree
    have hmissed : (d.fate w.cluster).missed = true := by
      rw [hfate]
      exact (h.meeting i _ hi).1
    rw [Ensuring.work, bind_apply, Desired.make_fate hs d w hmissed]
    refine h.set hd hi rfl _ (fun name hname => getElem?_insert_ite_of_ne hname) ?_
    exact ⟨congrArg Fate.result hfate, Desired.objectsAfter_congr hagree⟩

omit hs in
theorem apart_start (hc : w.cluster.Stateless) :
    Apart w.cluster ds (ds.map fun d => .due (.look d)) w.cluster := by
  refine ⟨hc, rfl, ?_, ?_, fun _ _ => rfl⟩
  · rw [List.map_map]
    exact List.map_id ds
  · intro k j hk
    rw [List.getElem?_map] at hk
    obtain ⟨d, -, rfl⟩ := Option.map_eq_some_iff.mp hk
    rfl

omit hs in
/-- **Jobs kept apart come to what they come to one after the other**: each has met its fate. -/
theorem Apart.eq {c c' : Cluster} {results : List (Desired × Except StoreError Ensured)}
    (hd : (ds.map (·.name)).Nodup) (h : Apart c ds (results.map .done) c') :
    results = ds.map (fun d => (d, (d.fate c).result)) ∧ c'.objects = c.filled ds := by
  have hds : ds = results.map (·.1) := by
    rw [← h.entries, List.map_map]
    rfl
  have hmeeting : ∀ p ∈ results, Meeting c c'.objects (.done p) := by
    intro p hp
    obtain ⟨k, hk⟩ := List.mem_iff_getElem?.mp hp
    refine h.meeting k _ ?_
    rw [List.getElem?_map, hk]
    rfl
  constructor
  · rw [hds]
    exact eq_map_of_forall fun p hp => (hmeeting p hp).1
  · ext1 name
    by_cases hname : ∃ d ∈ ds, d.name = name
    · obtain ⟨d, hmem, rfl⟩ := hname
      have hfill : (c.filled ds)[d.name]? = (d.objectsAfter c)[d.name]? := by
        rw [Cluster.filled, getElem?_fill_of_mem hd hmem, Desired.objectsAfter]
        split
        · rw [Std.ExtTreeMap.getElem?_insert_self]
        · rfl
      obtain ⟨p, hp, rfl⟩ := List.mem_map.mp (hds ▸ hmem)
      rw [hfill]
      exact (hmeeting p hp).2
    · have hne : ∀ d ∈ ds, d.name ≠ name := fun d hmem he => hname ⟨d, hmem, he⟩
      rw [Cluster.filled, getElem?_fill_of_forall_ne hne]
      exact h.others name hne

end Memory

/-! ## Reading back in turns -/

/-- Jobs that read objects back. -/
abbrev FetchJob := Job Desired (Desired × Except StoreError Health)

/-- The desired API service of a job. -/
def FetchJob.desired : FetchJob → Desired
  | .due d | .done (d, _) => d

section Entries

variable {σ : Type} {registry : Registry (StateM σ)} {record : Event → StateM σ Unit}
  {schedule : List Nat} {ds : List Desired} {w w' : σ}

theorem EnsureJob.desired_work (t : Ensuring) (w : σ) :
    EnsureJob.desired (t.work registry record w).1 = t.desired := by
  cases t with
  | look d =>
    rw [Ensuring.work, bind_apply]
    cases (d.look registry record w).1 <;> rfl
  | make d => rfl

/-- Each entry has been made sure of, or it has failed. -/
theorem ensureInTurns_entries {ensured : List (Desired × Except StoreError Ensured)}
    (h : ensureInTurns registry record schedule ds w = (some ensured, w')) :
    ensured.map (·.1) = ds := by
  rw [ensureInTurns_apply] at h
  have hentries := Job.map_takeTurns (Ensuring.work registry record) (f := EnsureJob.desired)
    EnsureJob.desired_work schedule (ds.map fun d => .due (.look d)) w
  rw [Job.eq_map_done (Prod.mk.inj h).1, List.map_map, List.map_map] at hentries
  exact hentries.trans (List.map_id ds)

/-- Each object has been read back, or reading it has failed. -/
theorem fetchInTurns_entries {fetched : List (Desired × Except StoreError Health)}
    (h : fetchInTurns registry schedule ds w = (some fetched, w')) : fetched.map (·.1) = ds := by
  rw [fetchInTurns_apply] at h
  have hentries := Job.map_takeTurns (fetchWork registry) (f := FetchJob.desired)
    (fun _ _ => rfl) schedule (ds.map .due) w
  rw [Job.eq_map_done (Prod.mk.inj h).1, List.map_map, List.map_map] at hentries
  exact hentries.trans (List.map_id ds)

end Entries

/-- **What a job has read** is what the registry `c` answers. -/
def HasRead (c : Cluster) : FetchJob → Prop
  | .due _ => True
  | .done (d, r) => r = (c.get d.name).1.map .ofObject

/-- **Jobs that read back** from a registry that answers as `c` does. -/
structure Reading (c : Cluster) (ds : List Desired) (js : List FetchJob) (c' : Cluster) : Prop where
  stateless : c'.Stateless
  reaction : c'.reaction = c.reaction
  objects : c'.objects = c.objects
  entries : js.map FetchJob.desired = ds
  hasRead : ∀ j ∈ js, HasRead c j

section Memory

variable {s : Stage} (hs : s.backend = .memory) {w : World} {ds : List Desired} {c : Cluster}

theorem Reading.work (hs : s.backend = .memory) {js : List FetchJob} {i : Nat} {d : Desired}
    (hi : js[i]? = some (.due d)) (h : Reading c ds js w.cluster) :
    let p := fetchWork s.assembled.registry d w
    Reading c ds (js.set i p.1) p.2.cluster := by
  have hget : (w.cluster.get d.name).1 = (c.get d.name).1 :=
    Cluster.get_congr ⟨h.reaction, congrArg (·[d.name]?) h.objects⟩
  rw [fetchWork, bind_apply, Desired.fetch_memory hs, hget]
  refine ⟨h.stateless.hear _, (h.stateless.reaction_hear _).trans h.reaction,
    (Cluster.objects_hear _).trans h.objects, ?_, fun j hj => ?_⟩
  · rw [← h.entries]
    exact Job.map_set_of_eq hi rfl
  obtain hj | rfl := List.mem_or_eq_of_mem_set hj
  · exact h.hasRead j hj
  · rfl

theorem reading_start (hc : w.cluster.Stateless) (hreaction : w.cluster.reaction = c.reaction)
    (hobjects : w.cluster.objects = c.objects) : Reading c ds (ds.map .due) w.cluster := by
  refine ⟨hc, hreaction, hobjects, ?_, fun j hj => ?_⟩
  · rw [List.map_map]
    exact List.map_id ds
  · obtain ⟨d, -, rfl⟩ := List.mem_map.mp hj
    trivial

theorem Reading.eq {c' : Cluster} {results : List (Desired × Except StoreError Health)}
    (h : Reading c ds (results.map .done) c') :
    results = ds.map fun d => (d, (c.get d.name).1.map .ofObject) := by
  have hds : ds = results.map (·.1) := by
    rw [← h.entries, List.map_map]
    rfl
  rw [hds]
  exact eq_map_of_forall fun p hp => h.hasRead _ (List.mem_map_of_mem hp)

/-! ## The observations -/

/-- **Work in turns learns and does what it learns and does entry by entry.** -/
theorem observeInTurns_memory (hs : s.backend = .memory) (hc : w.cluster.Stateless)
    (hd : (ds.map (·.name)).Nodup) {first second : List Nat} {os : List Observation}
    (hos : os ∈ (observeInTurns s.assembled.registry s.assembled.recordEvent first second ds w).1) :
    os = w.cluster.observations ds ∧
      (observeInTurns s.assembled.registry s.assembled.recordEvent first second ds
        w).2.cluster.objects = w.cluster.filled ds := by
  let c := w.cluster.withObjects (w.cluster.filled ds)
  obtain ⟨ensured, w₁, fetched, w₂, hfirst, hsecond, hrun⟩ := eq_of_mem_observeInTurns _ _ hos
  have hensured : Apart w.cluster ds (ensured.map .done) w₁.cluster := by
    have hapart := ensureInTurns_induction _ _ (fun _ _ _ _ hi h => Apart.work hs hd hi h)
      (apart_start hc) (congrArg Prod.fst hfirst)
    rwa [hfirst] at hapart
  obtain ⟨rfl, hobjects⟩ := hensured.eq hd
  rw [w.cluster.filterMap_ready?] at hsecond
  have hfetched : Reading c (w.cluster.ready ds) (fetched.map .done) w₂.cluster := by
    have hreading := fetchInTurns_induction _ (fun _ _ _ _ hi h => Reading.work hs hi h)
      (reading_start (c := c) hensured.stateless hensured.reaction hobjects)
      (congrArg Prod.fst hsecond)
    rwa [hsecond] at hreading
  rw [hrun] at hos ⊢
  refine ⟨?_, hfetched.objects⟩
  obtain rfl := Option.some.inj hos
  rw [hfetched.eq, w.cluster.filterMap_ofEnsured?, List.map_map]
  rfl

/-! ## What the outcome of an entry depends on -/

/-- Two registries **are alike for an entry**: they hold the same object under its name, and their
reactors say the same to its two calls. -/
structure Cluster.AlikeFor (d : Desired) (c c' : Cluster) : Prop where
  object : c.objects[d.name]? = c'.objects[d.name]?
  get : c.reaction (.get d.name) = c'.reaction (.get d.name)
  create : c.reaction (.create d.toObject) = c'.reaction (.create d.toObject)

section Alike

variable {c c' : Cluster} {d : Desired} {ds ds' : List Desired}

/-- Reading an object back depends on the object and on what the reactors say to that. -/
theorem readBack_congr (hget : c.reaction (.get d.name) = c'.reaction (.get d.name))
    (hobject : c.objects[d.name]? = c'.objects[d.name]?) : c.readBack d = c'.readBack d := by
  rw [Cluster.readBack, Cluster.readBack, Cluster.get_fst, Cluster.get_fst, hget, hobject]

namespace Cluster.AlikeFor

theorem mem_iff (h : AlikeFor d c c') :
    d.toObject.name ∈ c.objects ↔ d.toObject.name ∈ c'.objects := by
  rw [Desired.name_toObject]
  rw [Std.ExtTreeMap.mem_iff_isSome_getElem?, Std.ExtTreeMap.mem_iff_isSome_getElem?, h.object]

theorem get_eq (h : AlikeFor d c c') : (c.get d.name).1 = (c'.get d.name).1 := by
  rw [get_fst, get_fst, h.get, h.object]

theorem create_eq (h : AlikeFor d c c') : (c.create d.toObject).1 = (c'.create d.toObject).1 := by
  rw [create_fst, create_fst, h.create]
  simp only [h.mem_iff]

theorem admits_eq (h : AlikeFor d c c') : c.admits d.toObject = c'.admits d.toObject := by
  unfold admits
  rw [h.create]
  simp only [h.mem_iff]

theorem fate_eq (h : AlikeFor d c c') : d.fate c = d.fate c' := by
  unfold Desired.fate
  rw [h.get_eq, h.create_eq]

theorem isAdded_eq (h : AlikeFor d c c') : d.isAdded c = d.isAdded c' := by
  unfold Desired.isAdded
  rw [h.fate_eq, h.admits_eq]

/-- **The object that a pass leaves** under the name of an entry. -/
theorem filled_eq (h : AlikeFor d c c') (hd : (ds.map (·.name)).Nodup)
    (hd' : (ds'.map (·.name)).Nodup) (hmem : d ∈ ds) (hmem' : d ∈ ds') :
    (c.filled ds)[d.name]? = (c'.filled ds')[d.name]? := by
  rw [filled, filled, getElem?_fill_of_mem hd hmem, getElem?_fill_of_mem hd' hmem', h.isAdded_eq,
    h.object]

/-- **The outcome of an entry** depends on its own object and its own calls only. -/
theorem outcome_eq (h : AlikeFor d c c') (hd : (ds.map (·.name)).Nodup)
    (hd' : (ds'.map (·.name)).Nodup) (hmem : d ∈ ds) (hmem' : d ∈ ds') :
    d.outcome c (c.filled ds) = d.outcome c' (c'.filled ds') := by
  have hback : (c.withObjects (c.filled ds)).readBack d =
      (c'.withObjects (c'.filled ds')).readBack d :=
    readBack_congr h.get (h.filled_eq hd hd' hmem hmem')
  unfold Desired.outcome
  rw [h.fate_eq, hback]

end Cluster.AlikeFor

theorem filter_name_eq (hd : (ds.map (·.name)).Nodup) (hmem : d ∈ ds) :
    ds.filter (·.name = d.name) = [d] := by
  obtain ⟨before, after, rfl⟩ := List.append_of_mem hmem
  rw [List.map_append, List.map_cons, List.nodup_append, List.nodup_cons] at hd
  obtain ⟨-, ⟨hafter, -⟩, hbefore⟩ := hd
  have hnone : before.filter (·.name = d.name) = [] := by
    refine List.filter_eq_nil_iff.mpr fun d' h' he => ?_
    exact hbefore _ (List.mem_map_of_mem h') _ List.mem_cons_self (of_decide_eq_true he)
  have hnone' : after.filter (·.name = d.name) = [] := by
    refine List.filter_eq_nil_iff.mpr fun d' h' he => hafter ?_
    exact List.mem_map.mpr ⟨d', h', of_decide_eq_true he⟩
  rw [List.filter_append, List.filter_cons, hnone, hnone', if_pos (decide_eq_true rfl),
    List.nil_append]

/-- **An entry has one observation** among all that a pass makes. -/
theorem filter_observations (hd : (ds.map (·.name)).Nodup) (hmem : d ∈ ds) :
    (c.observations ds).filter (·.name = d.name) = [⟨d.name, d.outcome c (c.filled ds)⟩] := by
  have hone : (ds.map fun d => (⟨d.name, d.outcome c (c.filled ds)⟩ : Observation)).filter
      (·.name = d.name) = [⟨d.name, d.outcome c (c.filled ds)⟩] := by
    rw [List.filter_map]
    exact congrArg (List.map _) (filter_name_eq hd hmem)
  refine List.perm_singleton.mp ?_
  rw [← hone]
  exact c.observations_perm.filter _

end Alike

/-! ## Any schedule -/

/-- **What is learnt of an entry is its own affair, under any schedule.**  Turns enough bring the
work to an end; then the observations and the objects are those of the pass that takes entry by
entry; and whatever else is desired, answered and done in another world, an entry for which the two
are alike is observed alike, and the same object is left under its name. -/
theorem observeInTurns_independent (hs : s.backend = .memory) (hc : w.cluster.Stateless)
    (hd : (ds.map (·.name)).Nodup) (first second : List Nat) :
    let p := observeInTurns s.assembled.registry s.assembled.recordEvent first second ds w
    ((∀ i < ds.length, 2 ≤ first.count i) → (∀ i < ds.length, 1 ≤ second.count i) →
      p.1.isSome) ∧
    ∀ os ∈ p.1,
      (os = (s.assembled.observe ds w).1 ∧
        p.2.cluster.objects = (s.assembled.observe ds w).2.cluster.objects) ∧
      ∀ d ∈ ds, ∃ o, o.name = d.name ∧ os.filter (·.name = d.name) = [o] ∧
        ∀ (s' : Stage) (w' : World) (ds' : List Desired) (first' second' : List Nat),
          s'.backend = .memory → w'.cluster.Stateless → (ds'.map (·.name)).Nodup → d ∈ ds' →
          Cluster.AlikeFor d w.cluster w'.cluster →
          let p' := observeInTurns s'.assembled.registry s'.assembled.recordEvent first' second' ds'
            w'
          ∀ os' ∈ p'.1, os'.filter (·.name = d.name) = [o] ∧
            p'.2.cluster.objects[d.name]? = p.2.cluster.objects[d.name]? := by
  intro p
  refine ⟨fun hfirst hsecond => isSome_observeInTurns _ _ hfirst hsecond w, fun os hos => ?_⟩
  obtain ⟨rfl, hobjects⟩ := observeInTurns_memory hs hc hd hos
  rw [observe_memory hs hc hd]
  refine ⟨⟨rfl, hobjects⟩, fun d hmem => ?_⟩
  refine ⟨⟨d.name, d.outcome w.cluster (w.cluster.filled ds)⟩, rfl, filter_observations hd hmem, ?_⟩
  intro s' w' ds' first' second' hs' hc' hd' hmem' halike p' os' hos'
  obtain ⟨rfl, hobjects'⟩ := observeInTurns_memory hs' hc' hd' hos'
  have hp : p.2.cluster.objects = w.cluster.filled ds := hobjects
  have hp' : p'.2.cluster.objects = w'.cluster.filled ds' := hobjects'
  rw [hp, hp', filter_observations hd' hmem', halike.outcome_eq hd hd' hmem hmem',
    halike.filled_eq hd hd' hmem hmem']
  exact ⟨rfl, rfl⟩

end Memory

/-- The object that is down is observed among troubles, with the calls of all entries mixed, as it
is observed alone. -/
theorem observeInTurns_troubled :
    let registry := Stage.complete.assembled.registry
    let record := Stage.complete.assembled.recordEvent
    let p := observeInTurns registry record [2, 0, 1, 2, 1, 0] [1, 0, 2] World.troubled.desired
      World.troubled
    let p' := observeInTurns registry record [0, 0] [0] [World.sample "build"] World.doubled
    Stage.complete.backend = .memory ∧ World.troubled.cluster.Stateless ∧
      (World.troubled.desired.map (·.name)).Nodup ∧
      ∃ os ∈ p.1, os = (Stage.complete.assembled.observe World.troubled.desired World.troubled).1 ∧
        ∃ o, os.filter (·.name = "v1.build") = [o] ∧
          ∃ os' ∈ p'.1, os'.filter (·.name = "v1.build") = [o] := by
  intro registry record p p'
  have halike : Cluster.AlikeFor (World.sample "build") World.troubled.cluster
      World.doubled.cluster := ⟨rfl, rfl, rfl⟩
  have h := observeInTurns_independent (s := Stage.complete) rfl World.stateless_troubled
    World.nodup_troubled [2, 0, 1, 2, 1, 0] [1, 0, 2]
  obtain ⟨os, hos⟩ := Option.isSome_iff_exists.mp (h.1 (by decide) (by decide))
  obtain ⟨os', hos'⟩ : ∃ os', os' ∈ p'.1 := Option.isSome_iff_exists.mp
    (isSome_observeInTurns registry record (by decide) (by decide) World.doubled)
  obtain ⟨hsame, hentry⟩ := h.2 os hos
  obtain ⟨o, -, hone, hother⟩ := hentry (World.sample "build") (by decide)
  have hdoubled := hother Stage.complete World.doubled [World.sample "build"] [0, 0] [0] rfl
    (Cluster.stateless_of_reactors rfl) (List.nodup_singleton _) (by decide) halike os' hos'
  exact ⟨rfl, World.stateless_troubled, World.nodup_troubled, os, hos, hsame.1, o, hone, os', hos',
    hdoubled.1⟩

end ApiAvailability
