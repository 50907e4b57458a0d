import ApiAvailability.Proofs.Pass.Fate
import Mathlib.Data.List.Perm.Basic

/-!
# Proofs/Pass/Account — a pass told entry by entry

Over desired services of pairwise distinct names, on a registry whose reactors have no memory, each
entry meets its fate on the registry as it was before the pass.  So the work of a pass on objects
is a sum over its entries: what it answers, calls, tells and adds (`observe_memory`).
-/

namespace ApiAvailability

open Rehearsal

/-- Objects joined by those of desired services that are picked, one after the other. -/
def fill (pick : Desired → Bool) (os : Std.ExtTreeMap String ApiService compare) :
    List Desired → Std.ExtTreeMap String ApiService compare
  | [] => os
  | d :: ds => fill pick (if pick d then os.insert d.name d.toObject else os) ds

section Fill

variable {pick pick' : Desired → Bool} {os : Std.ExtTreeMap String ApiService compare}
  {ds : List Desired}

/-- What is filled in depends on which entries are picked. -/
theorem fill_congr (h : ∀ d ∈ ds, pick d = pick' d) : fill pick os ds = fill pick' os ds := by
  induction ds generalizing os with
  | nil => rfl
  | cons d ds ih =>
    rw [fill, fill, h d List.mem_cons_self, ih fun d' h' => h d' (List.mem_cons_of_mem d h')]

theorem fill_eq_self (h : ∀ d ∈ ds, pick d = false) : fill pick os ds = os := by
  induction ds with
  | nil => rfl
  | cons d ds ih =>
    rw [fill, h d List.mem_cons_self, if_neg Bool.false_ne_true]
    exact ih fun d' h' => h d' (List.mem_cons_of_mem d h')

theorem getElem?_insert_ite_of_ne {p : Bool} {d : Desired} {name : String} (h : d.name ≠ name) :
    (if p then os.insert d.name d.toObject else os)[name]? = os[name]? := by
  split
  · rw [Std.ExtTreeMap.getElem?_insert, if_neg (by simpa using h)]
  · rfl

/-- Under a name that no entry has there is what was there. -/
theorem getElem?_fill_of_forall_ne {name : String} (h : ∀ d ∈ ds, d.name ≠ name) :
    (fill pick os ds)[name]? = os[name]? := by
  induction ds generalizing os with
  | nil => rfl
  | cons d ds ih =>
    rw [fill, ih fun d' h' => h d' (List.mem_cons_of_mem d h')]
    exact getElem?_insert_ite_of_ne (h d List.mem_cons_self)

/-- Under the name of an entry there is its object if it is picked, and else what was there. -/
theorem getElem?_fill_of_mem (hd : (ds.map (·.name)).Nodup) {d : Desired} (h : d ∈ ds) :
    (fill pick os ds)[d.name]? = if pick d then some d.toObject else os[d.name]? := by
  induction ds generalizing os with
  | nil => contradiction
  | cons d' ds ih =>
    rw [List.map_cons, List.nodup_cons] at hd
    obtain ⟨hne, hd⟩ := hd
    rw [fill]
    rcases List.mem_cons.mp h with rfl | h
    · rw [getElem?_fill_of_forall_ne fun d' h' he => hne (List.mem_map.mpr ⟨d', h', he⟩)]
      split
      · exact Std.ExtTreeMap.getElem?_insert_self
      · rfl
    · have hd' : d'.name ≠ d.name := fun he => hne (List.mem_map.mpr ⟨d, h, he.symm⟩)
      rw [ih hd h, getElem?_insert_ite_of_ne hd']

end Fill

namespace Cluster

variable {c c' : Cluster} {ds : List Desired}

/-- **The objects after each of some was made sure of**, told on the registry before. -/
def filled (c : Cluster) (ds : List Desired) : Std.ExtTreeMap String ApiService compare :=
  fill (Desired.isAdded c) c.objects ds

/-- The calls by which each of some is made sure of. -/
def ensureCalls (c : Cluster) (ds : List Desired) : List Action :=
  ds.flatMap fun d => (d.fate c).calls d

/-- The events that are told meanwhile. -/
def ensureEvents (c : Cluster) (ds : List Desired) : List Event :=
  ds.flatMap fun d => (d.fate c).events d

/-- The desired services whose objects are read back. -/
def ready (c : Cluster) (ds : List Desired) : List Desired :=
  ds.filter fun d => (d.fate c).failure?.isNone

/-- The calls by which they are read back. -/
def fetchCalls (c : Cluster) (ds : List Desired) : List Action :=
  (c.ready ds).map fun d => .get d.name

/-- What reading an object back from a registry means. -/
def readBack (c : Cluster) (d : Desired) : Outcome := .ofFetched ((c.get d.name).1.map .ofObject)

/-- **What a pass learns about some desired services.** -/
def observations (c : Cluster) (ds : List Desired) : List Observation :=
  (ds.filterMap fun d => (d.fate c).failure?.map fun e => ⟨d.name, .ensureFailed e.message⟩) ++
    (c.ready ds).map fun d => ⟨d.name, (c.withObjects (c.filled ds)).readBack d⟩

/-- **The registry after the work on some desired services.** -/
def worked (c : Cluster) (ds : List Desired) : Cluster :=
  (c.hear (c.ensureCalls ds ++ c.fetchCalls ds)).withObjects (c.filled ds)

/-- The entries that are ready are those whose objects were made sure of. -/
theorem filterMap_ready? (c : Cluster) (ds : List Desired) :
    (ds.map fun d => (d, (d.fate c).result)).filterMap ready? = c.ready ds := by
  rw [List.filterMap_map, ready, ← List.filterMap_eq_filter]
  exact List.filterMap_congr fun d _ => (d.fate c).ready?_result d

/-- An entry that is not ready is observed as one that failed. -/
theorem filterMap_ofEnsured? (c : Cluster) (ds : List Desired) :
    (ds.map fun d => (d, (d.fate c).result)).filterMap Observation.ofEnsured? =
      ds.filterMap fun d =>
        (d.fate c).failure?.map fun e => ⟨d.name, .ensureFailed e.message⟩ := by
  rw [List.filterMap_map]
  exact List.filterMap_congr fun d _ => (d.fate c).ofEnsured?_result d

theorem ensureCalls_congr (h : ∀ d ∈ ds, d.fate c = d.fate c') :
    c.ensureCalls ds = c'.ensureCalls ds :=
  List.flatMap_congr fun d hd => by rw [h d hd]

theorem ensureEvents_congr (h : ∀ d ∈ ds, d.fate c = d.fate c') :
    c.ensureEvents ds = c'.ensureEvents ds :=
  List.flatMap_congr fun d hd => by rw [h d hd]

/-- The registry after one entry agrees with the registry before on every other name. -/
theorem Stateless.agreeOn_entry (hc : c.Stateless) (as : List Action) {d : Desired}
    {name : String} (h : d.name ≠ name) :
    AgreeOn name ((c.hear as).withObjects (d.objectsAfter c)) c where
  reaction := hc.reaction_hear as
  object := getElem?_insert_ite_of_ne h

end Cluster

/-! ## The part of a pass that works on objects -/

section Cons

variable {σ : Type} (registry : Registry (StateM σ)) (record : Event → StateM σ Unit)

theorem ensureAll_cons_apply (d : Desired) (ds : List Desired) (w : σ) :
    ensureAll registry record (d :: ds) w =
      ((d, (d.ensure registry record w).1) ::
          (ensureAll registry record ds (d.ensure registry record w).2).1,
        (ensureAll registry record ds (d.ensure registry record w).2).2) :=
  mapM_cons_apply _ d ds w

theorem fetchAll_cons_apply (d : Desired) (ds : List Desired) (w : σ) :
    fetchAll registry (d :: ds) w =
      ((d, (d.fetch registry w).1) :: (fetchAll registry ds (d.fetch registry w).2).1,
        (fetchAll registry ds (d.fetch registry w).2).2) :=
  mapM_cons_apply _ d ds w

end Cons

section Memory

variable {s : Stage} (hs : s.backend = .memory) {w : World} (hc : w.cluster.Stateless)
  {ds : List Desired}

include hs hc

/-- **Making sure of all objects**: every entry meets its fate on the registry before. -/
theorem ensureAll_memory (hd : (ds.map (·.name)).Nodup) :
    ensureAll s.assembled.registry s.assembled.recordEvent ds w =
      (ds.map fun d => (d, (d.fate w.cluster).result),
        s.moved w ((w.cluster.hear (w.cluster.ensureCalls ds)).withObjects (w.cluster.filled ds))
          (w.cluster.ensureEvents ds)) := by
  induction ds generalizing w with
  | nil =>
    rw [ensureAll]
    rw [mapM_nil_apply]
    simp [Cluster.ensureCalls, Cluster.ensureEvents, Cluster.filled, Cluster.hear_nil, fill,
      Stage.moved]
  | cons d ds ih =>
    rw [List.map_cons, List.nodup_cons] at hd
    obtain ⟨hne, hd⟩ := hd
    -- the world after the first entry
    let c := (w.cluster.hear ((d.fate w.cluster).calls d)).withObjects (d.objectsAfter w.cluster)
    let w' := s.moved w c ((d.fate w.cluster).events d)
    have hagree : ∀ d' ∈ ds, Cluster.AgreeOn d'.name c w.cluster := fun d' h' =>
      hc.agreeOn_entry _ fun he => hne (List.mem_map.mpr ⟨d', h', he.symm⟩)
    have hfate : ∀ d' ∈ ds, d'.fate c = d'.fate w.cluster := fun d' h' =>
      Desired.fate_congr (hagree d' h')
    have hfilled : c.filled ds = w.cluster.filled (d :: ds) :=
      fill_congr fun d' h' => Desired.isAdded_congr (hagree d' h')
    have hhear : c.hear (c.ensureCalls ds) =
        (w.cluster.hear (w.cluster.ensureCalls (d :: ds))).withObjects
          (d.objectsAfter w.cluster) := by
      rw [Cluster.hear_withObjects, ← Cluster.hear_append, Cluster.ensureCalls_congr hfate]
      rfl
    have hresults : ds.map (fun d' => (d', (d'.fate c).result)) =
        ds.map fun d' => (d', (d'.fate w.cluster).result) :=
      List.map_congr_left fun d' h' => by rw [hfate d' h']
    rw [ensureAll_cons_apply, Desired.ensure_memory hs hc, @ih w' ((hc.hear _).withObjects _) hd,
      Stage.cluster_moved, hfilled, hhear, Cluster.withObjects_withObjects, Stage.moved_moved,
      Cluster.ensureEvents_congr hfate, hresults]
    rfl

/-- **Reading objects back** changes nothing that can be read back. -/
theorem fetchAll_memory : fetchAll s.assembled.registry ds w =
    (ds.map fun d => (d, (w.cluster.get d.name).1.map .ofObject),
      s.moved w (w.cluster.hear (ds.map fun d => .get d.name)) []) := by
  induction ds generalizing w with
  | nil =>
    rw [fetchAll]
    rw [mapM_nil_apply]
    simp [Cluster.hear_nil, Stage.moved]
  | cons d ds ih =>
    let w' := s.moved w (w.cluster.hear [.get d.name]) []
    have hget (name : String) :
        ((w.cluster.hear [.get d.name]).get name).1 = (w.cluster.get name).1 :=
      Cluster.get_congr (hc.agreeOn_hear _ _)
    rw [fetchAll_cons_apply, Desired.fetch_memory hs, @ih w' (hc.hear _), Stage.cluster_moved,
      Stage.moved_moved, ← Cluster.hear_append]
    simp only [hget]
    rfl

/-- **The part of a pass that works on objects**, told on the registry before. -/
theorem observe_memory (hd : (ds.map (·.name)).Nodup) :
    s.assembled.observe ds w = (w.cluster.observations ds,
      s.moved w (w.cluster.worked ds) (w.cluster.ensureEvents ds)) := by
  let c := (w.cluster.hear (w.cluster.ensureCalls ds)).withObjects (w.cluster.filled ds)
  have hc' : (s.moved w c (w.cluster.ensureEvents ds)).cluster.Stateless :=
    (hc.hear _).withObjects _
  have hget (d : Desired) : (c.get d.name).1 =
      ((w.cluster.withObjects (w.cluster.filled ds)).get d.name).1 :=
    Cluster.get_congr ⟨hc.reaction_hear _, rfl⟩
  have hworked : c.hear (w.cluster.fetchCalls ds) = w.cluster.worked ds := by
    rw [Cluster.hear_withObjects, ← Cluster.hear_append]
    rfl
  rw [Reconciler.observe, observe]
  rw [bind_apply, bind_apply, ensureAll_memory hs hc hd]
  dsimp only
  rw [w.cluster.filterMap_ready?, w.cluster.filterMap_ofEnsured?, fetchAll_memory hs hc',
    pure_apply, Stage.moved_moved, List.append_nil, List.map_map, Stage.cluster_moved]
  refine Prod.ext ?_ (congrArg (s.moved w · _) hworked)
  refine congrArg (List.append _) (List.map_congr_left fun d _ => ?_)
  exact congrArg (fun x => (⟨d.name, .ofFetched (x.map .ofObject)⟩ : Observation)) (hget d)

end Memory

end ApiAvailability
