import ApiAvailability.Proofs.Pass.Account
import ApiAvailability.Proofs.Rehearsal.Steady

/-!
# Proofs/Pass/Stocked — registries without reactors

A registry without reactors answers from its objects alone, so that the work of a pass makes sure
of every object, equal names or not (`stocked_observe`).  Once all of them are there the work only
reads (`observe_onlyReads`).
-/

namespace ApiAvailability

open Rehearsal

namespace Cluster

variable {c : Cluster}

/-- Without reactors there are none after a call. -/
theorem reactors_hear (h : c.reactors = []) (as : List Action) : (c.hear as).reactors = [] := by
  induction as generalizing c with
  | nil => exact h
  | cons a as ih =>
    have hreact : (c.react a).2.reactors = (askAll a c.reactors).2 := rfl
    refine ih ?_
    rw [hreact, h]
    rfl

theorem reaction_of_reactors (h : c.reactors = []) (a : Action) : c.reaction a = none := by
  have hreaction : c.reaction a = (askAll a c.reactors).1 := rfl
  rw [hreaction, h]
  rfl

theorem stateless_of_reactors (h : c.reactors = []) : c.Stateless := by
  intro r hr
  rw [h] at hr
  exact absurd hr List.not_mem_nil

/-- **A registry is stocked** with some desired services: it has an object for each of them, and
no reactors. -/
structure Stocked (ds : List Desired) (c : Cluster) : Prop where
  reactors : c.reactors = []
  mem : ∀ d ∈ ds, d.name ∈ c.objects

theorem Stocked.hear {ds : List Desired} (h : c.Stocked ds) (as : List Action) :
    (c.hear as).Stocked ds :=
  ⟨reactors_hear h.reactors as, fun d hd => by rw [objects_hear]; exact h.mem d hd⟩

theorem count_hear_get (c : Cluster) (name : String) :
    (c.hear [.get name]).count "create" = c.count "create" := by
  rw [count, toList_actions_hear, List.countP_append]
  rfl

end Cluster

namespace Desired

variable {c : Cluster} {d : Desired}

/-- Without reactors an object that is there is found. -/
theorem fate_of_mem (h : c.reactors = []) (hmem : d.name ∈ c.objects) : d.fate c = .found := by
  obtain ⟨o, ho⟩ := Cluster.exists_object hmem
  rw [fate, Cluster.get_fst, Cluster.reaction_of_reactors h, ho]
  rfl

theorem isAdded_of_mem (h : c.reactors = []) (hmem : d.name ∈ c.objects) :
    d.isAdded c = false := by
  rw [isAdded, fate_of_mem h hmem]
  rfl

/-- Without reactors an object that is missing is added. -/
theorem isAdded_of_not_mem (h : c.reactors = []) (hmem : d.name ∉ c.objects) :
    d.isAdded c = true := by
  have hobject : c.objects[d.name]? = none := by simpa using hmem
  have hadmits : c.admits d.toObject = true := by
    rw [Cluster.admits, Cluster.reaction_of_reactors h]
    simp [hmem]
  rw [isAdded, hadmits, Bool.and_true, fate, Cluster.get_fst, Cluster.create_fst,
    Cluster.reaction_of_reactors h, Cluster.reaction_of_reactors h, hobject, Option.getD_none,
    Option.getD_none, name_toObject, if_neg hmem]
  rfl

/-- No object is taken away when another is made sure of. -/
theorem mem_objectsAfter_of_mem {name : String} (h : name ∈ c.objects) :
    name ∈ d.objectsAfter c := by
  rw [objectsAfter]
  split
  · exact Std.ExtTreeMap.mem_insert.mpr (.inr h)
  · exact h

/-- Without reactors an object is there once it was made sure of. -/
theorem mem_objectsAfter (h : c.reactors = []) : d.name ∈ d.objectsAfter c := by
  by_cases hmem : d.name ∈ c.objects
  · exact mem_objectsAfter_of_mem hmem
  · rw [objectsAfter, if_pos (isAdded_of_not_mem h hmem)]
    exact Std.ExtTreeMap.mem_insert_self

end Desired

/-! ## The work on objects -/

/-- A step **only reads** a stocked registry: it creates nothing, and the registry stays stocked. -/
def OnlyReads (ds : List Desired) (w w' : World) : Prop :=
  w.cluster.Stocked ds →
    w'.cluster.Stocked ds ∧ w'.cluster.count "create" = w.cluster.count "create"

instance (ds : List Desired) : IsPreorder World (OnlyReads ds) where
  refl _ h := ⟨h, rfl⟩
  trans _ _ _ h h' hw := ⟨(h' (h hw).1).1, (h' (h hw).1).2.trans (h hw).2⟩

section Memory

variable {s : Stage} (hs : s.backend = .memory) {w : World} {ds seen : List Desired}

include hs

theorem Desired.fetch_onlyReads (d : Desired) :
    Keeps (OnlyReads ds) (d.fetch s.assembled.registry) := by
  intro w hw
  rw [fetch_memory hs]
  exact ⟨hw.hear _, w.cluster.count_hear_get d.name⟩

theorem Desired.ensure_onlyReads {d : Desired} (hd : d ∈ ds) :
    Keeps (OnlyReads ds) (d.ensure s.assembled.registry s.assembled.recordEvent) := by
  intro w hw
  have hmem : d.name ∈ w.cluster.objects := hw.mem d hd
  rw [ensure_memory hs (Cluster.stateless_of_reactors hw.reactors), fate_of_mem hw.reactors hmem,
    objectsAfter, isAdded_of_mem hw.reactors hmem]
  exact ⟨⟨(hw.hear _).reactors, hw.mem⟩, w.cluster.count_hear_get d.name⟩

/-- **On a stocked registry the work only reads.** -/
theorem observe_onlyReads : Keeps (OnlyReads ds) (s.assembled.observe ds) :=
  observe_keeps (fun _ hd => Desired.ensure_onlyReads hs hd) (Desired.fetch_onlyReads hs)

/-- After an entry was made sure of, its object is there too. -/
theorem Desired.stocked_ensure (d : Desired) (h : w.cluster.Stocked seen) :
    (d.ensure s.assembled.registry s.assembled.recordEvent w).2.cluster.Stocked (d :: seen) := by
  rw [ensure_memory hs (Cluster.stateless_of_reactors h.reactors)]
  refine ⟨(h.hear _).reactors, List.forall_mem_cons.mpr ⟨mem_objectsAfter h.reactors, ?_⟩⟩
  intro d' hd'
  exact mem_objectsAfter_of_mem (h.mem d' hd')

/-- After all entries were made sure of, the objects of all are there. -/
theorem stocked_ensureAll (h : w.cluster.Stocked seen) :
    (ensureAll s.assembled.registry s.assembled.recordEvent ds w).2.cluster.Stocked
      (ds ++ seen) := by
  induction ds generalizing w seen with
  | nil =>
    rw [ensureAll]
    rw [mapM_nil_apply]
    exact h
  | cons d ds ih =>
    rw [ensureAll_cons_apply]
    obtain ⟨hreactors, hmem⟩ := ih (d.stocked_ensure hs h)
    exact ⟨hreactors, fun d' hd' => hmem d' (List.perm_middle.mem_iff.mpr hd')⟩

/-- **Without reactors the work stocks the registry**, whatever names there are. -/
theorem stocked_observe (h : w.cluster.reactors = []) :
    (s.assembled.observe ds w).2.cluster.Stocked ds := by
  have hnothing : w.cluster.Stocked [] := ⟨h, fun d hd => absurd hd List.not_mem_nil⟩
  have hensured : (ensureAll s.assembled.registry s.assembled.recordEvent ds w).2.cluster.Stocked
      (ds ++ []) := stocked_ensureAll hs hnothing
  rw [List.append_nil] at hensured
  have hfetch (ds' : List Desired) : Keeps (OnlyReads ds) (fetchAll s.assembled.registry ds') :=
    .mapM fun d _ => (d.fetch_onlyReads hs).bind fun _ => .pure _
  exact (hfetch _ _ hensured).1

end Memory

end ApiAvailability
