import ApiAvailability.Pass.Ensure
import ApiAvailability.Proofs.Rehearsal.Stage
import ApiAvailability.Proofs.Store.Answers

/-!
# Proofs/Pass/Fate — how making sure of one object goes

On a registry in memory there are five ways it can go, and `Desired.fate` reads off the registry
which one it is: the answer to `get`, and after a `notFound` the answer to `create`.  Result, calls
and events are functions of the fate, and the objects gain at most the one that is desired
(`ensure_memory`).

A fate depends on the objects of other names not at all (`fate_congr`), which is what lets a pass
over pairwise distinct names be told entry by entry.
-/

namespace ApiAvailability

open Rehearsal

/-- **How making sure of an object goes.** -/
inductive Fate where
  /-- It was found. -/
  | found
  /-- It could not be looked for. -/
  | unreadable (e : StoreError)
  /-- It was missing, and creating it was answered. -/
  | created
  /-- It was missing, and another was ahead in creating it. -/
  | preceded
  /-- It was missing, and creating it was refused. -/
  | refused (e : StoreError)
  deriving DecidableEq

namespace Fate

/-- Whether the object was looked for in vain. -/
def missed : Fate → Bool
  | found | unreadable _ => false
  | created | preceded | refused _ => true

/-- Why the object is not there to be read back, if that is so. -/
def failure? : Fate → Option StoreError
  | unreadable e | refused e => some e
  | found | created | preceded => none

/-- What making sure of the object answers. -/
def result : Fate → Except StoreError Ensured
  | found | preceded => .ok .alreadyExisted
  | created => .ok .created
  | unreadable e | refused e => .error e

/-- The calls that are made. -/
def calls (d : Desired) (f : Fate) : List Action :=
  if f.missed then [.get d.name, .create d.toObject] else [.get d.name]

/-- The events that are told. -/
def events (d : Desired) : Fate → List Event
  | found | preceded => []
  | created => [.created d]
  | unreadable e => [.getFailed d e]
  | refused e => [.createFailed d e]

theorem ready?_result (d : Desired) (f : Fate) :
    ready? (d, f.result) = if f.failure?.isNone = true then some d else none := by
  cases f <;> rfl

theorem ofEnsured?_result (d : Desired) (f : Fate) : Observation.ofEnsured? (d, f.result) =
    f.failure?.map fun e => ⟨d.name, .ensureFailed e.message⟩ := by
  cases f <;> rfl

end Fate

namespace Desired

variable {c c' : Cluster} {d : Desired}

/-- **How making sure of the object goes on a registry**, by what it answers. -/
def fate (c : Cluster) (d : Desired) : Fate :=
  match (c.get d.name).1 with
  | .ok _ => .found
  | .error e =>
    if e.isNotFound then
      match (c.create d.toObject).1 with
      | .ok _ => .created
      | .error e => if e.isAlreadyExists then .preceded else .refused e
    else .unreadable e

/-- Whether making sure of the object adds it. -/
def isAdded (c : Cluster) (d : Desired) : Bool := (d.fate c).missed && c.admits d.toObject

/-- The objects after the object was made sure of. -/
def objectsAfter (c : Cluster) (d : Desired) : Std.ExtTreeMap String ApiService compare :=
  if d.isAdded c then c.objects.insert d.name d.toObject else c.objects

/-- How an entry fares depends on what registries say under its name. -/
theorem fate_congr (h : Cluster.AgreeOn d.name c c') : d.fate c = d.fate c' := by
  have hc : Cluster.AgreeOn d.toObject.name c c' := h
  unfold fate
  rw [Cluster.get_congr h, Cluster.create_congr hc]

/-- Whether its object is added depends on the same. -/
theorem isAdded_congr (h : Cluster.AgreeOn d.name c c') : d.isAdded c = d.isAdded c' := by
  have hc : Cluster.AgreeOn d.toObject.name c c' := h
  rw [isAdded, isAdded, fate_congr h, Cluster.admits_congr hc]

/-! ## One entry of a pass -/

section Entry

variable {s : Stage} (hs : s.backend = .memory) {w : World}

include hs

/-- What getting an object answers and leaves behind, with stores in memory. -/
theorem get_memory (name : String) (w : World) : s.assembled.registry.get name w =
    ((w.cluster.get name).1, s.moved w (w.cluster.hear [.get name]) []) := by
  have h : s.assembled.registry.get name w =
      ((w.cluster.get name).1, { w with cluster := (w.cluster.get name).2 }) := by
    rw [Stage.registry_memory hs]
    rfl
  rw [h, Cluster.get_eq, Stage.moved, Stage.told_nil]

/-- What creating an object answers and leaves behind, with stores in memory. -/
theorem create_memory (o : ApiService) (w : World) : s.assembled.registry.create o w =
    ((w.cluster.create o).1,
      s.moved w ((w.cluster.hear [.create o]).withObjects (w.cluster.including o)) []) := by
  have h : s.assembled.registry.create o w =
      ((w.cluster.create o).1, { w with cluster := (w.cluster.create o).2 }) := by
    rw [Stage.registry_memory hs]
    rfl
  rw [h, Cluster.create_eq, Stage.moved, Stage.told_nil]

/-- Looking for an object. -/
theorem look_memory (d : Desired) (w : World) :
    d.look s.assembled.registry s.assembled.recordEvent w =
      match (w.cluster.get d.name).1 with
      | .ok _ => (some (.ok .alreadyExisted), s.moved w (w.cluster.hear [.get d.name]) [])
      | .error e =>
        if e.isNotFound then (none, s.moved w (w.cluster.hear [.get d.name]) [])
        else (some (.error e), s.moved w (w.cluster.hear [.get d.name]) [.getFailed d e]) := by
  rw [look]
  rw [bind_apply, get_memory hs]
  rcases (w.cluster.get d.name).1 with e | o
  · by_cases he : e.isNotFound = true
    · simp [he, pure_apply]
    · simp [he, bind_apply, pure_apply, Stage.recordEvent_assembled]
  · rfl

/-- Making an object. -/
theorem make_memory (d : Desired) (w : World) :
    d.make s.assembled.registry s.assembled.recordEvent w =
      let c := (w.cluster.hear [.create d.toObject]).withObjects (w.cluster.including d.toObject)
      match (w.cluster.create d.toObject).1 with
      | .ok _ => (.ok .created, s.moved w c [.created d])
      | .error e =>
        if e.isAlreadyExists then (.ok .alreadyExisted, s.moved w c [])
        else (.error e, s.moved w c [.createFailed d e]) := by
  rw [make]
  rw [bind_apply, create_memory hs]
  rcases (w.cluster.create d.toObject).1 with e | o
  · by_cases he : e.isAlreadyExists = true
    · simp [he, pure_apply]
    · simp [he, bind_apply, pure_apply, Stage.recordEvent_assembled]
  · simp [bind_apply, pure_apply, Stage.recordEvent_assembled]

/-- **Making sure of an object is its fate**: the answer, the calls, the events, and at most one
object more. -/
theorem ensure_memory (hc : w.cluster.Stateless) (d : Desired) :
    d.ensure s.assembled.registry s.assembled.recordEvent w =
      ((d.fate w.cluster).result,
        s.moved w ((w.cluster.hear ((d.fate w.cluster).calls d)).withObjects
          (d.objectsAfter w.cluster)) ((d.fate w.cluster).events d)) := by
  have hagree : Cluster.AgreeOn d.toObject.name (w.cluster.hear [.get d.name]) w.cluster :=
    hc.agreeOn_hear _ _
  rw [ensure, objectsAfter, isAdded, fate]
  rw [bind_apply, look_memory hs]
  rcases (w.cluster.get d.name).1 with e | o
  case ok => simp [pure_apply, Fate.result, Fate.calls, Fate.events, Fate.missed]
  by_cases he : e.isNotFound = true
  case neg => simp [he, pure_apply, Fate.result, Fate.calls, Fate.events, Fate.missed]
  -- what was said to `get` has no bearing on what is said to `create`
  simp only [he, if_true, make_memory hs, Stage.cluster_moved, Cluster.create_congr hagree,
    Cluster.including, Cluster.admits_congr hagree, Cluster.objects_hear, Stage.moved_moved]
  have hcalls : (w.cluster.hear [.get d.name]).hear [.create d.toObject] =
      w.cluster.hear [.get d.name, .create d.toObject] := rfl
  rcases (w.cluster.create d.toObject).1 with e | o
  · by_cases he : e.isAlreadyExists = true
    · simp [he, hcalls, Fate.result, Fate.calls, Fate.events, Fate.missed]
    · simp [he, hcalls, Fate.result, Fate.calls, Fate.events, Fate.missed]
  · simp [hcalls, Fate.result, Fate.calls, Fate.events, Fate.missed]

/-- **Reading an object back** changes nothing that can be read back. -/
theorem fetch_memory (d : Desired) (w : World) : d.fetch s.assembled.registry w =
    ((w.cluster.get d.name).1.map .ofObject, s.moved w (w.cluster.hear [.get d.name]) []) := by
  rw [fetch]
  rw [bind_apply, get_memory hs]
  cases (w.cluster.get d.name).1 <;> rfl

end Entry

end Desired

end ApiAvailability
