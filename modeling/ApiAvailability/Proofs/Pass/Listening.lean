import ApiAvailability.Proofs.Pass.Interleaved
import ApiAvailability.Proofs.Pass.Mirror
import ApiAvailability.Store.Memory

/-!
# Proofs/Pass/Listening — what is heard of the work on objects

What a registry is asked and what events are told is no part of what a pass returns, and entries of
one name make the same calls.  To tell which call was made for which entry, and what it was answered,
registry and recorder are replaced by ones that are listened to.  Listening makes no difference to
the work (`observe_heard`, `observeInTurns_heard`).
-/

namespace ApiAvailability

variable {σ α : Type}

/-- **What is heard of work on objects.** -/
inductive Note where
  /-- The registry is called, and answers. -/
  | call (a : Action) (answer : Except StoreError ApiService)
  /-- An event is told. -/
  | event (e : Event)

/-- A computation that is listened to. -/
def overheard (note : α → Note) (x : StateM σ α) : StateM (σ × List Note) α := fun t =>
  ((x t.1).1, (x t.1).2, t.2 ++ [note (x t.1).1])

/-- Noting an answer changes nothing else. -/
theorem overheard_mirrors (note : α → Note) (x : StateM σ α) :
    Mirrors Prod.fst (overheard note x) x :=
  fun _ => rfl

/-- **The registry, listened to.** -/
def Registry.heard (registry : Registry (StateM σ)) : Registry (StateM (σ × List Note)) where
  get name := overheard (.call (.get name)) (registry.get name)
  create o := overheard (.call (.create o)) (registry.create o)

/-- The telling of events, listened to. -/
def heardEvents (record : Event → StateM σ Unit) (e : Event) : StateM (σ × List Note) Unit :=
  overheard (fun _ => .event e) (record e)

variable (registry : Registry (StateM σ)) (record : Event → StateM σ Unit)

section Apply

variable (w : σ) (log : List Note)

theorem Registry.heard_get (name : String) : registry.heard.get name (w, log) =
    ((registry.get name w).1, (registry.get name w).2,
      log ++ [.call (.get name) (registry.get name w).1]) := rfl

theorem Registry.heard_create (o : ApiService) : registry.heard.create o (w, log) =
    ((registry.create o w).1, (registry.create o w).2,
      log ++ [.call (.create o) (registry.create o w).1]) := rfl

theorem heardEvents_apply (e : Event) :
    heardEvents record e (w, log) = ((record e w).1, (record e w).2, log ++ [.event e]) := rfl

end Apply

/-- **All that is heard of the work** on some desired services. -/
def transcript (ds : List Desired) (w : σ) : List Note :=
  (observe registry.heard (heardEvents record) ds (w, [])).2.2

/-- All that is heard of work in turns. -/
def transcriptInTurns (first second : List Nat) (ds : List Desired) (w : σ) : List Note :=
  (observeInTurns registry.heard (heardEvents record) first second ds (w, [])).2.2

/-- **Listening makes no difference** to work entry by entry. -/
theorem observe_heard (ds : List Desired) :
    Mirrors Prod.fst (observe registry.heard (heardEvents record) ds) (observe registry record ds) :=
  observe_mirrors (fun _ => overheard_mirrors _ _) (fun _ => overheard_mirrors _ _)
    (fun _ => overheard_mirrors _ _) ds

/-- A piece of making sure of an object goes on the same when it is overheard. -/
theorem Ensuring.work_heard (t : Ensuring) :
    Mirrors Prod.fst (t.work registry.heard (heardEvents record)) (t.work registry record) := by
  have hget (name : String) : Mirrors Prod.fst (registry.heard.get name) (registry.get name) :=
    overheard_mirrors _ _
  have hcreate (o : ApiService) : Mirrors Prod.fst (registry.heard.create o) (registry.create o) :=
    overheard_mirrors _ _
  have hrecord (e : Event) : Mirrors Prod.fst (heardEvents record e) (record e) :=
    overheard_mirrors _ _
  cases t with
  | look d =>
    refine (d.look_mirrors hget hrecord).bind fun found => ?_
    cases found with
    | none => exact .pure _
    | some result => exact .pure _
  | make d => exact (d.make_mirrors hcreate hrecord).bind fun _ => .pure _

/-- Fetching goes on the same when it is overheard. -/
theorem fetchWork_heard (d : Desired) :
    Mirrors Prod.fst (fetchWork registry.heard d) (fetchWork registry d) :=
  (d.fetch_mirrors fun _ => overheard_mirrors _ _).bind fun _ => .pure _

/-- Listening makes no difference to work in turns. -/
theorem observeInTurns_heard (first second : List Nat) (ds : List Desired) :
    Mirrors Prod.fst (observeInTurns registry.heard (heardEvents record) first second ds)
      (observeInTurns registry record first second ds) := by
  have hensured : Mirrors Prod.fst (ensureInTurns registry.heard (heardEvents record) first ds)
      (ensureInTurns registry record first ds) :=
    (Job.takeTurns_mirrors (Ensuring.work_heard registry record) first _).bind fun _ => .pure _
  have hfetched (ds : List Desired) : Mirrors Prod.fst (fetchInTurns registry.heard second ds)
      (fetchInTurns registry second ds) :=
    (Job.takeTurns_mirrors (fetchWork_heard registry) second _).bind fun _ => .pure _
  refine hensured.bind fun ensured => ?_
  cases ensured with
  | none => exact .pure _
  | some ensured =>
    refine (hfetched _).bind fun fetched => ?_
    cases fetched with
    | none => exact .pure _
    | some fetched => exact .pure _

end ApiAvailability
