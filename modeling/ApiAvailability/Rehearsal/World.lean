import ApiAvailability.Files.Tree
import ApiAvailability.Pass.Loop
import ApiAvailability.Store.Memory
import ApiAvailability.Store.StatusFile

/-!
# Rehearsal/World — a reconciler among stand-ins

A world holds all that a reconciler works with as one value: stores in memory, a tree of files, the
desired API services, and scripts for what a precondition or a store is to say next. A `Stage` tells
which of them a reconciler gets. The clock of a world shows another time at every reading.
-/

namespace ApiAvailability.Rehearsal

open Files

/-- What a precondition is to say, and whether the loop is asked to stop while it is checked. -/
structure Check where
  result : Except PassError Bool
  stop : Bool

/-- **A world.** -/
structure World where
  cluster : Cluster
  status : MemoryStatus
  versions : VersionLog
  tree : Tree
  events : Array Event
  /-- The desired API services. -/
  desired : List Desired
  /-- What the provider fails with, while it is set. -/
  providerFailure : Option PassError
  /-- What the precondition is to say, check by check; after that every pass may go on. -/
  checks : List Check
  /-- What reads of the record are to fail with, read by read. -/
  reads : List (Option StoreError)
  /-- What writes of a condition are to fail with, write by write. -/
  writes : List (Option StoreError)
  /-- The checks of the precondition so far. -/
  checked : Nat
  /-- Whether the loop was asked to stop. -/
  stopping : Bool
  /-- The readings of the clock so far. -/
  readings : Nat

namespace World

/-- A world where nothing is there and nothing fails. -/
def empty : World where
  cluster := .ofObjects []
  status := .ofState .initial
  versions := .empty
  tree := .empty
  events := #[]
  desired := []
  providerFailure := none
  checks := []
  reads := []
  writes := []
  checked := 0
  stopping := false
  readings := 0

/-! ## Parts of a world -/

variable {α : Type}

/-- An action on the registry in memory. -/
def onCluster (x : StateM Cluster α) : StateM World α := fun w =>
  let (a, cluster) := x w.cluster
  (a, { w with cluster })

/-- An action on the record in memory. -/
def onStatus (x : StateM MemoryStatus α) : StateM World α := fun w =>
  let (a, status) := x w.status
  (a, { w with status })

/-- An action on the tree of files. -/
def onTree (x : StateM Tree α) : StateM World α := fun w =>
  let (a, tree) := x w.tree
  (a, { w with tree })

/-- The time on the clock at reading `n`: a microsecond later at each of the first million. -/
def time (n : Nat) : Time.Timestamp where
  day := 137200
  second := 29350
  nanos := (1000 * n + 1) % Time.nanosPerSecond
  day_mem := by decide
  second_lt := by decide
  nanos_lt := .inl (Nat.mod_lt _ (by decide))

/-- **Reads the clock.** -/
def now : StateM World Time.Timestamp := fun w =>
  (time w.readings, { w with readings := w.readings + 1 })

/-- What the script of a precondition says next. -/
def check : StateM World (Except PassError Bool) := fun w =>
  match w.checks with
  | [] => (.ok true, { w with checked := w.checked + 1 })
  | c :: rest =>
    (c.result,
      { w with checks := rest, checked := w.checked + 1, stopping := w.stopping || c.stop })

/-- The desired API services, unless the provider is to fail. -/
def provide : StateM World (Except PassError (List Desired)) := fun w =>
  match w.providerFailure with
  | some e => (.error e, w)
  | none => (.ok w.desired, w)

/-- Tells what happened. -/
def recordEvent (e : Event) : StateM World Unit := fun w =>
  ((), { w with events := w.events.push e })

/-- Records a version apart from the record. -/
def recordVersion (component version : String) : StateM World Unit := fun w =>
  ((), { w with versions := w.versions.record component version })

/-- A status store whose calls fail as the scripts say before they reach it. -/
def scripted (store : StatusStore (StateM World)) : StatusStore (StateM World) where
  read := fun w =>
    match w.reads with
    | some e :: rest => (.error e, { w with reads := rest })
    | none :: rest => store.read { w with reads := rest }
    | [] => store.read w
  upsert c := fun w =>
    match w.writes with
    | some e :: rest => (.error e, { w with writes := rest })
    | none :: rest => store.upsert c { w with writes := rest }
    | [] => store.upsert c w

end World

/-! ## Stages -/

/-- Where the stores of a reconciler are: in memory, or in a directory and a file. -/
inductive Backend where
  | memory
  | files (objects : Directory) (status : StatusFile)

/-- The parts that a reconciler may be built without. -/
inductive Role where
  | client | provider | precondition | status | versions | events
  deriving DecidableEq

/-- **A stage**: what a reconciler is built from. -/
structure Stage where
  backend : Backend
  /-- Whether versions are recorded in the operator's record. -/
  versionsInStatus : Bool
  component : String
  operandVersion : String
  without : List Role

namespace Stage

variable (s : Stage)

/-- The file operations of a world. -/
def system : FileSystem (StateM World) := Tree.system.lift World.onTree

/-- The registry of a stage. -/
def registry : Registry (StateM World) :=
  match s.backend with
  | .memory => Cluster.registry.lift World.onCluster
  | .files objects _ => objects.registry system

/-- The status store of a stage. -/
def status : StatusStore (StateM World) :=
  World.scripted <|
    match s.backend with
    | .memory => MemoryStatus.store.lift World.onStatus
    | .files _ file => file.store system

/-- The version recorder of a stage. -/
def recordVersion (component version : String) : StateM World Unit :=
  if s.versionsInStatus then
    match s.backend with
    | .memory => World.onStatus fun st => ((), st.setVersion component version)
    | .files _ file => file.setVersion system component version
  else World.recordVersion component version

/-- A part, if the stage has it. -/
def part {α : Type} (role : Role) (a : α) : Option α := if role ∈ s.without then none else some a

/-- **The reconciler of a stage**, if it can be built. -/
def reconciler : Except PassError (Reconciler (StateM World)) :=
  Reconciler.build s.component s.operandVersion {
    registry := s.part .client s.registry
    provider := s.part .provider World.provide
    precondition := s.part .precondition World.check
    status := s.part .status s.status
    recordVersion := s.part .versions s.recordVersion
    recordEvent := s.part .events World.recordEvent }

end Stage

/-! ## Passes -/

/-- A pass at the time that the clock shows. -/
def sync (r : Reconciler (StateM World)) : StateM World (Except PassError PassOutcome) := do
  r.sync (← World.now)

/-- A loop of passes up to a time limit: how it ended and when, and the times at which the
precondition was checked. -/
def loop (r : Reconciler (StateM World)) (plan : LoopPlan) (limit : Nat) :
    StateM World (Option (LoopEnd × Nat × List Nat)) := do
  let pass (n : Nat) : StateT (List Nat) (StateM World) (Except PassError PassOutcome × Bool) :=
    fun times => do
      let before := (← get).checked
      let result ← sync r
      let w ← get
      let times := if before < w.checked then n * plan.interval :: times else times
      return ((result, w.stopping), times)
  let (ending, times) ← (plan.run limit pass).run []
  return ending.map fun (ending, elapsed) => (ending, elapsed, times.reverse)

end ApiAvailability.Rehearsal
