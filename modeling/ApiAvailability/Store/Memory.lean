import ApiAvailability.Store.Interface

/-!
# Store/Memory — stores that are values

A registry, a status store and a version recorder without files. The registry notes every call and
asks its reactors first: the newest one that has something to say answers in the registry's place.

- `Cluster.get_objects` — reading changes no object
- `Cluster.objects_create` — an object is added only under a name that is not taken
-/

namespace ApiAvailability

/-! ## Calls and reactors -/

/-- **A call** of a registry. -/
inductive Action where
  | get (name : String)
  | create (object : ApiService)
  deriving DecidableEq

namespace Action

/-- The verb of a call. -/
def verb : Action → String
  | get _ => "get"
  | create _ => "create"

/-- The name of the object that a call concerns. -/
def name : Action → String
  | get name => name
  | create o => o.name

end Action

/-- What a reactor says to a call: nothing, or an answer in the registry's place. -/
abbrev Reaction := Option (Except StoreError ApiService)

/-- **A reactor** answers in the registry's place. What it says may depend on the calls that it has
been asked about before, which it keeps, newest first. -/
structure Reactor where
  react : List Action → Action → Reaction
  asked : List Action

namespace Reactor

/-- A reactor without memory. -/
def ofFunction (f : Action → Reaction) : Reactor := ⟨fun _ a => f a, []⟩

/-- A reactor that says `reaction` to the calls that satisfy `hits`, after the first `skip` of them
and at most `times` times. -/
def counting (hits : Action → Bool) (skip : Nat) (times : Option Nat) (reaction : Reaction) :
    Reactor where
  react asked a :=
    let n := (asked.filter hits).length
    if hits a && skip ≤ n && times.all (n < skip + ·) then reaction else none
  asked := []

/-- What a reactor says, and the reactor after that. -/
def ask (r : Reactor) (a : Action) : Reaction × Reactor :=
  (r.react r.asked a, { r with asked := a :: r.asked })

end Reactor

/-- What the first of several reactors says that says anything. Those behind it are not asked. -/
def askAll (a : Action) : List Reactor → Reaction × List Reactor
  | [] => (none, [])
  | r :: rs =>
    match r.ask a with
    | (some answer, r) => (some answer, r :: rs)
    | (none, r) =>
      let (reaction, rs) := askAll a rs
      (reaction, r :: rs)

/-! ## The registry -/

/-- **A registry in memory**: its objects by their names, its reactors, newest first, and the calls
made so far, in order. -/
structure Cluster where
  objects : Std.ExtTreeMap String ApiService compare
  reactors : List Reactor
  actions : Array Action

namespace Cluster

/-- A registry that holds the given objects; of several with one name the last. -/
def ofObjects (os : List ApiService) : Cluster :=
  ⟨os.foldl (fun objects o => objects.insert o.name o) ∅, [], #[]⟩

/-- A new reactor, asked before all others. -/
def prepend (c : Cluster) (r : Reactor) : Cluster := { c with reactors := r :: c.reactors }

/-- Asks the reactors about a call and notes it. -/
def react (c : Cluster) (a : Action) : Reaction × Cluster :=
  let (reaction, reactors) := askAll a c.reactors
  (reaction, { c with reactors, actions := c.actions.push a })

/-- The object of a name. -/
def get (c : Cluster) (name : String) : Except StoreError ApiService × Cluster :=
  match c.react (.get name) with
  | (some answer, c) => (answer, c)
  | (none, c) =>
    match c.objects[name]? with
    | some o => (.ok o, c)
    | none => (.error (.notFound resourceName name), c)

/-- Adds an object whose name is not taken. -/
def create (c : Cluster) (o : ApiService) : Except StoreError ApiService × Cluster :=
  match c.react (.create o) with
  | (some answer, c) => (answer, c)
  | (none, c) =>
    if o.name ∈ c.objects then (.error (.alreadyExists resourceName o.name), c)
    else (.ok o, { c with objects := c.objects.insert o.name o })

/-- Replaces the conditions of an object. Says whether there is such an object. -/
def setConditions (c : Cluster) (name : String) (cs : List ServiceCondition) : Bool × Cluster :=
  match c.objects[name]? with
  | some o => (true, { c with objects := c.objects.insert name (o.withConditions cs) })
  | none => (false, c)

/-- The number of calls with a verb. -/
def count (c : Cluster) (verb : String) : Nat := c.actions.toList.countP (·.verb = verb)

/-- **The registry**, as state. -/
def registry : Registry (StateM Cluster) := ⟨fun name c => c.get name, fun o c => c.create o⟩

@[simp] theorem objects_react (c : Cluster) (a : Action) : (c.react a).2.objects = c.objects := rfl

@[simp] theorem actions_react (c : Cluster) (a : Action) :
    (c.react a).2.actions = c.actions.push a := rfl

@[simp] theorem get_objects (c : Cluster) (name : String) :
    (c.get name).2.objects = c.objects := by
  unfold get
  rcases h : c.react (.get name) with ⟨_ | answer, c'⟩
  · have : c'.objects = c.objects := by rw [← objects_react c (.get name), h]
    simp only [this]
    split <;> exact this
  · rw [← objects_react c (.get name), h]

theorem objects_create (c : Cluster) (o : ApiService) :
    (c.create o).2.objects = c.objects ∨
      (o.name ∉ c.objects ∧ (c.create o).2.objects = c.objects.insert o.name o) := by
  unfold create
  rcases h : c.react (.create o) with ⟨_ | answer, c'⟩
  · have hc : c'.objects = c.objects := by rw [← objects_react c (.create o), h]
    simp only [hc]
    by_cases hm : o.name ∈ c.objects
    · exact .inl (by simp [hm, hc])
    · exact .inr (by simp [hm])
  · exact .inl (by rw [← objects_react c (.create o), h])

end Cluster

/-! ## The operator's record -/

/-- **The operator's record in memory**, with failures that every read or write is to meet, and the
number of conditions written so far. -/
structure MemoryStatus where
  state : OperatorState
  readFailure : Option StoreError
  writeFailure : Option StoreError
  writes : Nat

namespace MemoryStatus

/-- The record `state`, without failures. -/
def ofState (state : OperatorState) : MemoryStatus := ⟨state, none, none, 0⟩

/-- The record. -/
def read (s : MemoryStatus) : Except StoreError OperatorState :=
  match s.readFailure with
  | some e => .error e
  | none => .ok s.state

/-- Writes one condition. -/
def upsert (s : MemoryStatus) (c : OperatorCondition) : Except StoreError Unit × MemoryStatus :=
  match s.writeFailure with
  | some e => (.error e, s)
  | none => (.ok (), { s with state := s.state.setCondition c, writes := s.writes + 1 })

/-- Records the version of a component. -/
def setVersion (s : MemoryStatus) (component version : String) : MemoryStatus :=
  { s with state := s.state.setVersion component version }

/-- **The status store**, as state. -/
def store : StatusStore (StateM MemoryStatus) := ⟨fun s => (s.read, s), fun c s => s.upsert c⟩

end MemoryStatus

/-- **A recorder of versions** that keeps the latest of each component and counts the calls. -/
structure VersionLog where
  versions : Std.ExtTreeMap String String compare
  calls : Nat

namespace VersionLog

/-- The recorder before the first call. -/
def empty : VersionLog := ⟨∅, 0⟩

/-- Records the version of a component. -/
def record (v : VersionLog) (component version : String) : VersionLog :=
  ⟨v.versions.insert component version, v.calls + 1⟩

end VersionLog

end ApiAvailability
