import ApiAvailability.ApiService.Basic
import ApiAvailability.Operator.State

/-!
# Store/Interface — what a reconciler works with

A registry holds API service objects, a status store the operator's record; events tell what
happened. All of them act in a monad `m`, so that they may be values, files or stand-ins. Why a
store fails is worded in `StoreError.message`.
-/

namespace ApiAvailability

/-! ## Failures -/

/-- **Why a store fails.** -/
inductive StoreError where
  /-- There is an object of that name already. -/
  | alreadyExists (resource name : String)
  /-- There is no object of that name. -/
  | notFound (resource name : String)
  /-- What is stored cannot be read. -/
  | serialization (name reason : String)
  /-- The system refused. -/
  | io (name reason : String)
  /-- Any other failure, in its own words. -/
  | backend (text : String)
  deriving DecidableEq

namespace StoreError

/-- The text of a cause. -/
def message : StoreError → String
  | alreadyExists resource name => resource ++ " \"" ++ name ++ "\" already exists"
  | notFound resource name => resource ++ " \"" ++ name ++ "\" not found"
  | serialization name reason => "failed to serialize " ++ name ++ ": " ++ reason
  | io name reason => "storage I/O failed for " ++ name ++ ": " ++ reason
  | backend text => text

/-- Whether the cause is an object that was there already. -/
def isAlreadyExists : StoreError → Bool
  | alreadyExists .. => true
  | _ => false

/-- Whether the cause is an object that is not there. -/
def isNotFound : StoreError → Bool
  | notFound .. => true
  | _ => false

end StoreError

/-! ## Stores and events -/

/-- **A registry** of API service objects. -/
structure Registry (m : Type → Type) where
  /-- The object of a name. -/
  get : String → m (Except StoreError ApiService)
  /-- Adds an object whose name is not taken. -/
  create : ApiService → m (Except StoreError ApiService)

/-- **A store of the operator's record.** -/
structure StatusStore (m : Type → Type) where
  /-- The record. -/
  read : m (Except StoreError OperatorState)
  /-- Writes one condition of the record. -/
  upsert : OperatorCondition → m (Except StoreError Unit)

/-- Whether an event is good news. -/
inductive EventKind where
  | normal | warning
  deriving DecidableEq

namespace EventKind

/-- The name of a kind. -/
def name : EventKind → String
  | normal => "Normal"
  | warning => "Warning"

end EventKind

/-- **An event**: what happened, for people to read. -/
structure Event where
  kind : EventKind
  reason : String
  message : String
  deriving DecidableEq

/-- The same registry in another monad. -/
def Registry.lift {m n : Type → Type} (up : {α : Type} → m α → n α) (r : Registry m) :
    Registry n where
  get name := up (r.get name)
  create o := up (r.create o)

/-- The same status store in another monad. -/
def StatusStore.lift {m n : Type → Type} (up : {α : Type} → m α → n α) (s : StatusStore m) :
    StatusStore n where
  read := up s.read
  upsert c := up (s.upsert c)

end ApiAvailability
