import ApiAvailability.Files.System
import ApiAvailability.Json.Printer
import ApiAvailability.Json.Reader
import ApiAvailability.Operator.Json
import ApiAvailability.Store.Directory

/-!
# Store/StatusFile — the operator's record in a file

The record is one JSON document. A file that is missing stands for the initial record. A write reads
the record, changes it, writes it to a temporary file beside the first and moves that into its
place, so that the file always holds a whole document.
-/

namespace ApiAvailability

open Files Json

/-- **The file of the operator's record.** -/
structure StatusFile where
  path : Path

namespace StatusFile

/-- The file that is written before it takes its place. -/
def temporary (s : StatusFile) : Path := s.path.withExtension "json.tmp"

/-- The text of a record's file. -/
def document (state : OperatorState) : String := state.toJson.toText

variable {m : Type → Type} [Monad m] (fs : FileSystem m) (s : StatusFile)

/-- What is said when the system refuses. -/
def refused (e : FileError) : StoreError := .io s.path.text e.message

/-- The record that the file holds. -/
def load : m (Except StoreError OperatorState) := do
  match ← fs.read s.path with
  | .error .notFound => return .ok .initial
  | .error e => return .error (s.refused e)
  | .ok bytes =>
    match (Value.ofBytes? bytes).bind OperatorState.ofJson? with
    | some state => return .ok state
    | none => return .error (.serialization s.path.text malformed)

/-- Makes the directory that the file stands in. -/
def makeParent : m (Except FileError Unit) :=
  match s.path.parent? with
  | some dir => fs.makeDirs dir
  | none => return .ok ()

/-- Puts a record into the file. -/
def save (state : OperatorState) : m (Except StoreError Unit) := do
  match ← s.makeParent fs with
  | .error e => return .error (s.refused e)
  | .ok () =>
    match ← fs.write s.temporary (document state).toUTF8 with
    | .error e => return .error (s.refused e)
    | .ok () =>
      match ← fs.rename s.temporary s.path with
      | .error e => return .error (s.refused e)
      | .ok () => return .ok ()

/-- Reads the record, changes it and puts it back. -/
def update (change : OperatorState → OperatorState) : m (Except StoreError Unit) := do
  match ← s.load fs with
  | .error e => return .error e
  | .ok state => s.save fs (change state)

/-- **The status store of a file.** -/
def store : StatusStore m := ⟨s.load fs, fun c => s.update fs (·.setCondition c)⟩

/-- Records the version of a component. That it cannot be recorded is no failure. -/
def setVersion (component version : String) : m Unit := do
  let _ ← s.update fs (·.setVersion component version)

end StatusFile

end ApiAvailability
