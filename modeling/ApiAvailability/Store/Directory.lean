import ApiAvailability.ApiService.Json
import ApiAvailability.Files.System
import ApiAvailability.Json.Printer
import ApiAvailability.Json.Reader
import ApiAvailability.Store.Interface

/-!
# Store/Directory — a registry of files

A registry keeps each object in a file `<name>.json` of one directory. A name that is empty, starts
with a dot or holds a separator is refused before any file is looked at, so that no name leads out
of the directory, and two names never share a file.
-/

namespace ApiAvailability

open Files Json

/-- **A directory of objects.** -/
structure Directory where
  path : Path

/-- What is said of a document that cannot be read. -/
def malformed : String := "the document is malformed"

namespace Directory

/-- Whether an object may have the name. -/
def accepts (name : String) : Bool :=
  match name.toList with
  | [] => false
  | c :: cs => c ≠ '.' && !(c :: cs).contains '/' && !(c :: cs).contains '\\'

/-- The name of an object's file. -/
def fileName (name : String) : String := name ++ ".json"

/-- The file of an object. -/
def pathOf (d : Directory) (name : String) : Except StoreError Path :=
  if accepts name then .ok (d.path.join (fileName name))
  else .error (.backend ("invalid " ++ resourceName ++ " name \"" ++ name ++ "\""))

theorem fileName_inj {a b : String} (h : fileName a = fileName b) : a = b := by
  simpa [fileName, String.ext_iff] using h

variable {m : Type → Type} [Monad m] (fs : FileSystem m) (d : Directory)

/-- The object of a name. -/
def get (name : String) : m (Except StoreError ApiService) :=
  match d.pathOf name with
  | .error e => return .error e
  | .ok path => do
    match ← fs.read path with
    | .error .notFound => return .error (.notFound resourceName name)
    | .error e => return .error (.io name e.message)
    | .ok bytes =>
      match (Value.ofBytes? bytes).bind ApiService.ofJson? with
      | some o => return .ok o
      | none => return .error (.serialization name malformed)

/-- The text of an object's file. -/
def document (o : ApiService) : String := o.toJson.toText

/-- Adds an object whose file is not there, and the directory if it is missing. -/
def create (o : ApiService) : m (Except StoreError ApiService) :=
  match d.pathOf o.name with
  | .error e => return .error e
  | .ok path => do
    match ← fs.makeDirs d.path with
    | .error e => return .error (.io o.name e.message)
    | .ok () =>
      match ← fs.createNew path (document o).toUTF8 with
      | .error .fileExists => return .error (.alreadyExists resourceName o.name)
      | .error e => return .error (.io o.name e.message)
      | .ok () => return .ok o

/-- **The registry of a directory.** -/
def registry : Registry m := ⟨d.get fs, d.create fs⟩

end Directory

end ApiAvailability
