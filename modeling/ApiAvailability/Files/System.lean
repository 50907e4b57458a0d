import ApiAvailability.Files.Path

/-!
# Files/System — the file operations that the operator needs

A `FileSystem m` offers operations in a monad `m`, each of which answers an error instead of
failing; the error has the system's words. The operator is written against it, so that it works on
the files of a machine and on the pure trees of `Files/Tree` alike.

- `FileSystem.makeDirs` — a directory, and those above it that are missing
-/

namespace ApiAvailability.Files

/-! ## Refusals -/

/-- **Why a file operation is refused.** -/
inductive FileError where
  | notFound
  | fileExists
  | notDirectory
  | isDirectory
  | nameTooLong
  /-- A path may not hold the character zero. -/
  | nulInPath
  /-- The file is not text. -/
  | notText
  /-- Any other answer, in the system's words. -/
  | other (text : String)
  deriving DecidableEq

namespace FileError

/-- The system's words. -/
def message : FileError → String
  | notFound => "No such file or directory (os error 2)"
  | fileExists => "File exists (os error 17)"
  | notDirectory => "Not a directory (os error 20)"
  | isDirectory => "Is a directory (os error 21)"
  | nameTooLong => "File name too long (os error 36)"
  | nulInPath => "file name contained an unexpected NUL byte"
  | notText => "stream did not contain valid UTF-8"
  | other text => text

end FileError

/-! ## Operations -/

/-- **File operations** in a monad. -/
structure FileSystem (m : Type → Type) where
  /-- The content of a file. -/
  read : Path → m (Except FileError ByteArray)
  /-- Whether a path leads to a directory. -/
  isDirectory : Path → m Bool
  /-- Makes a directory in one that is there. -/
  makeDir : Path → m (Except FileError Unit)
  /-- Writes a file that must not be there yet. -/
  createNew : Path → ByteArray → m (Except FileError Unit)
  /-- Writes a file, in place of what it held. -/
  write : Path → ByteArray → m (Except FileError Unit)
  /-- Moves a file, in place of the one at its new path. -/
  rename : Path → Path → m (Except FileError Unit)

/-- The same operations in another monad. -/
def FileSystem.lift {m n : Type → Type} (up : {α : Type} → m α → n α) (fs : FileSystem m) :
    FileSystem n where
  read p := up (fs.read p)
  isDirectory p := up (fs.isDirectory p)
  makeDir p := up (fs.makeDir p)
  createNew p content := up (fs.createNew p content)
  write p content := up (fs.write p content)
  rename p q := up (fs.rename p q)

namespace FileSystem

variable {m : Type → Type} [Monad m] (fs : FileSystem m)

/-- Makes a directory in one that is there, unless it is there itself. -/
def ensureDir (p : Path) : m (Except FileError Unit) := do
  match ← fs.makeDir p with
  | .ok () => return .ok ()
  | .error e => return if ← fs.isDirectory p then .ok () else .error e

/-- Makes the first of some directories, each of which is in the next: at once if that can be done,
and otherwise after the next. -/
def makeDirsIn : List Path → m (Except FileError Unit)
  | [] => return .ok ()
  | p :: above => do
    if p.text = "" then return .ok ()
    match ← fs.ensureDir p with
    | .error .notFound =>
      match ← makeDirsIn above with
      | .ok () => fs.ensureDir p
      | .error e => return .error e
    | done => return done

/-- **Makes a directory**, and those above it, where they are missing. -/
def makeDirs (p : Path) : m (Except FileError Unit) := fs.makeDirsIn p.ancestors

end FileSystem

end ApiAvailability.Files
