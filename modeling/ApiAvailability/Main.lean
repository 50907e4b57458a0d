import ApiAvailability.CommandLine.Program
import Std.Time.DateTime.Timestamp

/-!
# Main — the program on a machine

The file operations, the clock and the output of the machine it runs on. What the program does with
them is said in `CommandLine/Program`.
-/

namespace ApiAvailability.CommandLine

open Files

/-- The number of an answer of the system, which may come with its sign turned. -/
def answerNumber (code : UInt32) : Nat := min code.toNat (0 - code).toNat

/-- What an answer of the system means. -/
def fileError (e : IO.Error) : FileError :=
  match e with
  | .noFileOrDirectory _ _ _ => .notFound
  | .alreadyExists _ _ _ => .fileExists
  | .inappropriateType _ code _ =>
    match answerNumber code with
    | 20 => .notDirectory
    | 21 => .isDirectory
    | _ => .other (toString e)
  | .invalidArgument _ code _ =>
    if answerNumber code = 36 then .nameTooLong else .other (toString e)
  | e => .other (toString e)

/-- A file operation on a path, which may not hold the character zero. -/
def onPath {α : Type} (p : Path) (act : String → IO α) : IO (Except FileError α) := do
  if p.text.toList.contains '\x00' then return .error .nulInPath
  try return .ok (← act p.text)
  catch e => return .error (fileError e)

/-- The file operations of the machine. -/
def fileSystem : FileSystem IO where
  read p := onPath p fun path => IO.FS.readBinFile path
  isDirectory p := do
    -- the name of one dot is taken in a directory, and nowhere else
    match ← onPath p fun path => IO.FS.createDir (path ++ "/.") with
    | .error .fileExists => return true
    | _ => return false
  makeDir p := onPath p fun path => IO.FS.createDir path
  createNew p content := onPath p fun path => do
    (← IO.FS.Handle.mk path .writeNew).write content
  write p content := onPath p fun path => IO.FS.writeBinFile path content
  rename p q := onPath p fun path => IO.FS.rename path q.text

/-- The time on the clock of the machine. -/
def clock : IO Time.Timestamp := do
  let now ← Std.Time.Timestamp.now
  match Time.Timestamp.ofNanos? now.toNanosecondsSinceUnixEpoch.val with
  | some t => return t
  | none => throw (IO.userError "the clock shows a time that cannot be told")

/-- Waits until `due` milliseconds after `start`. -/
def waitUntil (start due : Nat) : IO Unit := do
  let now ← IO.monoMsNow
  IO.sleep (UInt32.ofNat (min (start + due - now) (UInt32.size - 1)))

/-- Tells what happened on the error output. -/
def log (e : Event) : IO Unit := IO.eprintln (e.kind.name ++ " " ++ e.reason ++ ": " ++ e.message)

/-- Whether nothing is to be logged. -/
def isSilent (args : List String) : IO Bool := do
  let asked := match Arguments.parse args with
    | .ok args => args.logLevel
    | .error _ => none
  return asked.or (← IO.getEnv "RUST_LOG") = some "off"

end ApiAvailability.CommandLine

open ApiAvailability.CommandLine in
/-- Runs the program. -/
def main (args : List String) : IO UInt32 := do
  let start ← IO.monoMsNow
  let silent ← isSilent args
  let machine : Machine IO := {
    system := fileSystem
    clock := clock
    wait := waitUntil start
    limit := UInt64.size * 1000
    recordEvent := fun e => if silent then pure () else log e }
  let report ← machine.run args
  IO.print report.out
  IO.eprint report.err
  return UInt32.ofNat report.code
