import ApiAvailability.App
import ApiAvailability.CommandLine.Help
import ApiAvailability.Config.Load
import ApiAvailability.Json.Printer
import ApiAvailability.Operator.Json

/-!
# CommandLine/Program — from arguments to what is printed

The program reads a configuration, carries out one command on the files below a directory, and tells
what came of it: a result on the standard output and the code zero, or a failure with all its causes
on the error output and the code one. Arguments that are not understood have the code two.
-/

namespace ApiAvailability.CommandLine

open Files Json

/-- **What the program leaves behind** when it ends. -/
structure Report where
  code : Nat
  out : String
  err : String
  deriving DecidableEq

namespace Report

/-- A result. -/
def result (out : String) : Report := ⟨0, out, ""⟩

/-- The lines of a cause, those after the first as far in as the first. A cause that is not the only
one is numbered. -/
def causeLines (number : Option Nat) (cause : String) : List String :=
  let (front, indent) := match number with
    | some n =>
      let ds := Text.digits n
      (String.ofList (List.replicate (5 - ds.length) ' ' ++ ds) ++ ": ", "       ")
    | none => ("    ", "    ")
  match (cause.toList.splitOn '\n').map String.ofList with
  | [] => [front]
  | line :: rest => (front ++ line) :: rest.map (indent ++ ·)

/-- **A failure**, the outermost words first, then cause after cause. -/
def failure : List String → Report
  | [] => ⟨1, "", "Error: \n"⟩
  | [words] => ⟨1, "", "Error: " ++ words ++ "\n"⟩
  | words :: causes =>
    let lines := (causes.mapIdx fun i cause =>
      causeLines (if causes.length = 1 then none else some i) cause).flatten
    ⟨1, "", "Error: " ++ words ++ "\n\nCaused by:\n" ++ "\n".intercalate lines ++ "\n"⟩

/-- What comes of arguments that are no command. -/
def usage : UsageError → Report
  | .helpAsked full command => .result (helpText full command)
  | .versionAsked => .result versionText
  | .noArguments => ⟨2, "", helpText false none⟩
  | e => ⟨2, "", "error: " ++ e.about ++ "\n\n" ++ usageLine ++ "\n"⟩

end Report

/-- **What the program works with.** -/
structure Machine (m : Type → Type) where
  system : FileSystem m
  clock : m Time.Timestamp
  /-- Waits until so many milliseconds after the first pass of a loop. -/
  wait : Nat → m Unit
  /-- The milliseconds after which a loop is cut off. -/
  limit : Nat
  /-- Tells what happened. -/
  recordEvent : Event → m Unit

namespace Machine

variable {m : Type → Type} [Monad m] (machine : Machine m)

/-- Carries out a command. -/
def carryOut (app : App m) : Command → m Report
  | .sync => do
    match ← app.sync (← machine.clock) with
    | .error e => return .failure e.chain
    | .ok available => return .result (if available then "available\n" else "not available\n")
  | .run => do
    match ← app.run machine.limit machine.wait machine.clock with
    | .error e => return .failure e.chain
    | .ok _ => return .result ""
  | .status => do
    match ← app.status with
    | .error e => return .failure e.chain
    | .ok none => return .result ("no " ++ Verdict.conditionType ++ " condition recorded\n")
    | .ok (some c) => return .result (c.toJson.toText ++ "\n")

/-- **The program**, for arguments that are understood. -/
def start (args : Arguments) : m Report := do
  match ← Config.load machine.system ⟨args.config⟩ with
  | .error e => return .failure ["Failed to load config " ++ args.config, e.message]
  | .ok config =>
    match App.new machine.system machine.recordEvent config ⟨args.stateDir⟩ with
    | .error e => return .failure e.chain
    | .ok app => machine.carryOut app args.command

/-- **The program.** -/
def run (args : List String) : m Report :=
  match Arguments.parse args with
  | .error e => return .usage e
  | .ok args => machine.start args

end Machine

end ApiAvailability.CommandLine
