import ApiAvailability.CommandLine.Arguments

/-!
# CommandLine/Help — what the program tells about itself
-/

namespace ApiAvailability.CommandLine

/-- The name of the program. -/
def programName : String := "apiservice-operator"

/-- The name and the version of the program. -/
def versionText : String := programName ++ " 0.1.0\n"

namespace Command

/-- What a command does. -/
def about : Command → String
  | sync => "Run a single reconciliation pass"
  | run => "Reconcile on an interval until Ctrl+C"
  | status => "Print the stored APIServicesAvailable condition"

end Command

/-- **An option** as it is told about: its letter, its name, its value, and what it is for. -/
structure OptionEntry where
  letter : Option Char
  name : String
  value : Option String
  about : String
  dflt : Option String

namespace OptionEntry

/-- The option as it is written. -/
def written (e : OptionEntry) : String :=
  (match e.letter with
    | some c => "-" ++ String.singleton c ++ ", "
    | none => "    ") ++ "--" ++ e.name ++ ((e.value.map fun v => " <" ++ v ++ ">").getD "")

/-- The lines about an option, in full. -/
def fullLines (e : OptionEntry) : List String :=
  ["  " ++ e.written, "          " ++ e.about] ++
    (match e.dflt with
      | some d => ["          ", "          [default: " ++ d ++ "]"]
      | none => []) ++ [""]

/-- The line about an option, in short, with the text from column `width` on. -/
def shortLine (e : OptionEntry) (width : Nat) : String :=
  "  " ++ e.written ++ String.ofList (List.replicate (width - e.written.length) ' ') ++ e.about ++
    ((e.dflt.map fun d => " [default: " ++ d ++ "]").getD "")

end OptionEntry

/-- The options that take a value. -/
def valueOptions : List OptionEntry :=
  [⟨some 'c', "config", some "CONFIG", "Operator config file (.toml, .yaml or .yml)", none⟩,
    ⟨some 's', "state-dir", some "STATE_DIR",
      "Directory holding the APIService objects and the operator status",
      some Options.defaultStateDir⟩,
    ⟨none, "log-level", some "LOG_LEVEL",
      "Log filter, overrides RUST_LOG (e.g. \"debug\" or \"apiservice_reconciler=trace\")", none⟩]

/-- The options that ask for something, and where more can be read. -/
def askingOptions (help : String) : List OptionEntry :=
  [⟨some 'h', "help", none, help, none⟩, ⟨some 'V', "version", none, "Print version", none⟩]

/-- The lines about the commands. -/
def commandLines : List String :=
  let entry (name about : String) : String :=
    "  " ++ name ++ String.ofList (List.replicate (8 - name.length) ' ') ++ about
  Command.all.map (fun c => entry c.name c.about) ++
    [entry Command.help "Print this message or the help of the given subcommand(s)"]

/-- The line about the arguments. -/
def usageLine : String := "Usage: " ++ programName ++ " [OPTIONS] --config <CONFIG> <COMMAND>"

/-- What the program does, in short. -/
def summary : String :=
  "Keeps aggregated APIServices registered and reports their availability"

/-- What the program does, in full. -/
def description : String :=
  "Creates every declared APIService that is missing, reads each one back, and writes a single " ++
    "APIServicesAvailable condition to the operator status."

/-- The lines of a help text. -/
def helpLines (full : Bool) : Option Command → List String
  | some c =>
    [c.about, "", "Usage: " ++ programName ++ " --config <CONFIG> " ++ c.name, "", "Options:",
      "  -h, --help  Print help"]
  | none =>
    [if full then description else summary, "", usageLine, "", "Commands:"] ++ commandLines ++
      ["", "Options:"] ++
      if full then
        ((valueOptions ++ askingOptions "Print help (see a summary with '-h')").flatMap
          OptionEntry.fullLines).dropLast
      else
        (valueOptions ++ askingOptions "Print help (see more with '--help')").map (·.shortLine 29)

/-- **A help text.** -/
def helpText (full : Bool) (command : Option Command) : String :=
  "\n".intercalate (helpLines full command) ++ "\n"

/-- What is wrong with arguments. -/
def UsageError.about : UsageError → String
  | missingCommand => "a command is required"
  | missingConfig => "the option --config is required"
  | unknownCommand => "there is no such command"
  | unknownArgument => "an argument is not understood"
  | badValue => "an option lacks its value"
  | repeatedOption => "an option is given twice"
  | superfluousValue => "an option is given a value that it does not take"
  | _ => ""

end ApiAvailability.CommandLine
