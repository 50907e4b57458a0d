/-!
# CommandLine/Arguments — what the program is told to do

    apiservice-operator [OPTIONS] --config <CONFIG> <COMMAND>

Options come before the command, each at most once, and take their value from the same argument or
the next. An argument that follows an option without a value is that value, unless it looks like an
option. What is wrong with a value is noticed when the next option or the end is reached, so that of
two mistakes the later one may be told.

- `Arguments.parse` — the arguments of a command, or why there are none
-/

namespace ApiAvailability.CommandLine

/-- **The commands.** -/
inductive Command where
  /-- One pass. -/
  | sync
  /-- Passes without end. -/
  | run
  /-- The condition that passes write. -/
  | status
  deriving DecidableEq

namespace Command

/-- All commands, in the order in which they are listed. -/
def all : List Command := [sync, run, status]

/-- The name of a command. -/
def name : Command → String
  | sync => "sync"
  | run => "run"
  | status => "status"

/-- The command of a name. -/
def ofName? (s : String) : Option Command := all.find? (·.name = s)

/-- The name of the command that tells about the others. -/
def help : String := "help"

end Command

/-- What options set. -/
inductive Setting where
  | config
  | stateDir
  | logLevel
  deriving DecidableEq

namespace Setting

/-- The setting of a long option. -/
def ofLong? (name : String) : Option Setting :=
  if name = "config" then some config
  else if name = "state-dir" then some stateDir
  else if name = "log-level" then some logLevel
  else none

/-- The setting of a short option. -/
def ofShort? : Char → Option Setting
  | 'c' => some config
  | 's' => some stateDir
  | _ => none

/-- Whether a value may be empty: a path may not. -/
def mayBeEmpty : Setting → Bool
  | logLevel => true
  | _ => false

end Setting

/-- **The arguments of a command.** -/
structure Arguments where
  config : String
  stateDir : String
  logLevel : Option String
  command : Command
  deriving DecidableEq

/-- **Why there is no command to carry out**: the arguments ask for something else, or are not
understood. -/
inductive UsageError where
  /-- They ask for help, in full or in short, about a command or the whole program. -/
  | helpAsked (full : Bool) (command : Option Command)
  | versionAsked
  | noArguments
  | missingCommand
  | missingConfig
  | unknownCommand
  | unknownArgument
  /-- A value is missing, or empty where it may not be. -/
  | badValue
  | repeatedOption
  /-- An option that takes none is given a value. -/
  | superfluousValue
  deriving DecidableEq

/-- How an argument looks. -/
inductive Shape where
  /-- Two hyphens. -/
  | separator
  /-- Two hyphens, a name, and perhaps an equals sign and a value. -/
  | long (name : String) (value : Option String)
  /-- A hyphen, a letter, and what follows that. -/
  | short (letter : Char) (rest : List Char)
  | plain
  deriving DecidableEq

/-- The shape of an argument. -/
def Shape.of (arg : String) : Shape :=
  match arg.toList with
  | ['-', '-'] => separator
  | '-' :: '-' :: cs =>
    long (String.ofList (cs.takeWhile (· ≠ '=')))
      (match cs.dropWhile (· ≠ '=') with
        | _ :: value => some (String.ofList value)
        | [] => none)
  | '-' :: c :: cs => short c cs
  | _ => plain

/-- The value that follows a letter in the same argument, without an equals sign in front. -/
def attached? : List Char → Option String
  | [] => none
  | '=' :: cs => some (String.ofList cs)
  | cs => some (String.ofList cs)

/-- **The options so far**: those that are settled, and the last one while it is not, with its value
if that has come. -/
structure Options where
  settled : List (Setting × String)
  pending : Option (Setting × Option String)
  deriving DecidableEq

namespace Options

/-- No options. -/
def empty : Options := ⟨[], none⟩

/-- Settled options and one more. -/
def add (settled : List (Setting × String)) (s : Setting) (value : String) :
    Except UsageError Options :=
  if (settled.lookup s).isSome then .error .repeatedOption
  else if value = "" ∧ !s.mayBeEmpty then .error .badValue
  else .ok ⟨(s, value) :: settled, none⟩

/-- The options with the last one settled. -/
def settle (o : Options) : Except UsageError Options :=
  match o.pending with
  | none => .ok o
  | some (_, none) => .error .badValue
  | some (s, some value) => add o.settled s value

/-- The options with another one, with its value if that is attached. -/
def give (o : Options) (s : Setting) (value : Option String) : Except UsageError Options := do
  let o ← o.settle
  match value with
  | some value => add o.settled s value
  | none => return { o with pending := some (s, none) }

/-- The option that still lacks its value. -/
def awaiting? (o : Options) : Option Setting :=
  match o.pending with
  | some (s, none) => some s
  | _ => none

/-- What is wrong when no command comes. -/
def withoutCommand (o : Options) : UsageError :=
  match o.settle with
  | .error e => e
  | .ok o => if o.settled = [] then .noArguments else .missingCommand

/-- What comes of asking for something other than a command: a fault of the last option is told
first. -/
def ask (o : Options) (e : UsageError) : UsageError :=
  match o.settle with
  | .error fault => fault
  | .ok _ => e

/-- The directory when none is given. -/
def defaultStateDir : String := ".apiservice-operator"

/-- The arguments of a command with these options. -/
def arguments (o : Options) (command : Command) : Except UsageError Arguments := do
  let o ← o.settle
  match o.settled.lookup .config with
  | none => throw .missingConfig
  | some config =>
    return {
      config
      stateDir := (o.settled.lookup .stateDir).getD defaultStateDir
      logLevel := o.settled.lookup .logLevel
      command }

end Options

/-- What is wrong with the arguments behind a command, if anything is: a command takes none, but a
separator may stand there. -/
def afterCommand? (command : Command) : List String → Option UsageError
  | [] => none
  | arg :: rest =>
    match Shape.of arg with
    | .separator => if rest = [] then none else some .unknownArgument
    | .long "help" none => some (.helpAsked true command)
    | .long "help" (some _) => some .superfluousValue
    | .short 'h' _ => some (.helpAsked false command)
    | _ => some .unknownArgument

/-- What comes of asking for help about the commands that are named. -/
def help : List String → UsageError
  | [] => .helpAsked true none
  | [name] =>
    match Command.ofName? name with
    | some command => .helpAsked true command
    | none => if name = Command.help then .helpAsked true none else .unknownCommand
  | _ => .unknownCommand

/-- What comes of the arguments behind a separator, where no option and no command can stand. -/
def afterSeparator (o : Options) : List String → UsageError
  | [] => o.withoutCommand
  | arg :: _ =>
    if (Command.ofName? arg).isSome ∨ arg = Command.help then .unknownArgument else .unknownCommand

/-- The arguments that go on behind the options `o`. -/
def parseFrom (o : Options) : List String → Except UsageError Arguments
  | [] => .error o.withoutCommand
  | arg :: rest =>
    match o.awaiting?, Command.ofName? arg with
    | none, some command =>
      match afterCommand? command rest with
      | some e => .error e
      | none => o.arguments command
    | awaiting, _ =>
      if awaiting = none ∧ arg = Command.help then .error (help rest)
      else
        match Shape.of arg with
        | .separator => .error (afterSeparator o rest)
        | .long name value =>
          match Setting.ofLong? name with
          | some s => do parseFrom (← o.give s value) rest
          | none =>
            if name = "help" ∨ name = "version" then
              if value.isSome then .error .superfluousValue
              else .error (o.ask (if name = "help" then .helpAsked true none else .versionAsked))
            else .error .unknownArgument
        | .short letter attached =>
          match Setting.ofShort? letter with
          | some s => do parseFrom (← o.give s (attached? attached)) rest
          | none =>
            if letter = 'h' then .error (o.ask (.helpAsked false none))
            else if letter = 'V' then .error (o.ask .versionAsked)
            else .error .unknownArgument
        | .plain =>
          match awaiting with
          | some s => parseFrom { o with pending := some (s, some arg) } rest
          | none => .error .unknownCommand

/-- **The arguments of the program.** -/
def Arguments.parse (args : List String) : Except UsageError Arguments :=
  parseFrom .empty args

/-- An option without a value takes the name of a command for one, but no other option. -/
example : Arguments.parse ["-c", "x", "--log-level", "sync"] = .error .missingCommand ∧
    Arguments.parse ["-c", "-s", "sync"] = .error .badValue ∧
    Arguments.parse ["-c=x", "--log-level=", "run", "-h"] = .error (.helpAsked false (some .run)) ∧
    Arguments.parse ["-cx", "run", "--"] = .ok ⟨"x", ".apiservice-operator", none, .run⟩ :=
  ⟨rfl, rfl, rfl, rfl⟩

end ApiAvailability.CommandLine
