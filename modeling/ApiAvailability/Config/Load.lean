import ApiAvailability.Config.Data
import ApiAvailability.Config.Valid
import ApiAvailability.Files.Path
import ApiAvailability.Files.System
import ApiAvailability.Toml.Statement
import ApiAvailability.Yaml.Value

/-!
# Config/Load — configurations from texts and files

The extension of a file's name tells its format, and that is looked at before the file is. A
configuration that has been read is checked before anyone gets it.
-/

namespace ApiAvailability

/-! ## Formats -/

open Files

/-- **The format of a configuration file.** -/
inductive Format where
  | toml
  | yaml
  deriving DecidableEq

namespace Format

/-- The name of a format. -/
def name : Format → String
  | toml => "TOML"
  | yaml => "YAML"

/-- The format that an extension stands for. -/
def ofExtension? (ext : String) : Option Format :=
  if ext = "toml" then some toml
  else if ext = "yaml" ∨ ext = "yml" then some yaml
  else none

/-- **The format of the file at a path**, if it is known. -/
def ofPath? (p : Path) : Option Format := p.extension?.bind ofExtension?

end Format

/-! ## Failures -/

/-- **Why a configuration cannot be had.** -/
inductive ConfigError where
  /-- The file cannot be read. -/
  | unreadable (path : Path) (reason : String)
  /-- The text is not one of its format, or holds no configuration. -/
  | malformed (format : Format) (reason : String)
  /-- The format of the file is not known. -/
  | unsupported (path : Path)
  /-- The configuration has a fault. -/
  | invalid (reason : String)
  deriving DecidableEq

/-- What is said of an error. -/
def ConfigError.message : ConfigError → String
  | unreadable path reason => "failed to read file '" ++ path.text ++ "': " ++ reason
  | malformed format reason => format.name ++ " parse error: " ++ reason
  | unsupported path =>
    "unsupported config format for '" ++ path.text ++ "' (expected .toml, .yaml or .yml)"
  | invalid reason => "invalid config: " ++ reason

/-! ## Reading -/

namespace Config

/-- What is said of a text that holds no configuration. -/
def unreadableText : String := "the text does not hold a configuration"

/-- The configuration that a text holds, whatever its faults. -/
def ofText? (format : Format) (text : String) : Option Config :=
  match format with
  | .toml => (Toml.Value.ofText? text).bind ofDatum?
  | .yaml => Yaml.Value.read? ofDatum? text

/-- The configuration, if it has no fault. -/
def checked (c : Config) : Except ConfigError Config :=
  match c.validate with
  | .ok () => .ok c
  | .error v => .error (.invalid v.message)

/-- **The configuration that a text holds.** -/
def ofText (format : Format) (text : String) : Except ConfigError Config :=
  match ofText? format text with
  | none => .error (.malformed format unreadableText)
  | some c => c.checked

variable {m : Type → Type} [Monad m] (fs : FileSystem m)

/-- **The configuration that a file holds.** -/
def load (path : Path) : m (Except ConfigError Config) := do
  match Format.ofPath? path with
  | none => return .error (.unsupported path)
  | some format =>
    match ← fs.read path with
    | .error e => return .error (.unreadable path e.message)
    | .ok bytes =>
      match String.fromUTF8? bytes with
      | none => return .error (.unreadable path FileError.notText.message)
      | some text => return ofText format text

end Config

end ApiAvailability
