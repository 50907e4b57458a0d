import ApiAvailability.Config.Basic
import ApiAvailability.Text.Numeral

/-!
# Config/Valid — what a configuration has to satisfy

A configuration is checked for five faults, and the first one found is reported: no API service, a
blank version, no time between passes, an entry without group or version, and two entries of one
identity.

- `Config.validate` — the check
- `Config.mem_clashes_iff` — the clashing identities are those that occur at least twice
-/

namespace ApiAvailability

/-- **A fault of a configuration.** -/
inductive Violation where
  | noApiServices
  | blankOperandVersion
  | zeroInterval
  | blankEntry (name : String)
  | clashes (names : List String)
  deriving DecidableEq

namespace Violation

/-- The text of a fault. -/
def message : Violation → String
  | noApiServices => "api_services must not be empty"
  | blankOperandVersion => "operand_version must not be empty"
  | zeroInterval => "sync_interval_secs must be greater than zero"
  | blankEntry name => "api service entry '" ++ name ++ "' needs both group and version"
  | clashes names => "duplicate api services: " ++ ", ".intercalate names

end Violation

/-- Whether group or version of the entry is blank. -/
def Entry.isBlank (e : Entry) : Bool := Text.isBlank e.group || Text.isBlank e.version

namespace Config

/-- The identities that occur at least twice, each once, in ascending order. -/
def clashes (c : Config) : List String :=
  (c.names.filter fun n => 2 ≤ c.names.count n).eraseDups.mergeSort fun a b => a ≤ b

theorem mem_clashes_iff {c : Config} {n : String} : n ∈ c.clashes ↔ 2 ≤ c.names.count n := by
  simp only [clashes, List.mem_mergeSort, List.mem_eraseDups, List.mem_filter, decide_eq_true_eq,
    and_iff_right_iff_imp]
  exact fun h => List.count_pos_iff.1 (by omega)

/-- **The first fault of a configuration**, if it has any. -/
def violation? (c : Config) : Option Violation :=
  if c.apiServices = [] then some .noApiServices
  else if Text.isBlank c.operandVersion then some .blankOperandVersion
  else if c.syncIntervalSecs = 0 then some .zeroInterval
  else
    match c.apiServices.find? Entry.isBlank with
    | some e => some (.blankEntry e.name)
    | none => if c.clashes = [] then none else some (.clashes c.clashes)

/-- The check of a configuration. -/
def validate (c : Config) : Except Violation Unit :=
  match c.violation? with
  | some v => .error v
  | none => .ok ()

end Config

end ApiAvailability
