import ShellHost.Json.Record
import ShellHost.Text.Blank

/-!
# Settings

What the host can be told by its settings file: how much it logs and how many events it keeps. Other keys are kept as
they are. `check` says what is wrong with settings that could be read.
-/

namespace ShellHost

open Json

/-- What is wrong with a settings file. -/
inductive SettingsError where
  /-- There is no file. -/
  | notFound (path : String)
  /-- The file cannot be made, read or written, or is not of the form of settings. -/
  | unusable (reason : String)
  /-- The settings are out of range. -/
  | invalid (reason : String)
  deriving DecidableEq

/-- The error in words. -/
def SettingsError.message : SettingsError → String
  | notFound path => s!"config file not found: {path}"
  | unusable reason => s!"config parse error: {reason}"
  | invalid reason => s!"config validation error: {reason}"

/-- The settings of the host. -/
structure Settings where
  /-- How much is logged, if it is said. -/
  logLevel : Option String := none
  /-- How many events are kept for a listener. -/
  eventCapacity : UInt32 := 64
  /-- The other keys, in ascending order. -/
  extra : List (String × Value) := []

namespace Settings

/-- The settings as JSON: what is known, then the other keys. -/
def toValue (s : Settings) : Value :=
  .object ((s.logLevel.map fun l => ("log_level", Value.string l)).toList ++
    ("event_capacity", .ofUInt64 s.eventCapacity.toUInt64) :: s.extra)

/-- The text of a settings file. -/
def render (s : Settings) : String := s.toValue.renderPretty

/-- The members of settings that have been read. -/
structure Draft where
  /-- The member `log_level`. -/
  logLevel : Option (Option String) := none
  /-- The member `event_capacity`. -/
  eventCapacity : Option UInt32 := none
  /-- The other members, their keys descending. -/
  extra : List (String × Value) := []

/-- The members of settings. Each may be missing. -/
def record : Record Draft Settings where
  name := "struct AppConfig"
  fields := [
    field "log_level" Draft.logLevel (fun a d => { d with logLevel := some a }) (option string),
    field "event_capacity" Draft.eventCapacity (fun a d => { d with eventCapacity := some a }) uint32]
  empty := {}
  finish d := .ok ⟨d.logLevel.getD none, d.eventCapacity.getD 64, d.extra.reverse⟩
  others := .kept fun name v d => { d with extra := insertDescending name v d.extra }
  fromArray := false

/-- Reads settings. -/
def decoder : Decoder Settings := record.decoder

/-- The names of log levels. -/
def levels : List String := ["trace", "debug", "info", "warn", "error", "off"]

/-- What is wrong with a capacity. -/
def capacityProblems (n : UInt32) : List String :=
  if 1 ≤ n ∧ n ≤ 4096 then [] else [s!"event_capacity = {n.toNat} is out of range [1, 4096]"]

/-- What is wrong with a log level. One with an equals sign is left to the log. -/
def levelProblems (level : String) : List String :=
  let cs := Text.trim level.toList
  if cs.isEmpty then ["log_level must not be empty"]
  else if cs.contains '=' ∨ levels.contains (String.ofList (cs.map Char.toLower)) then []
  else [s!"log_level = {String.ofList cs} is not a known level"]

/-- What is wrong with settings. -/
def problems (s : Settings) : List String :=
  capacityProblems s.eventCapacity ++ (s.logLevel.map levelProblems).getD []

/-- Objects to settings that are out of range. -/
def check (s : Settings) : Except SettingsError Unit :=
  let ps := s.problems
  if ps.isEmpty then .ok () else .error (.invalid (String.intercalate "; " ps))

end Settings

end ShellHost
