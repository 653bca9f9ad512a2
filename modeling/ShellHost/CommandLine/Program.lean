import ShellHost.CommandLine.Arguments
import ShellHost.CommandLine.LogLine
import ShellHost.CommandLine.Pattern
import ShellHost.Host.Shell
import ShellHost.Lines.Loop

/-!
# The program

From the arguments to the exit code: `Program.start` finds the settings file and reads it, `Program.serve` answers the
lines of the input, and `Program.run` does both. A name that is no environment's keeps the program from serving, and so
does a log filter that cannot be read at all. A settings file that cannot be used does not, and the usual settings hold
then.
-/

namespace ShellHost

/-- What the program is started with. -/
structure Invocation where
  /-- The arguments, without the name of the program. -/
  args : List String
  /-- The environment that a variable names. -/
  environment : Option String := none
  /-- The log filter that a variable names. -/
  logFilter : Option String := none
  /-- The directory for settings that a variable names. -/
  settingsHome : Option String := none
  /-- The home directory. -/
  home : String
  /-- Which values a directive of the log filter may demand of a field. The library that writes the log decides that. -/
  matchable : List Char → Bool := Pattern.isMatchable

namespace SettingsFile

/-- The settings to start with, and whether the file was made for them. -/
def loadAtStart (f : SettingsFile) (d : Disk) : Except SettingsError (Settings × Bool) × Disk :=
  match f.ensureExists d with
  | (.error e, d) => (.error e, d)
  | (.ok created, d) => ((f.load d).map (·, created), d)

/-- The settings file that the arguments mean. -/
def ofArguments (a : Arguments) (i : Invocation) : Except SettingsError SettingsFile :=
  match a.settingsDirectory with
  | some dir => .ok (inDirectory dir)
  | none => ofEnvironment (settingsHome i.settingsHome i.home) a.environment

end SettingsFile

namespace Program

/-- The name of this program in its log. -/
def target : String := "ciska"

/-- The program before it serves. -/
structure Beginning where
  /-- The lines for the log. -/
  log : List LogLine
  /-- Which of them are logged; `none` if that cannot be made out, and the program ends here. -/
  filter : Option LogFilter
  /-- The settings file, unless the program ends here. -/
  file : Option SettingsFile
  /-- The settings. -/
  settings : Settings
  /-- The disk, where the settings file may have been made. -/
  disk : Disk

/-- What the log says about the settings. -/
def settingsLine (f : SettingsFile) : Except SettingsError (Settings × Bool) → LogLine
  | .ok (_, true) => ⟨.info, s!"Created default config at {f.path}"⟩
  | .ok (_, false) => ⟨.info, s!"Config at {f.path}"⟩
  | .error e => ⟨.warn, s!"Config load failed, using defaults: {e.message}"⟩

/-- The log filter: that of the variable, or else the one that the arguments or the settings name. -/
def filterOf (i : Invocation) (a : Arguments) (s : Option Settings) : Option LogFilter :=
  let level := a.logLevel.or (s.bind Settings.logLevel)
  LogFilter.ofTexts i.matchable (i.logFilter.toList ++ level.toList)

/-- The first line of the log. -/
def helloLine (a : Arguments) : LogLine := ⟨.info, s!"Ciska v{version} starting (env: {a.environment})"⟩

/-- The program when its settings file has been read, or could not be. -/
def startWith (i : Invocation) (a : Arguments) (f : SettingsFile)
    (loaded : Except SettingsError (Settings × Bool)) (d : Disk) : Beginning :=
  let settings := loaded.toOption.map Prod.fst
  ⟨[helloLine a, settingsLine f loaded], filterOf i a settings, some f, settings.getD {}, d⟩

/-- Finds the settings file and reads it. -/
def start (i : Invocation) (a : Arguments) (d : Disk) : Beginning :=
  match SettingsFile.ofArguments a i with
  | .error e =>
    ⟨[helloLine a, ⟨.error, s!"cannot locate config: {e.message}"⟩], filterOf i a none, none, {}, d⟩
  | .ok f =>
    let (loaded, d) := f.loadAtStart d
    startWith i a f loaded d

/-- The loop that serves, at its beginning. -/
def loop (f : SettingsFile) (s : Settings) (d : Disk) : LineLoop Disk :=
  .start (.shell f) d lineLimit (.ofCapacity s.eventCapacity.toNat)

/-- The exit code where the log filter cannot be read at all. -/
def unreadableFilterCode : Nat := 101

/-- What the program leaves behind. -/
structure Finish where
  /-- The exit code. -/
  code : Nat
  /-- What was written to the output. -/
  output : List UInt8
  /-- The lines of the log that were logged. -/
  log : List LogLine
  /-- The disk. -/
  disk : Disk
  /-- The loop that served, as it ended; `none` if the program ended before it began to serve. -/
  loop : Option (LineLoop Disk)

/-- The last line of the log, and the exit code. -/
def lastLine (ended : Option (Except HostError Unit)) : LogLine × Nat :=
  match ended with
  | some (.error e) => (⟨.error, s!"Host loop error: {e.message}"⟩, 1)
  | _ => (⟨.info, "Shutdown complete"⟩, 0)

/-- Serves an input. -/
def serve (f : SettingsFile) (s : Settings) (input : List UInt8) (d : Disk) : LineLoop Disk :=
  ((loop f s d).feed input).close

/-- Runs the program on an input. -/
def run (i : Invocation) (input : List UInt8) (d : Disk) : Except ArgumentError Finish :=
  match Arguments.parse i.args i.environment with
  | .error e => .error e
  | .ok a =>
    let b := start i a d
    match b.filter with
    | none => .ok ⟨unreadableFilterCode, [], [], b.disk, none⟩
    | some filter =>
      let logged (lines : List LogLine) := lines.filter fun l => filter.logs target l.level
      match b.file with
      | none => .ok ⟨1, [], logged b.log, b.disk, none⟩
      | some f =>
        let l := serve f b.settings input b.disk
        let (last, code) := lastLine l.ended
        .ok ⟨code, l.sink.written.reverse, logged (b.log ++ [last]), l.state, some l⟩

end Program

end ShellHost
