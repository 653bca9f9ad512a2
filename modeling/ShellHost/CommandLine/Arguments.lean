import ShellHost.Settings.Environment

/-!
# Arguments

The command line has three options with a value, `--env`, `--config-dir` and `--log-level`, and the flags `--help` and
`--version`. A value stands behind an equals sign or is the next argument.

An option whose value is the next argument is only looked at when the option is over (`Scan.close`): at the next known
option, or at the end. Until then an unknown argument is the one that is objected to.
-/

namespace ShellHost

/-- What the command line says. -/
structure Arguments where
  /-- The environment. -/
  environment : String
  /-- The directory of the settings file, if it is named. -/
  settingsDirectory : Option String
  /-- How much is logged, if it is said. -/
  logLevel : Option String
  deriving DecidableEq

/-- Why there are no arguments to go on with. -/
inductive ArgumentError where
  /-- An argument that is none of the known ones. -/
  | unknownArgument
  /-- A value is missing, or empty where it must not be. -/
  | invalidValue
  /-- An option is given twice. -/
  | argumentConflict
  /-- A flag is given a value. -/
  | tooManyValues
  /-- Help is asked for. -/
  | displayHelp
  /-- The version is asked for. -/
  | displayVersion
  deriving DecidableEq

/-- The version of the program. -/
def version : String := "0.1.0"

/-- What is printed when the version is asked for. -/
def versionText : String := s!"ciska {version}\n"

/-- The code that the program exits with. -/
def ArgumentError.exitCode : ArgumentError → Nat
  | displayHelp => 0
  | displayVersion => 0
  | _ => 2

namespace Arguments

/-- An option with a value. -/
inductive OptionName where
  /-- The environment. -/
  | environment
  /-- The directory of the settings file. -/
  | settingsDirectory
  /-- How much is logged. -/
  | logLevel
  deriving DecidableEq

/-- The option with this name. -/
def OptionName.ofName? (name : String) : Option OptionName :=
  if name = "env" then some .environment
  else if name = "config-dir" then some .settingsDirectory
  else if name = "log-level" then some .logLevel
  else none

/-- How far the arguments are read. -/
structure Scan where
  /-- The values of the options that are over. -/
  values : List (OptionName × String) := []
  /-- An option that is not over, and its value, if it has come. -/
  begun : Option (OptionName × Option String) := none

namespace Scan

/-- Gives an option its value. -/
def store (s : Scan) (o : OptionName) (value : String) : Except ArgumentError Scan :=
  if (s.values.lookup o).isSome then .error .argumentConflict
  else if o = .settingsDirectory ∧ value = "" then .error .invalidValue
  else .ok { s with values := (o, value) :: s.values }

/-- Ends the option that is not over. -/
def close (s : Scan) : Except ArgumentError Scan :=
  match s.begun with
  | none => .ok s
  | some (_, none) => .error .invalidValue
  | some (o, some value) => { s with begun := none }.store o value

/-- Ends the option that is not over, and then stops for another reason. -/
def closeThen (s : Scan) (e : ArgumentError) : Except ArgumentError Scan :=
  match s.close with
  | .error e => .error e
  | .ok _ => .error e

/-- A long argument: its name, and its value if there is an equals sign. -/
def long (s : Scan) (name : String) (value : Option String) : Except ArgumentError Scan :=
  match OptionName.ofName? name with
  | some o =>
    match s.close with
    | .error e => .error e
    | .ok s =>
      match value with
      | some value => s.store o value
      | none => .ok { s with begun := some (o, none) }
  | none =>
    if name = "help" ∨ name = "version" then
      if value.isSome then .error .tooManyValues
      else s.closeThen (if name = "help" then .displayHelp else .displayVersion)
    else .error .unknownArgument

/-- An argument that begins with a single dash: flags of one letter, of which the first one counts. -/
def short (s : Scan) (flags : List Char) : Except ArgumentError Scan :=
  match flags with
  | 'h' :: _ => s.closeThen .displayHelp
  | 'V' :: _ => s.closeThen .displayVersion
  | _ => .error .unknownArgument

/-- An argument that is a value. -/
def plain (s : Scan) (value : String) : Except ArgumentError Scan :=
  match s.begun with
  | some (o, none) => .ok { s with begun := some (o, some value) }
  | _ => .error .unknownArgument

/-- The name before the first equals sign, and what is behind it. -/
def splitEquals (cs : List Char) : String × Option String :=
  let name := String.ofList (cs.takeWhile (· != '='))
  match cs.dropWhile (· != '=') with
  | [] => (name, none)
  | _ :: value => (name, some (String.ofList value))

/-- Reads the arguments. Behind two dashes alone no argument is known. -/
def read (s : Scan) : List String → Except ArgumentError Scan
  | [] => s.close
  | arg :: rest =>
    let next : Except ArgumentError Scan :=
      match arg.toList with
      | ['-', '-'] => if rest.isEmpty then .ok s else .error .unknownArgument
      | '-' :: '-' :: cs =>
        let (name, value) := splitEquals cs
        s.long name value
      | '-' :: c :: cs => s.short (c :: cs)
      | _ => s.plain arg
    match next with
    | .error e => .error e
    | .ok s => read s rest

end Scan

/-- The arguments of a command line, without the name of the program. The environment may be named by a variable, and
there is one that is meant otherwise. -/
def parse (args : List String) (named : Option String) : Except ArgumentError Arguments :=
  match Scan.read {} args with
  | .error e => .error e
  | .ok s =>
    .ok ⟨(s.values.lookup .environment).getD (named.getD defaultEnvironment),
      s.values.lookup .settingsDirectory, s.values.lookup .logLevel⟩

end Arguments

end ShellHost
