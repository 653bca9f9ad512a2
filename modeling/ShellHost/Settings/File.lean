import ShellHost.Disk.Basic
import ShellHost.Settings.Environment

/-!
# The settings file

Settings are kept in one file of a directory. The file is made when it is first needed, with no settings in it, if nothing
is found at its path. This is asked before the directories of the path are made, so a file that only they lead to is
written over. Otherwise `save` alone replaces a file, and only by settings that pass `Settings.check`.

An operation gives its result together with the disk after it, because a directory that was made stays even if the
file cannot be made.
-/

namespace ShellHost

open Json

/-- A file that holds settings. -/
structure SettingsFile where
  /-- Where the file is. -/
  path : Disk.Path
  deriving DecidableEq

namespace SettingsFile

/-- The directory of this program among those of others. -/
def programName : String := "ciska"

/-- The name of every settings file. -/
def fileName : String := "config.json"

/-- The settings file of a directory. -/
def inDirectory (dir : Disk.Path) : SettingsFile := ⟨Disk.join dir fileName⟩

/-- The directory that programs keep their settings in: the one that is named, if it is an absolute path, or the usual
one in the home directory. -/
def settingsHome (named : Option Disk.Path) (home : Disk.Path) : Disk.Path :=
  match named with
  | some dir => if Disk.isAbsolute dir then dir else Disk.join home ".config"
  | none => Disk.join home ".config"

/-- The settings file of an environment. -/
def ofEnvironment (base : Disk.Path) (environment : String) : Except SettingsError SettingsFile :=
  match checkEnvironment environment with
  | .error e => .error e
  | .ok () => .ok (inDirectory (Disk.join (Disk.join base programName) environment))

/-- The bytes of settings that say nothing. -/
def blankContent : List UInt8 := Utf8.encodeString "\x7b\x7d"

/-- Makes the directory of the file, as far as it does not exist. -/
def makeParent (f : SettingsFile) (d : Disk) : Except SettingsError Unit × Disk :=
  match Disk.parent? f.path with
  | none => (.ok (), d)
  | some dir =>
    match d.makeDirectories dir with
    | (.ok (), d) => (.ok (), d)
    | (.error e, d) => (.error (.unusable s!"failed to create config directory {dir}: {e.message}"), d)

/-- Makes the file if there is none, and says whether it did. -/
def ensureExists (f : SettingsFile) (d : Disk) : Except SettingsError Bool × Disk :=
  if d.exists? f.path then (.ok false, d)
  else
    match f.makeParent d with
    | (.error e, d) => (.error e, d)
    | (.ok (), d) =>
      match d.write f.path blankContent with
      | .ok d => (.ok true, d)
      | .error e => (.error (.unusable s!"failed to write default config to {f.path}: {e.message}"), d)

/-- The text of the file. -/
def readText (f : SettingsFile) (d : Disk) : Except String String :=
  match d.read f.path with
  | .error e => .error e.message
  | .ok bytes =>
    match Utf8.decode bytes with
    | .ok cs => .ok (String.ofList cs)
    | .error _ => .error "stream did not contain valid UTF-8"

/-- The file as JSON. -/
def readValue (f : SettingsFile) (d : Disk) : Except SettingsError Value :=
  match f.readText d with
  | .error e => .error (.unusable s!"failed to read {f.path}: {e}")
  | .ok text => (Value.parse text).mapError fun e => .unusable s!"failed to parse JSON: {e.message}"

/-- The settings that a value holds, if they are in range. -/
def settingsOf (v : Value) : Except SettingsError Settings :=
  match Settings.decoder.convert v with
  | .error e => .error (.unusable s!"invalid config: {e.message}")
  | .ok s =>
    match s.check with
    | .error e => .error e
    | .ok () => .ok s

/-- The file as JSON; it is made if there is none. -/
def loadOrCreateValue (f : SettingsFile) (d : Disk) : Except SettingsError Value × Disk :=
  match f.ensureExists d with
  | (.error e, d) => (.error e, d)
  | (.ok _, d) => (f.readValue d, d)

/-- The settings of the file; it is made if there is none. -/
def loadOrCreate (f : SettingsFile) (d : Disk) : Except SettingsError Settings × Disk :=
  match f.loadOrCreateValue d with
  | (.error e, d) => (.error e, d)
  | (.ok v, d) => (settingsOf v, d)

/-- The settings of the file, which has to be there. -/
def load (f : SettingsFile) (d : Disk) : Except SettingsError Settings :=
  if d.exists? f.path then
    match f.readValue d with
    | .error e => .error e
    | .ok v => settingsOf v
  else .error (.notFound f.path)

/-- Writes settings to the file, if they are in range. -/
def save (f : SettingsFile) (s : Settings) (d : Disk) : Except SettingsError Unit × Disk :=
  match s.check with
  | .error e => (.error e, d)
  | .ok () =>
    match f.makeParent d with
    | (.error e, d) => (.error e, d)
    | (.ok (), d) =>
      match d.write f.path (Utf8.encodeString s.render) with
      | .ok d => (.ok (), d)
      | .error e => (.error (.unusable s!"failed to write config to {f.path}: {e.message}"), d)

end SettingsFile

end ShellHost
