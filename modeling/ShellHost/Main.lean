import ShellHost.CommandLine.Program

/-!
# The command line

The program at work on the standard streams. All that is decided is decided by `Program` and `LineLoop`; here bytes are
carried to them and away, and the disk that they work on is a picture of the real one (`Picture`), taken before each
piece of the input and carried out after it.
-/

namespace ShellHost

/-! ## The real disk -/

/-- What really stands at a path. What cannot be read is passed over; it is not written over either, since files are
only made where there is none. -/
def lookAt (p : Disk.Path) : IO (Option Disk.Node) := do
  match ← (IO.FS.readBinFile p).toBaseIO with
  | .ok bytes => return some (.file bytes.toList)
  | .error (.inappropriateType _ 21 _) => return some .directory
  | .error _ => return none

/-- The paths that a settings file depends on: the directories above it, from the outermost one on, and the file. -/
def SettingsFile.paths (f : SettingsFile) : List Disk.Path :=
  ((Disk.ancestors f.path.length f.path).filter (· != "")).reverse

/-- A picture of the real disk, as far as a settings file depends on it. -/
structure Picture where
  /-- The paths that are pictured. -/
  paths : List Disk.Path
  /-- What stands there. -/
  disk : Disk

/-- Takes a picture. -/
def Picture.take (f : SettingsFile) : IO Picture := do
  let mut disk : Disk := ⟨[], []⟩
  for p in f.paths do
    if let some node ← lookAt p then
      if let .ok (place, none) := disk.resolve .use p then
        disk := disk.put place node
  return ⟨f.paths, disk⟩

/-- Carries out what has changed since a picture was taken. -/
def Picture.carryOut (before : Picture) (after : Disk) : IO Unit := do
  for p in before.paths do
    match before.disk.find? p, after.find? p with
    | .error _, .ok .directory => if (← lookAt p).isNone then IO.FS.createDir p
    | .error _, .ok (.file bytes) => (← IO.FS.Handle.mk p .writeNew).write ⟨bytes.toArray⟩
    | _, _ => pure ()

/-- Why the settings cannot be had if a change of the disk fails. -/
def settingsErrorOf (e : IO.Error) : SettingsError := .unusable (toString e)

/-- A host that cannot have its settings. -/
def Host.withoutSettings (e : SettingsError) : Host Disk where
  handlers :=
    { run
        | .addNewProject, d => (.returned (), d)
        | .loadConfig, d => (.failed (.settings e), d) }
  picker := .none

/-! ## The streams -/

/-- The most bytes that are taken from the input at once. -/
def pieceLimit : Nat := 4096

/-- Reads up to a newline, but at most so many bytes, in front of those so far. There are none at the end of the input.
Reading byte by byte, it does not wait for more than a line. -/
def readPiece (input : IO.FS.Stream) : Nat → List UInt8 → IO (List UInt8)
  | 0, taken => return taken.reverse
  | room + 1, taken => do
    match (← input.read 1).toList with
    | [] => return taken.reverse
    | bs => if bs = [newlineByte] then return (bs ++ taken).reverse else readPiece input room (bs ++ taken)

/-- Writes what the loop has written. -/
def writeOut (output : IO.FS.Stream) (l : LineLoop Disk) : IO (LineLoop Disk) := do
  output.write ⟨l.sink.written.reverse.toArray⟩
  output.flush
  return { l with sink := {} }

/-- Serves a piece of the input, or its end. -/
def servePiece (f : SettingsFile) (bytes : List UInt8) (l : LineLoop Disk) : IO (LineLoop Disk) := do
  let before ← Picture.take f
  let serve (host : Host Disk) : LineLoop Disk :=
    let l := { l with host := host, state := before.disk }
    if bytes.isEmpty then l.close else l.feed bytes
  let served := serve (.shell f)
  match ← (before.carryOut served.state).toBaseIO with
  | .ok () => return served
  | .error e => return serve (.withoutSettings (settingsErrorOf e))

/-- Serves the input until it ends or a stream fails. -/
partial def serveStream (f : SettingsFile) (input output : IO.FS.Stream) (l : LineLoop Disk) : IO (LineLoop Disk) := do
  if l.ended.isSome then return l
  let bytes ← readPiece input pieceLimit []
  serveStream f input output (← writeOut output (← servePiece f bytes l))

/-- Serves the standard input on the standard output, and says how that ended. -/
def serveStandard (b : Program.Beginning) (f : SettingsFile) : IO (Option (Except HostError Unit)) := do
  let l := Program.loop f b.settings b.disk
  match ← (serveStream f (← IO.getStdin) (← IO.getStdout) l).toBaseIO with
  | .ok l => return l.ended
  | .error e => return some (.error (.io (toString e)))

/-- Writes a line of the log, if it is logged. -/
def LogFilter.write (filter : LogFilter) (line : LogLine) : IO Unit := do
  if filter.logs Program.target line.level then IO.eprintln line.render

/-- The program at its beginning, with the real settings file. -/
def Program.startHere (i : Invocation) (a : Arguments) : IO Program.Beginning := do
  match SettingsFile.ofArguments a i with
  | .error _ => return Program.start i a ⟨[], []⟩
  | .ok f =>
    let before ← Picture.take f
    let b := Program.start i a before.disk
    match ← (before.carryOut b.disk).toBaseIO with
    | .ok () => return b
    | .error e => return Program.startWith i a f (.error (settingsErrorOf e)) before.disk

/-- Runs the program here and now, and gives the exit code. -/
def Program.perform (i : Invocation) (a : Arguments) : IO UInt32 := do
  let b ← Program.startHere i a
  match b.filter with
  | none =>
    IO.eprintln "error: the log filter cannot be read"
    return Program.unreadableFilterCode.toUInt32
  | some filter =>
    for line in b.log do filter.write line
    match b.file with
    | none => return 1
    | some f =>
      let (last, code) := Program.lastLine (← serveStandard b f)
      filter.write last
      return code.toUInt32

/-- What is printed when help is asked for. -/
def helpText : String :=
  "Answers messages, one a line, from standard input on standard output.\n\n" ++
  "Usage: ciska [OPTIONS]\n\n" ++
  "Options:\n" ++
  "  --env <NAME>         the environment whose settings are used\n" ++
  "  --config-dir <DIR>   the directory that holds config.json\n" ++
  "  --log-level <LEVEL>  the log filter\n" ++
  "  -h, --help           print help\n" ++
  "  -V, --version        print the version\n"

/-- What is said when the arguments are not to go on with. -/
def ArgumentError.report (e : ArgumentError) : IO Unit :=
  match e with
  | displayHelp => IO.print helpText
  | displayVersion => IO.print versionText
  | unknownArgument => IO.eprintln "error: unexpected argument"
  | invalidValue => IO.eprintln "error: a value is required"
  | argumentConflict => IO.eprintln "error: the argument cannot be used multiple times"
  | tooManyValues => IO.eprintln "error: unexpected value"

end ShellHost

open ShellHost in
/-- The program. -/
def main (args : List String) : IO UInt32 := do
  match Arguments.parse args (← IO.getEnv "CISKA_ENV") with
  | .error e =>
    e.report
    return e.exitCode.toUInt32
  | .ok a =>
    let i : Invocation :=
      { args := args, environment := ← IO.getEnv "CISKA_ENV", logFilter := ← IO.getEnv "RUST_LOG"
        settingsHome := ← IO.getEnv "XDG_CONFIG_HOME", home := (← IO.getEnv "HOME").getD "/" }
    Program.perform i a
