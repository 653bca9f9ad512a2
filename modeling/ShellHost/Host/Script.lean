import ShellHost.Host.Basic
import ShellHost.Disk.Basic

/-!
# Handlers that follow a script

To try out a host, its handlers and its picker can be told beforehand what to do: each call takes the next line of a
`Script`, and the last line is used again and again. A `Desk` is what such a host changes: the scripts, a disk, and the
dialogs that were asked for.
-/

namespace ShellHost

/-- What is to happen at the first call, the second, and so on; the last line holds for all further calls. -/
abbrev Script (α : Type) := List α

/-- The next line, or `default` in an empty script, and the script after it. -/
def Script.next {α : Type} (default : α) : Script α → α × Script α
  | [] => (default, [])
  | [a] => (a, [a])
  | a :: rest => (a, rest)

/-- What a scripted host changes. -/
structure Desk where
  /-- The disk. -/
  disk : Disk
  /-- What becomes of new projects. -/
  adds : Script (Handled HandlerError Unit) := []
  /-- What becomes of reading the settings. -/
  loads : Script (Handled HandlerError Json.Value) := []
  /-- What becomes of dialogs. -/
  picks : Script (Handled PickerError (List RawPath)) := []
  /-- The dialogs that were asked for, the last one first. -/
  asked : List DialogRequest := []

namespace Desk

/-- The disk of a desk. -/
def diskPart : Part Desk Disk := ⟨disk, fun d s => { s with disk := d }⟩

/-- Handlers that follow the scripts. An empty script answers an empty object. -/
def handlers : Handlers Desk where
  run
    | .addNewProject, s =>
      let (r, rest) := Script.next (.returned ()) s.adds
      (r, { s with adds := rest })
    | .loadConfig, s =>
      let (r, rest) := Script.next (.returned (.object [])) s.loads
      (r, { s with loads := rest })

/-- A picker that notes what it is asked for and follows the script. An empty script chooses nothing. -/
def picker : Picker Desk where
  pick request s :=
    let (r, rest) := Script.next (.returned []) s.picks
    (r, { s with picks := rest, asked := request :: s.asked })

end Desk

end ShellHost
