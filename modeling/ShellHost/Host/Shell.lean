import ShellHost.Host.Basic
import ShellHost.Settings.File

/-!
# The handlers of the shell

A new project needs nothing as yet, and the settings are those of the settings file, which is made if there is none.
-/

namespace ShellHost

/-- The handlers that work on a settings file. -/
def Handlers.shell (file : SettingsFile) : Handlers Disk where
  run
    | .addNewProject, d => (.returned (), d)
    | .loadConfig, d =>
      match file.loadOrCreateValue d with
      | (.ok v, d) => (.returned v, d)
      | (.error e, d) => (.failed (.settings e), d)

/-- The host of the program: the handlers of the shell, and no dialogs. -/
def Host.shell (file : SettingsFile) : Host Disk := ⟨.shell file, .none⟩

end ShellHost
