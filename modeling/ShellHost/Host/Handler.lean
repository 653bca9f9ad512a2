import ShellHost.Message.Action
import ShellHost.Message.Dialog
import ShellHost.Settings.Basic

/-!
# Handlers

What the host calls to do the work: one handler for each action, and the picker that opens file dialogs. They change a
state `σ`, and each call returns, fails or panics (`Handled`). A panic is contained: it fails the call, not the host.
-/

namespace ShellHost

open Json

variable {σ τ : Type}

/-- What a panic carries. -/
inductive Panic where
  /-- A text. -/
  | text (s : String)
  /-- Something that is no text. -/
  | other
  deriving DecidableEq

/-- The panic in words. -/
def Panic.message : Panic → String
  | text s => s
  | other => "unknown panic"

/-- What became of a handler's work: `ε` are its errors and `α` its results. -/
inductive Handled (ε α : Type) where
  /-- It returned. -/
  | returned (a : α)
  /-- It failed. -/
  | failed (e : ε)
  /-- It panicked. -/
  | panicked (p : Panic)

/-- Why a handler of an action fails. -/
inductive HandlerError where
  /-- The settings cannot be had. -/
  | settings (e : SettingsError)
  /-- Any other reason. -/
  | failed (reason : String)
  deriving DecidableEq

/-- The error in words. -/
def HandlerError.message : HandlerError → String
  | settings e => e.message
  | failed reason => reason

/-- Why a picker fails. -/
structure PickerError where
  /-- The reason. -/
  reason : String
  deriving DecidableEq

/-- The error in words. -/
def PickerError.message (e : PickerError) : String := s!"file dialog error: {e.reason}"

/-- Why the host itself fails. -/
inductive HostError where
  /-- The settings cannot be had. -/
  | settings (e : SettingsError)
  /-- Input or output fails. -/
  | io (reason : String)
  /-- A text is not JSON. -/
  | json (e : ReadError)

/-- The error in words. -/
def HostError.message : HostError → String
  | settings e => e.message
  | io reason => reason
  | json e => e.message

/-- The handlers of the actions. -/
structure Handlers (σ : Type) where
  /-- Does what an action asks for. -/
  run : (a : Action) → σ → Handled HandlerError a.Response × σ

/-- What opens file dialogs. -/
structure Picker (σ : Type) where
  /-- Lets a person choose paths. -/
  pick : DialogRequest → σ → Handled PickerError (List RawPath) × σ

/-- A part `τ` of a state `σ`. -/
structure Part (σ τ : Type) where
  /-- The part. -/
  get : σ → τ
  /-- The state with another part. -/
  set : τ → σ → σ

/-- Handlers that change a part of a state. -/
def Handlers.on (h : Handlers τ) (p : Part σ τ) : Handlers σ where
  run a s :=
    let (r, t) := h.run a (p.get s)
    (r, p.set t s)

/-- The picker where nothing can be chosen. -/
def Picker.none : Picker σ where
  pick _ s := (.returned [], s)

end ShellHost
