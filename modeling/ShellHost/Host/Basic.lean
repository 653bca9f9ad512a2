import ShellHost.Host.Dispatch
import ShellHost.Message.Envelope

/-!
# The host

`Host.route` answers an envelope, and `Host.handleText` answers any text at all: what is no envelope gets a reply, too,
with the number that can still be made out.
-/

namespace ShellHost

open Json

variable {σ : Type}

/-- A host: what does its actions, and what opens its dialogs. -/
structure Host (σ : Type) where
  /-- The handlers of the actions. -/
  handlers : Handlers σ
  /-- What opens file dialogs. -/
  picker : Picker σ

namespace Host

/-- The outcome of a dialog. A path that is no text is given as far as it is one. -/
def dialogOutcome : Handled PickerError (List RawPath) → Outcome
  | .returned paths => .ok (.array (paths.map fun p => .string (String.ofList (Utf8.decodeLossy p))))
  | .failed e => .error (.handlerFailure dialogChannel e.message)
  | .panicked p => .error (.handlerFailure dialogChannel s!"panicked: {p.message}")

/-- The dialog that a payload asks for. No payload at all asks for one that says nothing. -/
def dialogRequest (payload : Value) : Except ReadError DialogRequest :=
  match payload with
  | .null => .ok {}
  | v => DialogRequest.decoder.convert v

/-- Opens the dialog that a payload asks for. -/
def openDialog (h : Host σ) (payload : Value) (s : σ) : Outcome × σ :=
  match dialogRequest payload with
  | .error e => (.error (.invalidRequest dialogChannel e.message), s)
  | .ok request =>
    let (r, s) := h.picker.pick request s
    (dialogOutcome r, s)

/-- What the payload of a channel comes to. -/
def answer (h : Host σ) (channel : String) (payload : Value) (s : σ) : Outcome × σ :=
  if channel = messageChannel then h.handlers.dispatchMessage payload s
  else if channel = dialogChannel then h.openDialog payload s
  else (.error (.unknownChannel channel), s)

/-- The reply to an envelope. -/
def route (h : Host σ) (e : Envelope) (s : σ) : Reply × σ :=
  let (o, s) := h.answer e.channel e.payload s
  (⟨e.id, o⟩, s)

/-- The number of a text that is no envelope: its member `id`, if that is one, and zero otherwise. -/
def salvageId (text : String) : UInt64 :=
  match Value.parse text with
  | .error _ => 0
  | .ok v => ((v.get? "id").bind Value.toUInt64?).getD 0

/-- The reply to a text. -/
def replyTo (h : Host σ) (text : String) (s : σ) : Reply × σ :=
  match Envelope.parse text with
  | .ok e => h.route e s
  | .error e => (⟨salvageId text, .error (.malformedMessage e.message)⟩, s)

/-- The text of the reply to a text. -/
def handleText (h : Host σ) (text : String) (s : σ) : String × σ :=
  let (r, s) := h.replyTo text s
  (r.render, s)

end Host

end ShellHost
