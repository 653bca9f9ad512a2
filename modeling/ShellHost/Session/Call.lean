import ShellHost.Message.Action
import ShellHost.Message.Dialog
import ShellHost.Message.Envelope

/-!
# Calls

A `Question` is what content asks of the host. It is sent as an envelope, and the text that comes back is read by
`Question.readReply`: a reply to another call is refused, and so is a result of the wrong form.

A `Call` is a question on its way; its `Stage` says where its envelope is, or how the call ended.
-/

namespace ShellHost

open Json

/-- What content asks of the host. -/
inductive Question where
  /-- An action by its name, with any request. -/
  | raw (action : String) (request : Value)
  /-- An action whose answer is read. -/
  | typed (a : Action)
  /-- A file dialog. -/
  | dialog (r : DialogRequest)

/-- What a call comes to. -/
inductive Answer where
  /-- A JSON value, or an error. -/
  | value (r : Except CallError Value)
  /-- Paths, or an error. -/
  | paths (r : Except CallError (List RawPath))

namespace Question

/-- The channel of the envelope. -/
def channel : Question → String
  | raw _ _ => messageChannel
  | typed _ => messageChannel
  | dialog _ => dialogChannel

/-- The payload of the envelope; `none` if the question cannot be written. -/
def payload? : Question → Option Value
  | raw action request => some (.array [.string action, request])
  | typed a => some (.array [.string a.name, a.requestValue])
  | dialog r => r.toValue?.map Value.sort

/-- The answer that is an error. -/
def failed (q : Question) (e : CallError) : Answer :=
  match q with
  | raw _ _ => .value (.error e)
  | typed _ => .value (.error e)
  | dialog _ => .paths (.error e)

/-- What the text of a reply to call `id` says. -/
def replyOutcome (id : UInt64) (text : String) : Outcome :=
  match Reply.parse text with
  | .error e => .error (.malformedMessage e.message)
  | .ok r =>
    if r.id = id then r.payload
    else .error (.malformedMessage s!"reply id {r.id.toNat} does not match call id {id.toNat}")

/-- The answer that an outcome is. -/
def ofOutcome (q : Question) (o : Outcome) : Answer :=
  match q, o with
  | q, .error e => q.failed e
  | raw _ _, .ok v => .value (.ok v)
  | typed a, .ok v =>
    match a.response.convert v with
    | .ok r => .value (.ok (a.responseValue r))
    | .error e => .value (.error (.malformedMessage s!"unexpected response for {a.name}: {e.message}"))
  | dialog _, .ok v =>
    match (list pathDecoder).convert v with
    | .ok paths => .paths (.ok paths)
    | .error e => .paths (.error (.malformedMessage s!"unexpected dialog response: {e.message}"))

/-- The answer that the text of a reply to call `id` is. -/
def readReply (q : Question) (id : UInt64) (text : String) : Answer := q.ofOutcome (replyOutcome id text)

end Question

/-- How a call ends. -/
inductive Ending where
  /-- A text came back. -/
  | replied (text : String)
  /-- The host is gone, or dropped the call. -/
  | dropped
  deriving DecidableEq

/-- Where the envelope of a call is. -/
inductive Location where
  /-- It waits for room in the line. -/
  | waiting
  /-- It is in the line. -/
  | queued
  /-- The host has it. -/
  | taken
  deriving DecidableEq

/-- How far a call is. -/
inductive Stage where
  /-- It is in flight. -/
  | flying (p : Location)
  /-- It has ended. -/
  | settled (e : Ending)
  /-- The caller gave it up when its envelope was at this place. -/
  | cancelled (p : Location)
  deriving DecidableEq

namespace Stage

/-- Whether a call at this stage is in flight. -/
def inFlight : Stage → Bool
  | flying _ => true
  | _ => false

/-- The stage after this one. A call that has ended stays as it is. -/
def advance (s next : Stage) : Stage := if s.inFlight then next else s

end Stage

/-- A question on its way. -/
structure Call where
  /-- The number of the call. -/
  number : Nat
  /-- What is asked. -/
  question : Question
  /-- How far it is. -/
  stage : Stage

namespace Call

/-- The number on the wire. -/
def id (c : Call) : UInt64 := c.number.toUInt64

/-- Whether the call is in flight. -/
def inFlight (c : Call) : Bool := c.stage.inFlight

/-- The call at another stage, unless it has ended. -/
def advance (c : Call) (next : Stage) : Call := { c with stage := c.stage.advance next }

/-- The envelope of the call. -/
def envelope? (c : Call) : Option Envelope := c.question.payload?.map fun v => ⟨c.id, c.question.channel, v⟩

/-- The answer of a call that has ended. -/
def answer? (c : Call) : Option Answer :=
  match c.stage with
  | .settled (.replied text) => some (c.question.readReply c.id text)
  | .settled .dropped => some (c.question.failed .disconnected)
  | _ => none

end Call

/-- The text of an envelope, with the number of the call that sent it. -/
structure Frame where
  /-- The number of the call. -/
  number : Nat
  /-- The text of the envelope. -/
  text : String
  deriving DecidableEq

end ShellHost
