import ShellHost.Json.Record

/-!
# Events

What the host tells content without being asked.
-/

namespace ShellHost

open Json

/-- A message from the host to everybody who listens. -/
structure Event where
  /-- What the event is about. -/
  channel : String
  /-- What it says. -/
  payload : Value

namespace Event

/-- The event as JSON. -/
def toValue (e : Event) : Value := .object [("channel", .string e.channel), ("payload", e.payload)]

/-- The text of an event. -/
def render (e : Event) : String := e.toValue.render

/-- The members of an event that have been read. -/
structure Draft where
  /-- The member `channel`. -/
  channel : Option String := none
  /-- The member `payload`. -/
  payload : Option Value := none

/-- The members of an event. The payload may be missing and is `null` then. -/
def record : Record Draft Event where
  name := "struct Event"
  fields := [
    field "channel" Draft.channel (fun a d => { d with channel := some a }) string,
    field "payload" Draft.payload (fun a d => { d with payload := some a }) value]
  empty := {}
  finish d := do
    return ⟨← required "channel" d.channel, d.payload.getD .null⟩
  others := .ignored
  fromArray := true

/-- Reads an event. -/
def decoder : Decoder Event := record.decoder

end Event

end ShellHost
