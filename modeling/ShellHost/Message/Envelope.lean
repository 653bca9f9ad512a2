import ShellHost.Message.Outcome

/-!
# Envelopes and replies

A call travels as an `Envelope` and comes back as a `Reply` with the same number. `render` and `parse` are the two
directions of their texts.
-/

namespace ShellHost

open Json

/-- A call on its way to the host. -/
structure Envelope where
  /-- The number of the call. -/
  id : UInt64
  /-- What the call is for. -/
  channel : String
  /-- What is asked. -/
  payload : Value

/-- An answer on its way back. -/
structure Reply where
  /-- The number of the call. -/
  id : UInt64
  /-- What the call came to. -/
  payload : Outcome

/-- The channel of actions. -/
def messageChannel : String := "message"

/-- The channel of file dialogs. -/
def dialogChannel : String := "openDialog"

namespace Envelope

/-- The envelope as JSON. -/
def toValue (e : Envelope) : Value :=
  .object [("id", .ofUInt64 e.id), ("channel", .string e.channel), ("payload", e.payload)]

/-- The text of an envelope. -/
def render (e : Envelope) : String := e.toValue.render

/-- The members of an envelope that have been read. -/
structure Draft where
  /-- The member `id`. -/
  id : Option UInt64 := none
  /-- The member `channel`. -/
  channel : Option String := none
  /-- The member `payload`. -/
  payload : Option Value := none

/-- The members of an envelope. The payload may be missing and is `null` then. -/
def record : Record Draft Envelope where
  name := "struct Envelope"
  fields := [
    field "id" Draft.id (fun a d => { d with id := some a }) uint64,
    field "channel" Draft.channel (fun a d => { d with channel := some a }) string,
    field "payload" Draft.payload (fun a d => { d with payload := some a }) value]
  empty := {}
  finish d := do
    return ⟨← required "id" d.id, ← required "channel" d.channel, d.payload.getD .null⟩
  others := .ignored
  fromArray := true

/-- Reads an envelope. -/
def decoder : Decoder Envelope := record.decoder

/-- The envelope that a text is. -/
def parse (text : String) : Except ReadError Envelope := decoder.parse text

end Envelope

namespace Reply

/-- The reply as JSON. -/
def toValue (r : Reply) : Value := .object [("id", .ofUInt64 r.id), ("payload", r.payload.toValue)]

/-- The text of a reply. -/
def render (r : Reply) : String := r.toValue.render

/-- The members of a reply that have been read. -/
structure Draft where
  /-- The member `id`. -/
  id : Option UInt64 := none
  /-- The member `payload`. -/
  payload : Option Outcome := none

/-- The members of a reply. -/
def record : Record Draft Reply where
  name := "struct Reply"
  fields := [
    field "id" Draft.id (fun a d => { d with id := some a }) uint64,
    field "payload" Draft.payload (fun a d => { d with payload := some a }) Outcome.decoder]
  empty := {}
  finish d := do
    return ⟨← required "id" d.id, ← required "payload" d.payload⟩
  others := .ignored
  fromArray := true

/-- Reads a reply. -/
def decoder : Decoder Reply := record.decoder

/-- The reply that a text is. -/
def parse (text : String) : Except ReadError Reply := decoder.parse text

end Reply

end ShellHost
