import ShellHost.Json.Record

/-!
# Errors of calls

`CallError` lists the ways in which a call can fail. They travel as JSON, tagged by the member `kind`; `message` is
their text for people.
-/

namespace ShellHost

open Json

/-- Why a call has no result. -/
inductive CallError where
  /-- No action has this name. -/
  | unknownAction (action : String)
  /-- No channel has this name. -/
  | unknownChannel (channel : String)
  /-- The message does not have the form of one. -/
  | malformedMessage (reason : String)
  /-- The request does not have the form that the action asks for. -/
  | invalidRequest (action reason : String)
  /-- The handler of the action failed. -/
  | handlerFailure (action reason : String)
  /-- The host is gone. -/
  | disconnected
  deriving DecidableEq

namespace CallError

/-- The error in words. -/
def message : CallError → String
  | unknownAction action => s!"unknown action: {action}"
  | unknownChannel channel => s!"unknown channel: {channel}"
  | malformedMessage reason => s!"malformed message: {reason}"
  | invalidRequest action reason => s!"invalid request for {action}: {reason}"
  | handlerFailure action reason => s!"handler for {action} failed: {reason}"
  | disconnected => "host disconnected"

/-- The error as JSON, the tag first. -/
def toValue : CallError → Value
  | unknownAction action => .object [("kind", .string "unknownAction"), ("action", .string action)]
  | unknownChannel channel => .object [("kind", .string "unknownChannel"), ("channel", .string channel)]
  | malformedMessage reason => .object [("kind", .string "malformedMessage"), ("reason", .string reason)]
  | invalidRequest action reason =>
    .object [("kind", .string "invalidRequest"), ("action", .string action), ("reason", .string reason)]
  | handlerFailure action reason =>
    .object [("kind", .string "handlerFailure"), ("action", .string action), ("reason", .string reason)]
  | disconnected => .object [("kind", .string "disconnected")]

/-- The texts of an error that have been read. -/
structure Draft where
  /-- The member `action`. -/
  action : Option String := none
  /-- The member `channel`. -/
  channel : Option String := none
  /-- The member `reason`. -/
  reason : Option String := none

namespace Draft

/-- The member `action`. -/
def actionField : RecordField Draft := field "action" action (fun s d => { d with action := some s }) string

/-- The member `channel`. -/
def channelField : RecordField Draft := field "channel" channel (fun s d => { d with channel := some s }) string

/-- The member `reason`. -/
def reasonField : RecordField Draft := field "reason" reason (fun s d => { d with reason := some s }) string

end Draft

/-- The members of one kind of error. -/
def variant (name : String) (fields : List (RecordField Draft)) (finish : Draft → Except String CallError) :
    Record Draft CallError :=
  ⟨s!"struct variant ApiError::{name}", fields, {}, finish, .ignored, true⟩

/-- The kinds of errors by their tags. -/
def tagged : Tagged Draft CallError where
  name := "internally tagged enum ApiError"
  tag := "kind"
  variants := [
    ("unknownAction", variant "UnknownAction" [Draft.actionField] fun d => do
      return .unknownAction (← required "action" d.action)),
    ("unknownChannel", variant "UnknownChannel" [Draft.channelField] fun d => do
      return .unknownChannel (← required "channel" d.channel)),
    ("malformedMessage", variant "MalformedMessage" [Draft.reasonField] fun d => do
      return .malformedMessage (← required "reason" d.reason)),
    ("invalidRequest", variant "InvalidRequest" [Draft.actionField, Draft.reasonField] fun d => do
      return .invalidRequest (← required "action" d.action) (← required "reason" d.reason)),
    ("handlerFailure", variant "HandlerFailure" [Draft.actionField, Draft.reasonField] fun d => do
      return .handlerFailure (← required "action" d.action) (← required "reason" d.reason)),
    ("disconnected", variant "Disconnected" [] fun _ => .ok .disconnected)]

/-- Reads an error. -/
def decoder : Decoder CallError := tagged.decoder

end CallError

end ShellHost
