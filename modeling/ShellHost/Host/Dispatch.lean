import ShellHost.Host.Handler
import ShellHost.Message.Outcome

/-!
# Dispatching actions

A request for an action reaches its handler in one of three ways: as the payload of a message (`dispatchMessage`), by
the name of the action (`dispatch`), or by the action itself (`dispatchTyped`). Whatever is wrong with the request or
goes wrong in the handler becomes a `CallError`, and a request that is refused changes nothing.
-/

namespace ShellHost

open Json

variable {σ : Type}

namespace Handlers

/-- The error of a handler that failed or panicked. -/
def outcome (a : Action) : Handled HandlerError a.Response → Except CallError Value
  | .returned r => .ok (a.responseValue r)
  | .failed e => .error (.handlerFailure a.name e.message)
  | .panicked p => .error (.handlerFailure a.name s!"panicked: {p.message}")

/-- Refuses a request that is not an object of the form that the action asks for. -/
def checkRequest (a : Action) (request : Value) : Except CallError Unit :=
  match request with
  | .object _ => (a.request.convert request).mapError fun e => .invalidRequest a.name e.message
  | v => .error (.invalidRequest a.name s!"expected an object, got {v.kind}")

/-- Runs the handler of an action on a request. -/
def invoke (h : Handlers σ) (a : Action) (request : Value) (s : σ) : Except CallError Value × σ :=
  match checkRequest a request with
  | .error e => (.error e, s)
  | .ok () =>
    let (r, s) := h.run a s
    (outcome a r, s)

/-- Runs the handler of the action with this name. -/
def dispatch (h : Handlers σ) (action : String) (request : Value) (s : σ) : Outcome × σ :=
  match Action.ofName action with
  | .error e => (.error e, s)
  | .ok a =>
    let (r, s) := h.invoke a request s
    (.ofExcept r, s)

/-- Runs the handler that a message asks for: the message is an array of the action's name and the request. -/
def dispatchMessage (h : Handlers σ) (payload : Value) (s : σ) : Outcome × σ :=
  match payload with
  | .array [.string action, request] => h.dispatch action request s
  | .array [_, _] => (.error (.malformedMessage "action must be a string"), s)
  | _ => (.error (.malformedMessage "payload must be a two-element [action, request] array"), s)

/-- Runs the handler of an action, and reads its answer back. -/
def dispatchTyped (h : Handlers σ) (a : Action) (s : σ) : Except CallError a.Response × σ :=
  match h.invoke a a.requestValue s with
  | (.error e, s) => (.error e, s)
  | (.ok v, s) => ((a.response.convert v).mapError fun e => .malformedMessage e.message, s)

end Handlers

end ShellHost
