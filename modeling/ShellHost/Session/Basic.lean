import ShellHost.Host.Basic
import ShellHost.Session.EventBus
import ShellHost.Session.Exchange

/-!
# Sessions

A session is a host, the content that asks it, and the line of envelopes between them. Content holds bridges; the other
end of the line, the endpoint, is held by the host or by whoever takes envelopes by hand. The line has room for so many
envelopes, and further ones wait their turn.

Everything happens in one thread: each operation below is followed by `settle`, in which a serving host answers all
that has come, until nothing moves. What is asked, taken or listened to goes by names that the user of the session
chooses.
-/

namespace ShellHost

open Json

variable {σ : Type}

/-- What a name for a call stands for. -/
inductive Handle where
  /-- A call that was sent. -/
  | call (number : Nat)
  /-- The answer of a question that could not be sent. -/
  | unsent (a : Answer)

/-- Somebody who listens to one channel. -/
structure Subscription where
  /-- The channel. -/
  channel : String
  /-- The position in the log. -/
  listener : Listener
  deriving DecidableEq

/-- A session, whose host changes a state `σ`. -/
structure Session (σ : Type) extends Exchange where
  /-- The host. -/
  host : Host σ
  /-- What the host changes. -/
  state : σ
  /-- Whether the user of the session still holds the host. -/
  hostHeld : Bool := true
  /-- The calls whose answer was not fetched yet, by name. -/
  handles : List (String × Handle) := []
  /-- The bridges that content holds, by name. -/
  bridges : List String := ["b"]
  /-- The event bus. -/
  bus : EventBus
  /-- Whether the user of the session still holds the bus. -/
  busHeld : Bool := true
  /-- Those who listen to one channel, by name. -/
  subscriptions : List (String × Subscription) := []
  /-- Those who listen to all channels, by name. -/
  listeners : List (String × Listener) := []

namespace Session

/-- A session at its beginning, with one bridge of the name `b`. -/
def start (host : Host σ) (state : σ) (capacity eventCapacity : Nat) : Session σ where
  host := host
  state := state
  capacity := max 1 capacity
  capacity_pos := by omega
  bus := .ofCapacity eventCapacity

/-! ## Calls -/

/-- How many hold the near end of the line: the bridges, and each call in flight. -/
def senders (s : Session σ) : Nat := s.bridges.length + s.calls.countP Call.inFlight

/-- Asks a question, and keeps the call under a name. -/
def ask (name : String) (q : Question) (s : Session σ) : Session σ :=
  match q.payload? with
  | none =>
    let a := q.failed (.malformedMessage DialogRequest.unwritable)
    { s with handles := assign name (.unsent a) s.handles }
  | some payload =>
    let (n, x) := s.send q payload
    { s with toExchange := x, handles := assign name (.call n) s.handles }

/-! ## The serving host -/

/-- Lets the host answer an envelope. -/
def serveOne (s : Session σ) (f : Frame) : Session σ :=
  let (reply, state) := s.host.handleText f.text s.state
  { s with toExchange := s.finish f.number (.replied reply), state := state }

/-- Lets the host answer envelope after envelope, at most so many. -/
def serveAll : Nat → Session σ → Session σ
  | 0, s => s
  | n + 1, s =>
    match s.receive with
    | none => s
    | some (f, x) => serveAll n ({ s with toExchange := x }.serveOne f)

/-- Lets a serving host answer all that has come. It stops serving when nobody is left who could ask. -/
def settle (s : Session σ) : Session σ :=
  if s.endpoint = .serving then
    let s := serveAll (s.queued.length + s.waiting.length) s
    if s.senders = 0 then { s with endpoint := .gone } else s
  else s

/-! ## Events -/

/-- How many listen. -/
def audience (s : Session σ) : Nat := s.subscriptions.length + s.listeners.length

/-- Whether somebody is left who could publish an event. -/
def busOpen (s : Session σ) : Bool :=
  s.busHeld || s.hostHeld || s.endpoint = .serving || 0 < s.senders

/-- Publishes events, and says how many got each. -/
def publish (es : List Event) (s : Session σ) : List Nat × Session σ :=
  (es.map fun _ => s.audience, { s with bus := es.foldl (fun b e => b.publish s.audience e) s.bus })

end Session

end ShellHost
