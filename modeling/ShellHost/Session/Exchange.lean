import ShellHost.Session.Call

/-!
# The exchange

Between content and host stands a line of envelopes. It has room for so many, and further ones wait their turn. The near
end sends, and the far end, the endpoint, is held by the host or by whoever takes envelopes by hand. An `Exchange` is
the line with every call that was sent over it: where its envelope is, or how it ended.

A frame carries the number of its call, so that an answer goes to the call that sent the envelope, whatever the answer
says. A call that has ended stays as it is.
-/

namespace ShellHost

open Json

/-- Who holds the end of the line where envelopes come out. -/
inductive Endpoint where
  /-- Somebody who takes envelopes by hand. -/
  | held
  /-- The host, which answers what comes. -/
  | serving
  /-- Nobody any more. -/
  | gone
  deriving DecidableEq

/-- The list with `b` under a name, in the stead of what was there. -/
def assign {β : Type} (name : String) (b : β) (l : List (String × β)) : List (String × β) :=
  (name, b) :: l.filter (·.1 != name)

/-- The list without a name. -/
def unassign {β : Type} (name : String) (l : List (String × β)) : List (String × β) := l.filter (·.1 != name)

/-- The line of envelopes, and the calls that were sent over it. -/
structure Exchange where
  /-- Who holds the endpoint. -/
  endpoint : Endpoint := .held
  /-- The room in the line. -/
  capacity : Nat
  /-- There is some room. -/
  capacity_pos : 0 < capacity
  /-- The number of the next call. -/
  nextNumber : Nat := 1
  /-- The envelopes in the line, the first one first. -/
  queued : List Frame := []
  /-- The envelopes that wait for room, the first one first. -/
  waiting : List Frame := []
  /-- The numbers of the envelopes that came out of the line, the last one first. -/
  received : List Nat := []
  /-- The envelopes that were taken by hand and not answered yet, by name. -/
  taken : List (String × Frame) := []
  /-- Every call that was sent, the last one first. -/
  calls : List Call := []

namespace Exchange

/-- The call with this number. -/
def call? (x : Exchange) (number : Nat) : Option Call := x.calls.find? (·.number == number)

/-- Changes the stage of a call that is in flight. -/
def setStage (number : Nat) (stage : Stage) (x : Exchange) : Exchange :=
  { x with calls := x.calls.map fun c => if c.number = number then c.advance stage else c }

/-- Whether the call with this number is in flight. -/
def flying (x : Exchange) (number : Nat) : Bool :=
  match x.call? number with
  | some c => c.inFlight
  | none => false

/-- Ends a call, if it is in flight. -/
def finish (number : Nat) (e : Ending) (x : Exchange) : Exchange := x.setStage number (.settled e)

/-- Gives the first envelope that waits the room that became free. -/
def refill (x : Exchange) : Exchange :=
  match x.waiting with
  | [] => x
  | f :: rest =>
    if x.queued.length < x.capacity then
      { x with queued := x.queued ++ [f], waiting := rest }.setStage f.number (.flying .queued)
    else x

/-- Moves an envelope, the first one of the line, into the hands of whoever holds the endpoint. -/
def pull (f : Frame) (rest : List Frame) (x : Exchange) : Exchange :=
  { x with queued := rest, received := f.number :: x.received }.setStage f.number (.flying .taken)

/-- Takes the first envelope out of the line. -/
def receive (x : Exchange) : Option (Frame × Exchange) :=
  match x.queued with
  | [] => none
  | f :: rest => some (f, (x.pull f rest).refill)

/-- Drops the endpoint. What is in the line or waits for it is lost. -/
def dropEndpoint (x : Exchange) : Exchange :=
  (x.queued ++ x.waiting).foldl (fun x f => x.finish f.number .dropped)
    { x with endpoint := .gone, queued := [], waiting := [] }

/-- Where a call begins: in the line if there is room, and at its end if nobody holds the endpoint. -/
def firstStage (x : Exchange) : Stage :=
  if x.endpoint = .gone then .settled .dropped
  else if x.queued.length < x.capacity then .flying .queued
  else .flying .waiting

/-- Sends an envelope on behalf of a new call. -/
def send (q : Question) (payload : Value) (x : Exchange) : Nat × Exchange :=
  let n := x.nextNumber
  let f : Frame := ⟨n, (Envelope.mk n.toUInt64 q.channel payload).render⟩
  (n, { x with
    nextNumber := n + 1
    queued := if x.firstStage = .flying .queued then x.queued ++ [f] else x.queued
    waiting := if x.firstStage = .flying .waiting then x.waiting ++ [f] else x.waiting
    calls := ⟨n, q, x.firstStage⟩ :: x.calls })

/-- Gives up a call that is in flight. Its envelope stays in the line if it is there, but no longer waits for room. -/
def abandon (number : Nat) (x : Exchange) : Exchange :=
  match x.call? number with
  | some ⟨_, _, .flying p⟩ =>
    { x with waiting := x.waiting.filter (·.number != number) }.setStage number (.cancelled p)
  | _ => x

/-- Ends the call of an envelope that was taken by hand, and says whether the caller was still there. -/
def giveBack (name : String) (f : Frame) (e : Ending) (x : Exchange) : Bool × Exchange :=
  (x.flying f.number, { x with taken := unassign name x.taken }.finish f.number e)

/-- Keeps an envelope that was taken under a name. One that was kept under it before is dropped without a reply. -/
def keep (name : String) (f : Frame) (x : Exchange) : Exchange :=
  let x' :=
    match x.taken.lookup name with
    | none => x
    | some old => x.finish old.number .dropped
  { x' with taken := assign name f x'.taken }

end Exchange

end ShellHost
