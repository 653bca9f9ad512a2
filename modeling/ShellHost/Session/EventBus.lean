import ShellHost.Message.Event

/-!
# The event bus

Everything that is published while somebody listens is written to one log. A listener is a position in it. What it can
still read are the events behind its position, but never more than the last `window` of them: one that falls further
behind is told once how many it lost and goes on with the oldest that is kept.
-/

namespace ShellHost

/-- The events that were published. -/
structure EventBus where
  /-- How many events are kept for a listener. -/
  window : Nat
  /-- The events, the last one first. -/
  log : List Event

/-- A position in the log: how many events are read or passed over. -/
structure Listener where
  /-- The number of the next event. -/
  next : Nat
  deriving DecidableEq

/-- What a listener gets. -/
inductive Received where
  /-- An event. -/
  | event (e : Event)
  /-- So many events were lost. -/
  | lagged (n : Nat)
  /-- There is nothing to read. -/
  | empty

namespace EventBus

/-- A bus for so many events, or a few more: the window is a power of two. -/
def ofCapacity (capacity : Nat) : EventBus := ⟨(max 1 capacity).nextPowerOfTwo, []⟩

/-- How many events were published. -/
def count (b : EventBus) : Nat := b.log.length

/-- The position of somebody who begins to listen. -/
def subscribe (b : EventBus) : Listener := ⟨b.count⟩

/-- Publishes an event to so many listeners. Without any it is dropped. -/
def publish (b : EventBus) (listeners : Nat) (e : Event) : EventBus :=
  if listeners = 0 then b else { b with log := e :: b.log }

/-- How many events a listener has not read. -/
def behind (b : EventBus) (l : Listener) : Nat := b.count - l.next

/-- The events that a listener can still read. -/
def unread (b : EventBus) (l : Listener) : List Event := (b.log.take (min (b.behind l) b.window)).reverse

/-- The position after a lag: that of the oldest event that is kept. -/
def catchUp (b : EventBus) (l : Listener) : Listener := ⟨max l.next (b.count - b.window)⟩

/-- Gives the listener the next event, or the number of those that it lost. -/
def receive (b : EventBus) (l : Listener) : Received × Listener :=
  if b.window < b.behind l then (.lagged (b.behind l - b.window), b.catchUp l)
  else
    match b.unread l with
    | [] => (.empty, l)
    | e :: _ => (.event e, ⟨l.next + 1⟩)

/-- Gives the listener the next event of a channel. Those of other channels are passed over, and so is a lag. -/
def poll (b : EventBus) (channel : String) (l : Listener) : Option Json.Value × Listener :=
  let events := b.unread l
  let l := b.catchUp l
  let skipped := (events.takeWhile (·.channel != channel)).length
  match events[skipped]? with
  | some e => (some e.payload, ⟨l.next + skipped + 1⟩)
  | none => (none, ⟨l.next + skipped⟩)

end EventBus

end ShellHost
