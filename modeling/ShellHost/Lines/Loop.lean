import ShellHost.Host.Basic
import ShellHost.Lines.Reader
import ShellHost.Session.EventBus

/-!
# The host on lines

The host answers each line of an input by one line of output, and writes the events of its bus as lines, too. What
stands between two newlines of the output is one reply or one event.

A `LineLoop` is such a host at work. The output is a `Sink`, which may stop taking bytes; then, or when the input fails
or ends, the loop ends and nothing moves any more.
-/

namespace ShellHost

variable {σ : Type}

/-- Where output goes. -/
structure Sink where
  /-- The bytes that were taken, the last one first. -/
  written : List UInt8 := []
  /-- How many more bytes are taken, and the reason that is given then; unless all are. -/
  room : Option (Nat × String) := none

/-- Writes bytes, as far as they are taken. -/
def Sink.write (s : Sink) (bytes : List UInt8) : Except String Unit × Sink :=
  match s.room with
  | none => (.ok (), { s with written := bytes.reverseAux s.written })
  | some (n, reason) =>
    let taken := bytes.take n
    ((if taken.length = bytes.length then .ok () else .error reason),
      ⟨taken.reverseAux s.written, some (n - taken.length, reason)⟩)

/-- The most bytes of a line of input. -/
def lineLimit : Nat := 1048576

/-- A host that answers lines. -/
structure LineLoop (σ : Type) where
  /-- The host. -/
  host : Host σ
  /-- What the host changes. -/
  state : σ
  /-- How far the input is read. -/
  reader : LineReader
  /-- The event bus of the host. -/
  bus : EventBus
  /-- The events that were written. -/
  listener : Listener
  /-- The output. -/
  sink : Sink := {}
  /-- How the loop ended, if it has. -/
  ended : Option (Except HostError Unit) := none

/-- The reply to a line that is no text to answer. -/
def objectionReply (reason : String) : String := (Reply.mk 0 (.error (.malformedMessage reason))).render

/-- What a host replies to a line, if anything. -/
def Line.reply (host : Host σ) (limit : Nat) (line : Line) (state : σ) : Option String × σ :=
  match line.ask limit with
  | .nothing => (none, state)
  | .objection reason => (some (objectionReply reason), state)
  | .text text =>
    let (reply, state) := host.handleText text state
    (some reply, state)

namespace LineLoop

/-- A loop at its beginning, which listens to the bus. -/
def start (host : Host σ) (state : σ) (limit : Nat) (bus : EventBus) : LineLoop σ :=
  { host := host, state := state, reader := ⟨limit, [], false⟩, bus := bus, listener := bus.subscribe }

/-- Ends the loop. -/
def stop (l : LineLoop σ) (r : Except HostError Unit) : LineLoop σ := { l with ended := some r }

/-- Writes a line: the text, then the newline. -/
def writeLine (l : LineLoop σ) (text : String) : LineLoop σ :=
  match l.sink.write (Utf8.encodeString text) with
  | (.error reason, sink) => { l with sink := sink }.stop (.error (.io reason))
  | (.ok (), sink) =>
    match sink.write [newlineByte] with
    | (.error reason, sink) => { l with sink := sink }.stop (.error (.io reason))
    | (.ok (), sink) => { l with sink := sink }

/-- Answers a line of input. -/
def answer (l : LineLoop σ) (line : Line) : LineLoop σ :=
  if l.ended.isSome then l
  else
    match line.reply l.host l.reader.limit l.state with
    | (none, state) => { l with state := state }
    | (some reply, state) => { l with state := state }.writeLine reply

/-- Takes bytes of input. -/
def feed (l : LineLoop σ) (bytes : List UInt8) : LineLoop σ :=
  if l.ended.isSome then l
  else
    let (lines, reader) := l.reader.feed bytes
    lines.foldl answer { l with reader := reader }

/-- Takes the end of the input: the rest is a line, too, and then the loop ends. -/
def close (l : LineLoop σ) : LineLoop σ :=
  if l.ended.isSome then l
  else
    let l := l.reader.finish.toList.foldl answer { l with reader := (l.reader.endRead true).2 }
    if l.ended.isSome then l else l.stop (.ok ())

/-- Takes the failure of the input. -/
def failRead (l : LineLoop σ) (reason : String) : LineLoop σ :=
  if l.ended.isSome then l else l.stop (.error (.io reason))

/-- From here on the output takes so many more bytes. -/
def failWrites (l : LineLoop σ) (room : Nat) (reason : String) : LineLoop σ :=
  { l with sink := { l.sink with room := some (room, reason) } }

/-- How many listen to the bus: the loop itself, as long as it runs. -/
def audience (l : LineLoop σ) : Nat := if l.ended.isSome then 0 else 1

/-- Writes the events that have come, at most so many. A lag is passed over. -/
def writeEvents : Nat → LineLoop σ → LineLoop σ
  | 0, l => l
  | n + 1, l =>
    if l.ended.isSome then l
    else
      match l.bus.receive l.listener with
      | (.empty, _) => l
      | (.lagged _, listener) => writeEvents n { l with listener := listener }
      | (.event e, listener) => writeEvents n ({ l with listener := listener }.writeLine e.render)

/-- Lets the host publish events. -/
def publish (l : LineLoop σ) (es : List Event) : LineLoop σ :=
  { l with bus := es.foldl (fun b e => b.publish l.audience e) l.bus }

/-- Lets the host publish events, and writes them. Gives how many got each. -/
def emit (l : LineLoop σ) (es : List Event) : List Nat × LineLoop σ :=
  (es.map fun _ => l.audience, (l.publish es).writeEvents (es.length + 1))

/-- What comes next while the loop runs. It turns to the events whenever it likes, be a line complete or not. -/
inductive Happening where
  /-- Bytes of input arrive, and are read. -/
  | arrival (bytes : List UInt8)
  /-- The host publishes events. -/
  | publication (es : List Event)
  /-- The loop writes events that have come, at most so many. -/
  | turn (n : Nat)

/-- The loop after one thing more. -/
def happen (l : LineLoop σ) : Happening → LineLoop σ
  | .arrival bytes => l.feed bytes
  | .publication es => l.publish es
  | .turn n => l.writeEvents n

/-- The loop after one thing and another. -/
def run (l : LineLoop σ) (hs : List Happening) : LineLoop σ := hs.foldl happen l

end LineLoop

end ShellHost
