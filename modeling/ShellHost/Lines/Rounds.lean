import ShellHost.Lines.Loop

/-!
# The loop, round by round

A `LineLoop` takes bytes that have come all at once. Here the same loop is told read by read. It works in rounds: at the
beginning of a round it starts a read, which may take as many bytes as the buffer has room for, and then it waits for
the read to end or for an event, whichever is first. A read that an event overtakes is dropped, but the bytes that it
took stay in the buffer. When the read ends, the loop only knows how many bytes it took, and whether the buffer ends with
a newline: no bytes at all mean that the input is over.

A `Move` is the next thing that such a `RoundLoop` does or that is done to it. `RoundLoop.occurrences` says what a move
is for a loop that takes its bytes all at once.
-/

namespace ShellHost

variable {σ : Type}

namespace LineLoop

/-- What comes to a loop from outside. -/
inductive Occurrence where
  /-- Something that comes while the loop runs. -/
  | next (h : Happening)
  /-- The input ends. -/
  | inputEnds
  /-- The input fails. -/
  | inputFails (reason : String)
  /-- From here on the output takes so many more bytes. -/
  | outputFails (room : Nat) (reason : String)

/-- The loop after one thing more. -/
def occur (l : LineLoop σ) : Occurrence → LineLoop σ
  | .next h => l.happen h
  | .inputEnds => l.close
  | .inputFails reason => l.failRead reason
  | .outputFails room reason => l.failWrites room reason

/-- The loop after one thing and another. -/
def undergo (l : LineLoop σ) (os : List Occurrence) : LineLoop σ := os.foldl occur l

/-- What comes of a read that has ended, with nothing if `eof`: a line is answered, and the loop ends if the input
does. -/
def endRead (l : LineLoop σ) (eof : Bool) : LineLoop σ :=
  let (line, reader) := l.reader.endRead eof
  let l := line.toList.foldl answer { l with reader := reader }
  if eof && !l.ended.isSome then l.stop (.ok ()) else l

/-- Whether there is an event to write, or a lag to pass over. -/
def hasEvent (l : LineLoop σ) : Bool :=
  match l.bus.receive l.listener with
  | (.empty, _) => false
  | _ => true

end LineLoop

/-- Where a loop is in its round. -/
inductive RoundLoop.Phase where
  /-- The loop is about to read. -/
  | ready
  /-- A read waits, which may take so many bytes and has taken these. -/
  | reading (budget : Nat) (taken : List UInt8)
  /-- The read has ended, and has taken these bytes. -/
  | finished (taken : List UInt8)
  deriving DecidableEq

/-- The bytes that the read of this round has taken. -/
def RoundLoop.Phase.taken : RoundLoop.Phase → List UInt8
  | ready => []
  | reading _ taken => taken
  | finished taken => taken

/-- A loop that works round by round. -/
structure RoundLoop (σ : Type) where
  /-- The loop. -/
  loop : LineLoop σ
  /-- The bytes of the input that are not read. -/
  unread : List UInt8
  /-- Where it is in its round. -/
  phase : RoundLoop.Phase := .ready

namespace RoundLoop

/-- What is next. -/
inductive Move where
  /-- The loop begins a round with a read. -/
  | begin
  /-- The read finds that so many bytes have come, and takes what it may of them. -/
  | poll (n : Nat)
  /-- The read finds that the input is over. -/
  | findEnd
  /-- The read fails. -/
  | failRead (reason : String)
  /-- The read has ended, and the loop does what comes of it. -/
  | settle
  /-- An event has come before the read has ended. The loop drops the read and writes the event. -/
  | turn
  /-- The host publishes events. -/
  | publish (es : List Event)
  /-- From here on the output takes so many more bytes. -/
  | failWrites (room : Nat) (reason : String)

/-- A loop at its beginning, which listens to the bus and will read the input. -/
def start (host : Host σ) (state : σ) (limit : Nat) (bus : EventBus) (input : List UInt8) : RoundLoop σ :=
  ⟨.start host state limit bus, input, .ready⟩

/-- Begins a round. A loop that has ended does not. -/
def begin (m : RoundLoop σ) : RoundLoop σ :=
  match m.phase with
  | .ready => if m.loop.ended.isSome then m else { m with phase := .reading m.loop.reader.budget [] }
  | _ => m

/-- Where a read stands when it has taken some bytes more: it ends with a newline, and when its budget is used up. -/
def Phase.after (budget : Nat) (taken bytes : List UInt8) : Phase :=
  if bytes.getLast? = some newlineByte ∨ budget ≤ (taken ++ bytes).length then .finished (taken ++ bytes)
  else .reading budget (taken ++ bytes)

/-- Takes what the read may of so many bytes that have come: up to the newline, and no more than what is left of its
budget. -/
def poll (m : RoundLoop σ) (n : Nat) : RoundLoop σ :=
  match m.phase with
  | .reading budget taken =>
    let (bytes, rest) := takeLine (budget - taken.length) [] (m.unread.take n)
    let reader := { m.loop.reader with buffer := bytes ++ m.loop.reader.buffer }
    ⟨{ m.loop with reader := reader }, rest ++ m.unread.drop n, .after budget taken bytes.reverse⟩
  | _ => m

/-- Ends the read, if there is nothing left of the input. -/
def findEnd (m : RoundLoop σ) : RoundLoop σ :=
  match m.phase with
  | .reading _ taken => if m.unread = [] then { m with phase := .finished taken } else m
  | _ => m

/-- Ends the round and the loop, since the input has failed. -/
def failRead (m : RoundLoop σ) (reason : String) : RoundLoop σ :=
  match m.phase with
  | .reading _ _ => { m with loop := m.loop.failRead reason, phase := .ready }
  | _ => m

/-- Ends the round with what comes of the read. One that has taken nothing has found the end of the input. -/
def settle (m : RoundLoop σ) : RoundLoop σ :=
  match m.phase with
  | .finished taken => { m with loop := m.loop.endRead taken.isEmpty, phase := .ready }
  | _ => m

/-- Ends the round with an event, if there is one. -/
def turn (m : RoundLoop σ) : RoundLoop σ :=
  match m.phase with
  | .reading _ _ => if m.loop.hasEvent then { m with loop := m.loop.writeEvents 1, phase := .ready } else m
  | _ => m

/-- The loop after a move. One that cannot be made changes nothing. -/
def move (m : RoundLoop σ) : Move → RoundLoop σ
  | .begin => m.begin
  | .poll n => m.poll n
  | .findEnd => m.findEnd
  | .failRead reason => m.failRead reason
  | .settle => m.settle
  | .turn => m.turn
  | .publish es => { m with loop := m.loop.publish es }
  | .failWrites room reason => { m with loop := m.loop.failWrites room reason }

/-- The loop after one move and another. -/
def run (m : RoundLoop σ) (ms : List Move) : RoundLoop σ := ms.foldl move m

/-- Whether a move leaves the round as it is, or takes it on, but does not end it. -/
def Move.goesOn : Move → Bool
  | settle => false
  | turn => false
  | failRead _ => false
  | _ => true

/-- The bytes that the round has read, as they come to a loop. -/
def arrival (m : RoundLoop σ) : LineLoop.Occurrence := .next (.arrival m.phase.taken)

/-- What a move is for a loop that takes bytes all at once. The bytes of a read come to it when the round is over. -/
def occurrence (m : RoundLoop σ) : Move → List LineLoop.Occurrence
  | .begin => []
  | .poll _ => []
  | .findEnd => []
  | .failRead reason =>
    match m.phase with
    | .reading _ _ => [m.arrival, .inputFails reason]
    | _ => []
  | .settle =>
    match m.phase with
    | .finished [] => [.inputEnds]
    | .finished _ => [m.arrival]
    | _ => []
  | .turn =>
    match m.phase with
    | .reading _ _ => if m.loop.hasEvent then [m.arrival, .next (.turn 1)] else []
    | _ => []
  | .publish es => [.next (.publication es)]
  | .failWrites room reason => [.outputFails room reason]

/-- What one move and another are for a loop that takes bytes all at once. -/
def occurrences (m : RoundLoop σ) : List Move → List LineLoop.Occurrence
  | [] => []
  | mv :: ms => m.occurrence mv ++ (m.move mv).occurrences ms

end RoundLoop

end ShellHost
