import ShellHost.Text.Blank
import ShellHost.Text.Utf8

/-!
# Reading lines from a stream of bytes

Bytes come as they like. A `LineReader` gathers them in a buffer until a line is complete, and keeps at most `limit`
bytes of one, and one more: a line that is longer is reported as soon as that byte is there, and its rest is discarded.

The reader works in reads. One `read` takes bytes up to the next newline, but no more than its `budget`, which is what
still fits the buffer. When the read has ended, `endRead` says what line it completed. `feed` does so for all bytes that
have come, and `finish` for the end of the stream.
-/

namespace ShellHost

/-- The byte that ends a line. -/
def newlineByte : UInt8 := 10

/-- What a stream has in place of a line. -/
inductive Line where
  /-- A line with its newline, if it has one. -/
  | whole (bytes : List UInt8)
  /-- A line that is too long. -/
  | overlong
  deriving DecidableEq

/-- How far the reading of a stream is. -/
structure LineReader where
  /-- The most bytes of a line, its newline not counted. -/
  limit : Nat
  /-- The bytes of the line so far, the last one first. -/
  buffer : List UInt8 := []
  /-- Whether the rest of a line that is too long is passed over. -/
  discarding : Bool := false
  deriving DecidableEq

/-- Takes bytes up to the first newline, at most `budget` of them, in front of those so far. Gives them with the bytes
that are left. -/
def takeLine : (budget : Nat) → (buffer : List UInt8) → List UInt8 → List UInt8 × List UInt8
  | 0, buffer, bytes => (buffer, bytes)
  | _ + 1, buffer, [] => (buffer, [])
  | budget + 1, buffer, b :: bytes =>
    if b = newlineByte then (b :: buffer, bytes) else takeLine budget (b :: buffer) bytes

namespace LineReader

/-- How many bytes the next read may take. -/
def budget (r : LineReader) : Nat := max 1 (r.limit + 1 - r.buffer.length)

/-- Whether the buffer ends with a newline. -/
def complete (r : LineReader) : Bool := r.buffer.head? == some newlineByte

/-- Whether the buffer holds more than a line may. -/
def full (r : LineReader) : Bool := r.limit < r.buffer.length

/-- One read: takes bytes into the buffer and gives those that are left. -/
def read (r : LineReader) (bytes : List UInt8) : LineReader × List UInt8 :=
  let (buffer, rest) := takeLine r.budget r.buffer bytes
  ({ r with buffer := buffer }, rest)

/-- What a read that has ended comes to; `eof` if it found the end of the stream. -/
def endRead (r : LineReader) (eof : Bool) : Option Line × LineReader :=
  let emptied := { r with buffer := [] }
  if r.discarding then (none, { emptied with discarding := !(r.complete || eof) })
  else if !r.complete && !eof && r.full then (some .overlong, { emptied with discarding := true })
  else if r.complete || (eof && !r.buffer.isEmpty) then (some (.whole r.buffer.reverse), emptied)
  else (none, r)

/-- Reads all of some bytes. The lines that they complete go in front of `out`. A read that is neither complete nor
full goes on with the bytes to come. -/
def feedFrom : (clock : List UInt8) → LineReader → List Line → List UInt8 → List Line × LineReader
  | [], r, out, _ => (out, r)
  | _ :: clock, r, out, bytes =>
    let (r, rest) := r.read bytes
    if r.complete || r.full then
      let (line, r) := r.endRead false
      feedFrom clock r (line.toList ++ out) rest
    else (out, r)

/-- Reads bytes, and gives the lines that they complete. -/
def feed (r : LineReader) (bytes : List UInt8) : List Line × LineReader :=
  let (out, r) := feedFrom bytes r [] bytes
  (out.reverse, r)

/-- The line that the end of the stream completes, if there is one. -/
def finish (r : LineReader) : Option Line := (r.endRead true).1

end LineReader

/-- What a line asks for. -/
inductive Ask where
  /-- Nothing. -/
  | nothing
  /-- A reply to a text. -/
  | text (s : String)
  /-- An objection, for this reason. -/
  | objection (reason : String)
  deriving DecidableEq

/-- What a line asks for, where lines may have so many bytes. Blank lines ask for nothing, and blanks around a text do
not count. -/
def Line.ask (limit : Nat) : Line → Ask
  | overlong => .objection s!"line exceeds {limit} bytes"
  | whole bytes =>
    match Utf8.decode bytes with
    | .error flaw => .objection s!"line is not valid UTF-8: {flaw.message}"
    | .ok cs =>
      let text := Text.trim cs
      if text.isEmpty then .nothing else .text (String.ofList text)

end ShellHost
