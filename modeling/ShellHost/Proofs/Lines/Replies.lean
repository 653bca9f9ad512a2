import ShellHost.Lines.Loop
import ShellHost.Proofs.Lines.Reading
import ShellHost.Proofs.Session.Bus
import ShellHost.Proofs.Text.Newline

/-!
# The replies to an input

The loop answers each line of its input once, in order, by what the line says: `Segment.reply`. It does not matter in
what chunks the input comes, nor how often the loop turns to the events, be it in the middle of a line.
-/

namespace ShellHost

variable {σ : Type}

/-! ## What a line of the input is answered -/

/-- The replies to one thing after another, and the state behind them. -/
def replies {α : Type} (reply : α → σ → Option String × σ) : List α → σ → List String × σ
  | [], state => ([], state)
  | a :: as, state =>
    let (text, state) := reply a state
    let (texts, state) := replies reply as state
    (text.toList ++ texts, state)

theorem replies_append {α : Type} (reply : α → σ → Option String × σ) (as bs : List α) (state : σ) :
    replies reply (as ++ bs) state =
      ((replies reply as state).1 ++ (replies reply bs (replies reply as state).2).1,
        (replies reply bs (replies reply as state).2).2) := by
  induction as generalizing state with
  | nil => rfl
  | cons a as ih => simp [replies, ih]

theorem replies_map {α β : Type} {f : α → β} {reply : β → σ → Option String × σ} {reply' : α → σ → Option String × σ}
    (h : ∀ a state, reply (f a) state = reply' a state) (as : List α) (state : σ) :
    replies reply (as.map f) state = replies reply' as state := by
  induction as generalizing state with
  | nil => rfl
  | cons a as ih => simp [replies, h, ih]

namespace Segment

/-- A flaw in a line. -/
def flaw (s : Segment) (f : Utf8.Flaw) : Utf8.Flaw := if s.ended then f.beforeNewline s.content.length else f

/-- What a host replies to a line of its input, if anything: it objects to a line that is too long, whatever it says,
and to one that is not UTF-8; a blank line gets no reply, and any other one gets that to its text. -/
def reply (host : Host σ) (limit : Nat) (s : Segment) (state : σ) : Option String × σ :=
  if limit < s.content.length then (some (objectionReply s!"line exceeds {limit} bytes"), state)
  else
    match Utf8.decode s.content with
    | .error f => (some (objectionReply s!"line is not valid UTF-8: {(s.flaw f).message}"), state)
    | .ok cs =>
      if Text.trim cs = [] then (none, state)
      else
        let (text, state) := host.handleText (String.ofList (Text.trim cs)) state
        (some text, state)

theorem ask_whole (limit : Nat) (s : Segment) :
    Line.ask limit (.whole s.bytes) =
      match Utf8.decode s.content with
      | .error f => .objection s!"line is not valid UTF-8: {(s.flaw f).message}"
      | .ok cs => if Text.trim cs = [] then .nothing else .text (String.ofList (Text.trim cs)) := by
  obtain ⟨content, ended⟩ := s
  cases ended with
  | false =>
    rw [Line.ask, bytes, if_neg Bool.false_ne_true]
    cases Utf8.decode content with
    | error f => rfl
    | ok cs => simp [List.isEmpty_iff]
  | true =>
    rw [Line.ask, bytes, if_pos rfl, Utf8.decode_append_newline]
    cases Utf8.decode content with
    | error f => rfl
    | ok cs => simp [List.isEmpty_iff, Text.trim_append_newline]

/-- What the loop replies to a line as it was read is the reply to the line. -/
theorem reply_toLine (host : Host σ) (limit : Nat) (s : Segment) (state : σ) :
    (s.toLine limit).reply host limit state = s.reply host limit state := by
  unfold toLine reply
  split_ifs with hlong
  · rfl
  · rw [Line.reply, ask_whole]
    cases Utf8.decode s.content with
    | error f => rfl
    | ok cs => by_cases hblank : Text.trim cs = [] <;> simp [hblank]

end Segment

/-! ## What the loop writes -/

/-- A line of the output. -/
inductive Output where
  /-- The text of a reply. -/
  | reply (text : String)
  /-- An event. -/
  | event (e : Event)

namespace Output

/-- The text of the line. -/
def text : Output → String
  | reply text => text
  | event e => e.render

/-- The bytes of the line. -/
def bytes (o : Output) : List UInt8 := Utf8.encodeString o.text ++ [newlineByte]

/-- The text of a line that is a reply. -/
def reply? : Output → Option String
  | reply text => some text
  | event _ => none

/-- The event of a line that is one. -/
def event? : Output → Option Event
  | reply _ => none
  | event e => some e

@[simp] theorem reply?_map_reply (texts : List String) : (texts.map reply).filterMap reply? = texts := by
  rw [List.filterMap_map]
  exact List.filterMap_some

@[simp] theorem reply?_map_event (es : List Event) : (es.map event).filterMap reply? = [] := by
  simp [reply?]

@[simp] theorem event?_map_event (es : List Event) : (es.map event).filterMap event? = es := by
  rw [List.filterMap_map]
  exact List.filterMap_some

@[simp] theorem event?_map_reply (texts : List String) : (texts.map reply).filterMap event? = [] := by
  simp [event?]

/-- Where nothing is an event, all are replies. -/
theorem eq_map_reply {out : List Output} (h : out.filterMap event? = []) : out = (out.filterMap reply?).map reply := by
  induction out with
  | nil => rfl
  | cons o out ih =>
    cases o with
    | reply text => simpa [reply?] using ih (by simpa [event?] using h)
    | event e => simp [event?] at h

end Output

/-! ## The loop -/

namespace LineLoop

variable {l : LineLoop σ}

/-- The loop runs, and all that it writes is taken. -/
structure Open (l : LineLoop σ) : Prop where
  /-- The loop has not ended. -/
  running : l.ended = none
  /-- The output takes everything. -/
  room : l.sink.room = none

/-- The loop after some more lines of output. -/
def say (out : List Output) (l : LineLoop σ) : LineLoop σ :=
  { l with sink := { l.sink with written := (out.flatMap Output.bytes).reverse ++ l.sink.written } }

theorem Open.say (h : l.Open) (out : List Output) : (l.say out).Open := ⟨h.running, h.room⟩

theorem Open.writeLine (h : l.Open) (o : Output) : l.writeLine o.text = l.say [o] := by
  obtain ⟨host, state, reader, bus, listener, ⟨written, room⟩, ended⟩ := l
  obtain rfl : room = none := h.room
  simp [LineLoop.writeLine, Sink.write, LineLoop.say, Output.bytes, List.reverseAux_eq]

theorem Open.answer (h : l.Open) (line : Line) :
    l.answer line = { l with state := (line.reply l.host l.reader.limit l.state).2 }.say
      ((line.reply l.host l.reader.limit l.state).1.toList.map .reply) := by
  rw [LineLoop.answer, if_neg (by simp [h.running])]
  obtain ⟨text, state⟩ := line.reply l.host l.reader.limit l.state
  cases text with
  | none => rfl
  | some text =>
    have hopen : { l with state := state }.Open := ⟨h.running, h.room⟩
    exact hopen.writeLine (.reply text)

/-- The loop answers lines by their replies, one after another. -/
theorem Open.foldl_answer (h : l.Open) (lines : List Line) :
    lines.foldl LineLoop.answer l =
      { l with state := (replies (Line.reply l.host l.reader.limit) lines l.state).2 }.say
        ((replies (Line.reply l.host l.reader.limit) lines l.state).1.map .reply) := by
  induction lines generalizing l with
  | nil => rfl
  | cons line lines ih =>
    have hopen : { l with state := (line.reply l.host l.reader.limit l.state).2 }.Open := ⟨h.running, h.room⟩
    rw [List.foldl_cons, h.answer, ih (hopen.say _)]
    simp [replies, LineLoop.say]

/-- The loop writes the events that it gets from its bus. -/
theorem Open.writeEvents (h : l.Open) (n : Nat) :
    l.writeEvents n = { l with listener := (l.bus.hear n l.listener).2 }.say
      ((l.bus.hear n l.listener).1.map .event) := by
  induction n generalizing l with
  | zero => rfl
  | succ n ih =>
    rw [LineLoop.writeEvents, if_neg (by simp [h.running]), EventBus.hear]
    rcases hr : l.bus.receive l.listener with ⟨r, l'⟩
    have hopen : { l with listener := l' }.Open := ⟨h.running, h.room⟩
    cases r with
    | empty => rfl
    | lagged k => exact ih hopen
    | event e =>
      have hwrite := hopen.writeLine (.event e)
      rw [Output.text] at hwrite
      dsimp only
      rw [hwrite, ih (hopen.say [.event e])]
      simp [LineLoop.say]

/-! ## Runs -/

/-- The bytes of input that arrive. -/
def Happening.input : Happening → List UInt8
  | .arrival bytes => bytes
  | _ => []

/-- The events that are published. -/
def Happening.published : Happening → List Event
  | .publication es => es
  | _ => []

/-- The events that a listener of a bus gets from one thing and another. -/
def heardIn : EventBus → Listener → List Happening → List Event
  | _, _, [] => []
  | b, l, .arrival _ :: hs => heardIn b l hs
  | b, l, .publication es :: hs => heardIn (es.foldl (fun b e => b.publish 1 e) b) l hs
  | b, l, .turn n :: hs => (b.hear n l).1 ++ heardIn b (b.hear n l).2 hs

/-- A loop that began as given has read `input`, got the events `es` on its bus, and written `out`: the replies are those
to the lines that are complete, and the events follow each other on the bus. -/
structure Wrote (host : Host σ) (state : σ) (limit : Nat) (bus : EventBus) (input : List UInt8) (es : List Event)
    (out : List Output) (l : LineLoop σ) : Prop where
  /-- The loop runs. -/
  isOpen : l.Open
  /-- The host is the same. -/
  host_eq : l.host = host
  /-- The limit is the same. -/
  limit_eq : l.reader.limit = limit
  /-- The reader knows the line that is not complete. -/
  reads : l.reader.Reads (unfinished [] input)
  /-- Lines that are complete are answered. -/
  replied : replies (Line.reply host limit) (emits limit [] input) state = (out.filterMap Output.reply?, l.state)
  /-- All is written. -/
  written : l.sink.written = (out.flatMap Output.bytes).reverse
  /-- The events are on the bus. -/
  log : l.bus.log = es.reverse ++ bus.log
  /-- Events that were written came before the position of the loop on its bus. -/
  heard : ∃ k ≤ es.length, l.listener.next = bus.count + k ∧ (out.filterMap Output.event?).Sublist (es.take k)

section

variable {host : Host σ} {state : σ} {limit : Nat} {bus : EventBus} {input : List UInt8} {es : List Event}
  {out : List Output}

theorem wrote_start (host : Host σ) (state : σ) (limit : Nat) (bus : EventBus) :
    Wrote host state limit bus [] [] [] (start host state limit bus) where
  isOpen := ⟨rfl, rfl⟩
  host_eq := rfl
  limit_eq := rfl
  reads := LineReader.reads_start limit
  replied := rfl
  written := rfl
  log := rfl
  heard := ⟨0, Nat.le_refl _, rfl, List.Sublist.refl _⟩

/-- Reading bytes, the loop answers the lines that they complete. -/
theorem Wrote.feed (h : Wrote host state limit bus input es out l) (bytes : List UInt8) :
    ∃ texts : List String, Wrote host state limit bus (input ++ bytes) es (out ++ texts.map .reply) (l.feed bytes) ∧
      (l.feed bytes).bus = l.bus ∧ (l.feed bytes).listener = l.listener := by
  obtain ⟨r, hfeed, hlimit, hreads⟩ := h.reads.feed bytes
  rcases hr : replies (Line.reply host limit) (emits limit (unfinished [] input) bytes) l.state with ⟨texts, state'⟩
  have hopen : { l with reader := r }.Open := ⟨h.isOpen.running, h.isOpen.room⟩
  have hl : l.feed bytes = { l with reader := r, state := state' }.say (texts.map .reply) := by
    rw [LineLoop.feed, if_neg (by simp [h.isOpen.running]), hfeed]
    refine (hopen.foldl_answer _).trans ?_
    rw [h.host_eq, hlimit, h.limit_eq, hr]
  rw [hl]
  refine ⟨texts, ⟨⟨h.isOpen.running, h.isOpen.room⟩, h.host_eq, hlimit.trans h.limit_eq, ?_, ?_, ?_, h.log, ?_⟩, rfl, rfl⟩
  · rw [unfinished_append]
    exact hreads
  · rw [emits_append, replies_append, h.replied, hr, List.filterMap_append, Output.reply?_map_reply]
    rfl
  · rw [List.flatMap_append, List.reverse_append, ← h.written]
    rfl
  · rw [List.filterMap_append, Output.event?_map_reply, List.append_nil]
    exact h.heard

theorem Wrote.publish_eq (h : Wrote host state limit bus input es out l) (es' : List Event) :
    l.publish es' = { l with bus := es'.foldl (fun b e => b.publish 1 e) l.bus } := by
  have haudience : l.audience = 1 := by simp [audience, h.isOpen.running]
  rw [LineLoop.publish, haudience]

/-- Events that are published are on the bus. -/
theorem Wrote.publish (h : Wrote host state limit bus input es out l) (es' : List Event) :
    Wrote host state limit bus input (es ++ es') out (l.publish es') := by
  rw [h.publish_eq]
  refine ⟨⟨h.isOpen.running, h.isOpen.room⟩, h.host_eq, h.limit_eq, h.reads, h.replied, h.written, ?_, ?_⟩
  · rw [EventBus.foldl_publish Nat.one_ne_zero, h.log, List.reverse_append, List.append_assoc]
  · obtain ⟨k, hk, hnext, hsub⟩ := h.heard
    refine ⟨k, ?_, hnext, ?_⟩
    · rw [List.length_append]
      omega
    · rwa [List.take_append_of_le_length hk]

/-- The loop writes events behind those that it has written. -/
theorem Wrote.writeEvents (h : Wrote host state limit bus input es out l) (n : Nat) :
    Wrote host state limit bus input es (out ++ (l.bus.hear n l.listener).1.map .event) (l.writeEvents n) := by
  obtain ⟨k, hk, hnext, hsub⟩ := h.heard
  have hcount : l.bus.count = bus.count + es.length := by
    rw [EventBus.count, h.log, List.length_append, List.length_reverse, Nat.add_comm]
    rfl
  obtain ⟨hle, hbound, hnew⟩ := EventBus.hear_spec n (b := l.bus) (l := l.listener) (by omega)
  have heq := h.isOpen.writeEvents n
  generalize (l.bus.hear n l.listener).1 = es' at hnew heq ⊢
  generalize hl' : (l.bus.hear n l.listener).2 = l' at hle hbound hnew heq
  have hwindow : (l.bus.events.take l'.next).drop l.listener.next = (es.take (l'.next - bus.count)).drop k := by
    have hlen : bus.log.reverse.length = bus.count := List.length_reverse
    rw [EventBus.events, h.log, List.reverse_append, List.reverse_reverse, hnext, List.take_append,
      List.take_of_length_le (by omega), hlen, ← hlen, List.drop_length_add_append]
  have hsplit : es.take (l'.next - bus.count) = es.take k ++ (es.take (l'.next - bus.count)).drop k :=
    calc es.take (l'.next - bus.count)
      _ = (es.take (l'.next - bus.count)).take k ++ (es.take (l'.next - bus.count)).drop k :=
        (List.take_append_drop _ _).symm
      _ = es.take k ++ (es.take (l'.next - bus.count)).drop k := by
        rw [List.take_take, Nat.min_eq_left (by omega)]
  rw [heq]
  refine ⟨⟨h.isOpen.running, h.isOpen.room⟩, h.host_eq, h.limit_eq, h.reads, ?_, ?_, h.log,
    l'.next - bus.count, by omega, ?_, ?_⟩
  · rw [List.filterMap_append, Output.reply?_map_event, List.append_nil]
    exact h.replied
  · rw [List.flatMap_append, List.reverse_append, ← h.written]
    rfl
  · show l'.next = _
    omega
  · rw [List.filterMap_append, Output.event?_map_event, hsplit]
    exact hsub.append (hwindow ▸ hnew)

/-- Whatever happens, the loop has written the replies to the lines that are complete, and between them the events that it
got. -/
theorem Wrote.run (h : Wrote host state limit bus input es out l) (hs : List Happening) :
    ∃ out', Wrote host state limit bus (input ++ hs.flatMap Happening.input) (es ++ hs.flatMap Happening.published)
        out' (l.run hs) ∧
      out'.filterMap Output.event? = out.filterMap Output.event? ++ heardIn l.bus l.listener hs := by
  induction hs generalizing l input es out with
  | nil => exact ⟨out, by simpa [LineLoop.run] using h, by simp [heardIn]⟩
  | cons p hs ih =>
    cases p with
    | arrival bytes =>
      obtain ⟨texts, hfed, hbus, hlistener⟩ := h.feed bytes
      obtain ⟨out', h', hevents⟩ := ih hfed
      rw [hbus, hlistener, List.filterMap_append, Output.event?_map_reply, List.append_nil] at hevents
      exact ⟨out', by simpa [LineLoop.run, happen, Happening.input, Happening.published] using h', hevents⟩
    | publication es' =>
      obtain ⟨out', h', hevents⟩ := ih (h.publish es')
      rw [h.publish_eq] at hevents
      exact ⟨out', by simpa [LineLoop.run, happen, Happening.input, Happening.published] using h', hevents⟩
    | turn n =>
      obtain ⟨out', h', hevents⟩ := ih (h.writeEvents n)
      rw [h.isOpen.writeEvents n, List.filterMap_append, Output.event?_map_event, List.append_assoc] at hevents
      exact ⟨out', by simpa [LineLoop.run, happen, Happening.input, Happening.published] using h', hevents⟩

/-- The events that were written are some of those on the bus. -/
theorem Wrote.events_sublist (h : Wrote host state limit bus input es out l) :
    (out.filterMap Output.event?).Sublist es := by
  obtain ⟨k, -, -, hsub⟩ := h.heard
  exact hsub.trans (List.take_sublist _ _)

/-- At the end of the input the loop answers the rest, if it is a line, and ends. -/
theorem Wrote.close (h : Wrote host state limit bus input es out l) :
    ∃ out' : List Output, l.close.ended = some (.ok ()) ∧ l.close.reader = ⟨limit, [], false⟩ ∧ l.close.bus = l.bus ∧
      l.close.sink.written.reverse = out'.flatMap Output.bytes ∧
      (out'.filterMap Output.reply?, l.close.state) = replies (Segment.reply host limit) (segments input) state ∧
      out'.filterMap Output.event? = out.filterMap Output.event? := by
  obtain ⟨hfinish, hend⟩ := h.reads.finish
  rw [h.limit_eq] at hfinish hend
  rcases hr : replies (Line.reply host limit) (remainder limit (unfinished [] input)) l.state with ⟨texts, state'⟩
  have hopen : { l with reader := ⟨limit, [], false⟩ }.Open := ⟨h.isOpen.running, h.isOpen.room⟩
  have hanswer : (remainder limit (unfinished [] input)).foldl LineLoop.answer { l with reader := ⟨limit, [], false⟩ }
      = { l with reader := ⟨limit, [], false⟩, state := state' }.say (texts.map .reply) := by
    refine (hopen.foldl_answer _).trans ?_
    rw [h.host_eq, hr]
  have hclose : l.close
      = ({ l with reader := ⟨limit, [], false⟩, state := state' }.say (texts.map .reply)).stop (.ok ()) := by
    rw [LineLoop.close, if_neg (by simp [h.isOpen.running]), hfinish, hend, hanswer]
    exact if_neg (by simp [LineLoop.say, h.isOpen.running])
  refine ⟨out ++ texts.map .reply, by rw [hclose]; rfl, by rw [hclose]; rfl, by rw [hclose]; rfl, ?_, ?_, ?_⟩
  · have hwritten : l.close.sink.written = ((out ++ texts.map Output.reply).flatMap Output.bytes).reverse := by
      rw [hclose, List.flatMap_append, List.reverse_append, ← h.written]
      rfl
    rw [hwritten, List.reverse_reverse]
  · have hlines : emits limit [] input ++ remainder limit (unfinished [] input)
        = (segments input).map (Segment.toLine limit) := emits_remainder limit List.not_mem_nil input
    rw [← replies_map (Segment.reply_toLine host limit), ← hlines, replies_append, h.replied, hr, hclose,
      List.filterMap_append, Output.reply?_map_reply]
    rfl
  · rw [List.filterMap_append, Output.event?_map_reply, List.append_nil]

end

/-- However its input comes in, and whenever the loop turns to the events that its host publishes, its output is the
replies to the lines of the input, in order, with events between them. It runs until the end of the input, and then it
has read all of it. -/
theorem replies_of_run (host : Host σ) (state : σ) (limit : Nat) (bus : EventBus) (hs : List Happening) :
    let l := (start host state limit bus).run hs
    l.ended = none ∧ l.close.ended = some (.ok ()) ∧ l.close.reader = ⟨limit, [], false⟩ ∧
      ∃ out : List Output, l.close.sink.written.reverse = out.flatMap Output.bytes ∧
        (out.filterMap Output.reply?, l.close.state)
          = replies (Segment.reply host limit) (segments (hs.flatMap Happening.input)) state ∧
        (out.filterMap Output.event?).Sublist (hs.flatMap Happening.published) := by
  intro l
  obtain ⟨out, h, -⟩ := (wrote_start host state limit bus).run hs
  obtain ⟨out', hended, hreader, -, hwritten, hreplies, hevents⟩ := h.close
  exact ⟨h.isOpen.running, hended, hreader, out', hwritten, hreplies, hevents ▸ h.events_sublist⟩

end LineLoop

end ShellHost
