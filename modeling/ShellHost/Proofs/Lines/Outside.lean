import ShellHost.Lines.Rounds
import ShellHost.Proofs.Lines.Replies

/-!
# The loop apart from its reader

What a loop does with its input only depends on the line that its reader knows, and on what the loop is apart from its
reader (`outside`). Bytes that arrive are the answers to the lines that they complete (`feed_outside`), and the end of
the input is the answer to the rest (`close_outside`). Everything else that comes does not touch the reader.
-/

namespace ShellHost

variable {σ : Type} {p : List UInt8} {r : LineReader}

namespace LineLoop

variable {l : LineLoop σ}

/-- The loop apart from the line that it is reading. -/
def outside (l : LineLoop σ) : LineLoop σ := { l with reader := ⟨l.reader.limit, [], false⟩ }

@[simp] theorem outside_ended (l : LineLoop σ) : l.outside.ended = l.ended := rfl

@[simp] theorem outside_hasEvent (l : LineLoop σ) : l.outside.hasEvent = l.hasEvent := rfl

theorem outside_setReader {r : LineReader} (h : r.limit = l.reader.limit) :
    ({ l with reader := r } : LineLoop σ).outside = l.outside := by
  simp only [outside, h]

theorem limit_of_outside {l' : LineLoop σ} (h : l.outside = l'.outside) : l.reader.limit = l'.reader.limit := by
  have hlimit : l.outside.reader.limit = l'.outside.reader.limit := by rw [h]
  exact hlimit

theorem ended_of_outside {l' : LineLoop σ} (h : l.outside = l'.outside) : l.ended = l'.ended := by
  rw [← outside_ended l, h, outside_ended]

@[simp] theorem reader_writeLine (l : LineLoop σ) (text : String) : (l.writeLine text).reader = l.reader := by
  unfold writeLine
  split
  · rfl
  · split <;> rfl

theorem outside_writeLine (l : LineLoop σ) (text : String) : (l.writeLine text).outside = l.outside.writeLine text := by
  unfold writeLine
  have hsink : l.outside.sink = l.sink := rfl
  rw [hsink]
  split
  · rfl
  · split <;> rfl

@[simp] theorem reader_answer (l : LineLoop σ) (line : Line) : (l.answer line).reader = l.reader := by
  unfold answer
  split
  · rfl
  · split
    · rfl
    · rw [reader_writeLine]

theorem outside_answer (l : LineLoop σ) (line : Line) : (l.answer line).outside = l.outside.answer line := by
  unfold answer
  rw [outside_ended]
  split
  · rfl
  · have hreply : line.reply l.outside.host l.outside.reader.limit l.outside.state
        = line.reply l.host l.reader.limit l.state := rfl
    rw [hreply]
    cases line.reply l.host l.reader.limit l.state with
    | mk text state =>
      cases text with
      | none => rfl
      | some text => exact outside_writeLine _ text

@[simp] theorem reader_foldl_answer (lines : List Line) (l : LineLoop σ) : (lines.foldl answer l).reader = l.reader := by
  induction lines generalizing l with
  | nil => rfl
  | cons line lines ih => rw [List.foldl_cons, ih, reader_answer]

theorem outside_foldl_answer (lines : List Line) (l : LineLoop σ) :
    (lines.foldl answer l).outside = lines.foldl answer l.outside := by
  induction lines generalizing l with
  | nil => rfl
  | cons line lines ih => rw [List.foldl_cons, List.foldl_cons, ih, outside_answer]

theorem reader_writeEvents (n : Nat) (l : LineLoop σ) : (l.writeEvents n).reader = l.reader := by
  induction n generalizing l with
  | zero => rfl
  | succ n ih =>
    unfold writeEvents
    split
    · rfl
    · split
      · rfl
      · rw [ih]
      · rw [ih, reader_writeLine]

theorem outside_writeEvents (n : Nat) (l : LineLoop σ) : (l.writeEvents n).outside = l.outside.writeEvents n := by
  induction n generalizing l with
  | zero => rfl
  | succ n ih =>
    unfold writeEvents
    rw [outside_ended]
    split
    · rfl
    · have hreceive : l.outside.bus.receive l.outside.listener = l.bus.receive l.listener := rfl
      rw [hreceive]
      rcases l.bus.receive l.listener with ⟨received, listener⟩
      cases received with
      | empty => rfl
      | lagged k => exact ih _
      | event e =>
        dsimp only
        rw [ih, outside_writeLine]
        rfl

@[simp] theorem reader_failRead (l : LineLoop σ) (reason : String) : (l.failRead reason).reader = l.reader := by
  unfold failRead
  split <;> rfl

theorem outside_failRead (l : LineLoop σ) (reason : String) :
    (l.failRead reason).outside = l.outside.failRead reason := by
  unfold failRead
  rw [outside_ended]
  split <;> rfl

theorem undergo_append (l : LineLoop σ) (os os' : List Occurrence) :
    l.undergo (os ++ os') = (l.undergo os).undergo os' := List.foldl_append

/-- The loop after the lines that the end of its input completes. -/
def conclude (lines : List Line) (l : LineLoop σ) : LineLoop σ :=
  if (lines.foldl answer l).ended.isSome then lines.foldl answer l else (lines.foldl answer l).stop (.ok ())

theorem outside_conclude (lines : List Line) (l : LineLoop σ) :
    (l.conclude lines).outside = l.outside.conclude lines := by
  unfold conclude
  rw [← outside_foldl_answer, outside_ended]
  split
  · rfl
  · rfl

theorem ended_conclude (lines : List Line) (l : LineLoop σ) : (l.conclude lines).ended.isSome := by
  unfold conclude
  split
  · assumption
  · rfl

theorem reader_conclude (lines : List Line) (l : LineLoop σ) : (l.conclude lines).reader = l.reader := by
  unfold conclude
  split
  · exact reader_foldl_answer lines l
  · exact reader_foldl_answer lines l

/-! ## Bytes that come all at once -/

/-- Bytes that arrive are answered by the lines that they complete. -/
theorem feed_outside (hrun : l.ended = none) (h : l.reader.Reads p) (bytes : List UInt8) :
    (l.feed bytes).outside = (emits l.reader.limit p bytes).foldl answer l.outside ∧
      (l.feed bytes).reader.Reads (unfinished p bytes) := by
  obtain ⟨r, hfeed, hlimit, hreads⟩ := h.feed bytes
  have hl : l.feed bytes = (emits l.reader.limit p bytes).foldl answer { l with reader := r } := by
    rw [feed, if_neg (by simp [hrun]), hfeed]
  rw [hl, outside_foldl_answer, outside_setReader hlimit, reader_foldl_answer]
  exact ⟨rfl, hreads⟩

/-- The end of the input is a read that takes nothing. -/
theorem endRead_true (hrun : l.ended = none) : l.endRead true = l.close := by
  rw [close, if_neg (by simp [hrun]), LineReader.finish, endRead]
  rcases l.reader.endRead true with ⟨line, reader⟩
  dsimp only
  cases (line.toList.foldl answer { l with reader := reader }).ended <;> rfl

theorem endRead_false {line : Option Line} (h : l.reader.endRead false = (line, r)) :
    l.endRead false = line.toList.foldl answer { l with reader := r } := by
  rw [endRead, h]
  rfl

/-- At the end of the input the rest is answered, if it is a line. -/
theorem close_outside (hrun : l.ended = none) (h : l.reader.Reads p) :
    l.close.outside = l.outside.conclude (remainder l.reader.limit p) ∧ l.close.reader = ⟨l.reader.limit, [], false⟩ := by
  obtain ⟨hfinish, hreader⟩ := h.finish
  have hl : l.close = l.outside.conclude (remainder l.reader.limit p) := by
    rw [close, if_neg (by simp [hrun]), hfinish, hreader]
    rfl
  rw [hl, outside_conclude, reader_conclude]
  exact ⟨rfl, rfl⟩

end LineLoop

end ShellHost
