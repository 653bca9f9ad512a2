import ShellHost.Proofs.Lines.Outside

/-!
# Rounds are reading

A loop that works round by round does what a `LineLoop` does with the same bytes. All that a move can do is said once, in
`Made`. The invariant of a round is `InRound`, and `Alongside` puts a loop beside it that takes the bytes of whole rounds
all at once: a round that the read wins is the arrival of the bytes that were read, and one that an event wins is their
arrival, too, which completes no line, and then the event.
-/

namespace ShellHost

variable {σ : Type} {limit : Nat} {p c : List UInt8} {r : LineReader}

/-! ## One read -/

namespace LineReader

theorem endRead_of_paused (h : r.discarding = false) (hcomplete : r.complete = false) (hfull : r.full = false) :
    r.endRead false = (none, r) := by
  simp [endRead, h, hcomplete, hfull]

/-- A read that ends before the line does completes nothing. -/
theorem Reads.endRead_paused (h : r.Reads p) (hc : newlineByte ∉ c) (hlen : c.length < r.budget) :
    ∃ r', ({ r with buffer := c.reverse ++ r.buffer } : LineReader).endRead false = (none, r') ∧
      r'.limit = r.limit ∧ r'.Reads (p ++ c) := by
  obtain ⟨-, hreads, hfull⟩ := h.read_on hc hlen
  have hcomplete := complete_of_not_mem hreads.unended_buffer
  rcases Bool.eq_false_or_eq_true r.discarding with hdiscarding | hdiscarding
  · -- what is passed over is not kept in the buffer
    refine ⟨_, endRead_of_discarding hdiscarding, rfl, ?_⟩
    rw [hcomplete]
    refine reads_overlong hreads.unended (Nat.lt_of_not_le fun hle => ?_)
    have hkept : r.discarding = false := (hreads.kept hle).2
    rw [hdiscarding] at hkept
    cases hkept
  · exact ⟨_, endRead_of_paused hdiscarding hcomplete hfull, rfl, hreads⟩

end LineReader

namespace RoundLoop

variable {m m' : RoundLoop σ} {mv : Move} {os : List LineLoop.Occurrence} {unread taken rest : List UInt8} {budget : Nat}

/-! ## One move -/

@[simp] theorem taken_ready : Phase.ready.taken = [] := rfl

@[simp] theorem taken_reading : (Phase.reading budget taken).taken = taken := rfl

@[simp] theorem taken_finished : (Phase.finished taken).taken = taken := rfl

@[simp] theorem taken_after (budget : Nat) (taken c : List UInt8) : (Phase.after budget taken c).taken = taken ++ c := by
  unfold Phase.after
  split <;> rfl

theorem after_newline (budget : Nat) (taken c : List UInt8) :
    Phase.after budget taken (c ++ [newlineByte]) = .finished (taken ++ c ++ [newlineByte]) := by
  simp [Phase.after]

theorem after_full (h : budget ≤ (taken ++ c).length) : Phase.after budget taken c = .finished (taken ++ c) :=
  if_pos (Or.inr h)

theorem after_waits (hc : newlineByte ∉ c) (h : (taken ++ c).length < budget) :
    Phase.after budget taken c = .reading budget (taken ++ c) := by
  refine if_neg (not_or.mpr ⟨fun hlast => hc ?_, Nat.not_le_of_lt h⟩)
  exact List.mem_of_getLast? hlast

/-- A read takes bytes up to the first newline, or all that is left of its budget, or all that have come. -/
theorem poll_spec (hphase : m.phase = .reading budget taken) (n : Nat) :
    ∃ c rest, m.unread.take n = c ++ rest ∧ c.length ≤ budget - taken.length ∧
      m.poll n = ⟨{ m.loop with reader := { m.loop.reader with buffer := c.reverse ++ m.loop.reader.buffer } },
        rest ++ m.unread.drop n, .after budget taken c⟩ ∧
      ((∃ c', newlineByte ∉ c' ∧ c = c' ++ [newlineByte]) ∨
        (newlineByte ∉ c ∧ (c.length = budget - taken.length ∨ rest = []))) := by
  obtain ⟨c, rest, htake, hline, hle, hcase⟩ := takeLine_spec (budget - taken.length) [] (m.unread.take n)
  refine ⟨c, rest, htake, hle, ?_, hcase⟩
  unfold poll
  rw [hphase]
  dsimp only
  rw [hline, List.append_nil, List.reverse_reverse]

/-- What a move does, and what it is for a loop that takes bytes all at once. A move that cannot be made is `idle`; a read
that is settled has found the end of the input (`settleEnd`) or has taken something (`settleRead`). -/
inductive Made (m : RoundLoop σ) : Move → RoundLoop σ → List LineLoop.Occurrence → Prop where
  | idle {mv : Move} : Made m mv m []
  | begin (hphase : m.phase = .ready) (hrun : m.loop.ended = none) :
    Made m .begin { m with phase := .reading m.loop.reader.budget [] } []
  | poll {budget n : Nat} {taken c rest : List UInt8} (hphase : m.phase = .reading budget taken)
    (hunread : m.unread = c ++ rest) (hlen : c.length ≤ budget - taken.length)
    (hline : (∃ c', newlineByte ∉ c' ∧ c = c' ++ [newlineByte]) ∨ newlineByte ∉ c) :
    Made m (.poll n) ⟨{ m.loop with reader := { m.loop.reader with buffer := c.reverse ++ m.loop.reader.buffer } }, rest,
      .after budget taken c⟩ []
  | findEnd {budget : Nat} {taken : List UInt8} (hphase : m.phase = .reading budget taken) (hdry : m.unread = []) :
    Made m .findEnd { m with phase := .finished taken } []
  | failRead {budget : Nat} {taken : List UInt8} (hphase : m.phase = .reading budget taken) (reason : String) :
    Made m (.failRead reason) ⟨m.loop.failRead reason, m.unread, .ready⟩ [.next (.arrival taken), .inputFails reason]
  | settleEnd (hphase : m.phase = .finished []) : Made m .settle ⟨m.loop.endRead true, m.unread, .ready⟩ [.inputEnds]
  | settleRead {taken : List UInt8} (hphase : m.phase = .finished taken) (hne : taken ≠ []) :
    Made m .settle ⟨m.loop.endRead false, m.unread, .ready⟩ [.next (.arrival taken)]
  | turn {budget : Nat} {taken : List UInt8} (hphase : m.phase = .reading budget taken)
    (hevent : m.loop.hasEvent = true) :
    Made m .turn ⟨m.loop.writeEvents 1, m.unread, .ready⟩ [.next (.arrival taken), .next (.turn 1)]
  | publish (es : List Event) : Made m (.publish es) { m with loop := m.loop.publish es } [.next (.publication es)]
  | failWrites (room : Nat) (reason : String) :
    Made m (.failWrites room reason) { m with loop := m.loop.failWrites room reason } [.outputFails room reason]

theorem begin_of_ready (hphase : m.phase = .ready) (hrun : m.loop.ended = none) :
    m.begin = { m with phase := .reading m.loop.reader.budget [] } := by
  rw [RoundLoop.begin, hphase]
  exact if_neg (by simp [hrun])

theorem findEnd_of_dry (hphase : m.phase = .reading budget taken) (hdry : m.unread = []) :
    m.findEnd = { m with phase := .finished taken } := by
  rw [RoundLoop.findEnd, hphase]
  exact if_pos hdry

theorem settle_of_finished (hphase : m.phase = .finished taken) :
    m.settle = ⟨m.loop.endRead taken.isEmpty, m.unread, .ready⟩ := by
  rw [RoundLoop.settle, hphase]

theorem turn_of_hasEvent (hphase : m.phase = .reading budget taken) (hevent : m.loop.hasEvent = true) :
    m.turn = ⟨m.loop.writeEvents 1, m.unread, .ready⟩ := by
  rw [RoundLoop.turn, hphase]
  exact if_pos hevent

theorem made_begin (m : RoundLoop σ) : Made m .begin m.begin [] := by
  cases hphase : m.phase with
  | reading | finished =>
    rw [RoundLoop.begin, hphase]
    exact .idle
  | ready =>
    cases hrun : m.loop.ended with
    | none =>
      rw [begin_of_ready hphase hrun]
      exact .begin hphase hrun
    | some res =>
      rw [RoundLoop.begin, hphase]
      dsimp only
      rw [if_pos (by simp [hrun])]
      exact .idle

theorem made_poll (m : RoundLoop σ) (n : Nat) : Made m (.poll n) (m.poll n) [] := by
  cases hphase : m.phase with
  | ready | finished =>
    rw [RoundLoop.poll, hphase]
    exact .idle
  | reading budget taken =>
    obtain ⟨c, rest, htake, hle, hpoll, hcase⟩ := poll_spec hphase n
    have hunread : m.unread = c ++ (rest ++ m.unread.drop n) := by
      rw [← List.append_assoc, ← htake, List.take_append_drop]
    rw [hpoll]
    exact .poll hphase hunread hle (hcase.imp_right And.left)

theorem made_findEnd (m : RoundLoop σ) : Made m .findEnd m.findEnd [] := by
  cases hphase : m.phase with
  | ready | finished =>
    rw [RoundLoop.findEnd, hphase]
    exact .idle
  | reading budget taken =>
    by_cases hdry : m.unread = []
    · rw [findEnd_of_dry hphase hdry]
      exact .findEnd hphase hdry
    · rw [RoundLoop.findEnd, hphase]
      dsimp only
      rw [if_neg hdry]
      exact .idle

theorem made_failRead (m : RoundLoop σ) (reason : String) :
    Made m (.failRead reason) (m.failRead reason) (m.occurrence (.failRead reason)) := by
  rw [occurrence, RoundLoop.failRead, RoundLoop.arrival]
  cases hphase : m.phase with
  | ready | finished => exact .idle
  | reading budget taken => exact .failRead hphase reason

theorem made_settle (m : RoundLoop σ) : Made m .settle m.settle (m.occurrence .settle) := by
  rw [occurrence, RoundLoop.settle, RoundLoop.arrival]
  cases hphase : m.phase with
  | ready | reading => exact .idle
  | finished taken =>
    cases taken with
    | nil => exact .settleEnd hphase
    | cons b bytes => exact .settleRead hphase (List.cons_ne_nil b bytes)

theorem made_turn (m : RoundLoop σ) : Made m .turn m.turn (m.occurrence .turn) := by
  rw [occurrence, RoundLoop.turn, RoundLoop.arrival]
  cases hphase : m.phase with
  | ready | finished => exact .idle
  | reading budget taken =>
    dsimp only
    split
    case isTrue hevent => exact .turn hphase hevent
    case isFalse => exact .idle

theorem made (m : RoundLoop σ) (mv : Move) : Made m mv (m.move mv) (m.occurrence mv) := by
  cases mv with
  | begin => exact made_begin m
  | poll n => exact made_poll m n
  | findEnd => exact made_findEnd m
  | failRead reason => exact made_failRead m reason
  | settle => exact made_settle m
  | turn => exact made_turn m
  | publish es => exact .publish es
  | failWrites room reason => exact .failWrites room reason

/-! ## One round -/

/-- How a round may stand that began with the reader `r`, where some bytes are not read: its read has taken no newline
and has not used up its budget, or it ended with the newline, with its budget or with the input. -/
inductive Stands (r : LineReader) (unread : List UInt8) : Phase → Prop where
  /-- The round has not begun. -/
  | ready : Stands r unread .ready
  /-- The read waits for more. -/
  | reading {c : List UInt8} (hc : newlineByte ∉ c) (hlen : c.length < r.budget) : Stands r unread (.reading r.budget c)
  /-- The read has found the newline. -/
  | newline {c : List UInt8} (hc : newlineByte ∉ c) (hlen : c.length < r.budget) :
    Stands r unread (.finished (c ++ [newlineByte]))
  /-- The read has taken all that it may. -/
  | full {c : List UInt8} (hc : newlineByte ∉ c) (hlen : c.length = r.budget) : Stands r unread (.finished c)
  /-- The read has found the end of the input. -/
  | dry {c : List UInt8} (hc : newlineByte ∉ c) (hlen : c.length < r.budget) (hdry : unread = []) :
    Stands r unread (.finished c)

/-- The loop is in a round that began with the reader `r`, which knew the line `p`. -/
structure InRound (limit : Nat) (r : LineReader) (p : List UInt8) (m : RoundLoop σ) : Prop where
  /-- The limit stays the same. -/
  limit_eq : r.limit = limit
  /-- The reader knew the line. -/
  began : r.Reads p
  /-- The buffer has the bytes that were taken on top of it. -/
  reader_eq : m.loop.reader = { r with buffer := m.phase.taken.reverse ++ r.buffer }
  /-- The read stands well. -/
  stands : Stands r m.unread m.phase
  /-- A loop that has ended begins no round. -/
  running : m.phase ≠ .ready → m.loop.ended = none

/-- A read that has ended with some bytes gives the line that they complete. -/
theorem Stands.endRead (h : Stands r unread (.finished taken)) (hr : r.Reads p) :
    ∃ line r', ({ r with buffer := taken.reverse ++ r.buffer } : LineReader).endRead false = (line, r') ∧
      line.toList = emits r.limit p taken ∧ r'.limit = r.limit ∧ r'.Reads (unfinished p taken) := by
  cases h with
  | @newline c hc hlen =>
    have hunfinished : unfinished p (c ++ [newlineByte]) = [] := by simp [unfinished]
    rw [hunfinished]
    exact hr.endRead_newline hc hlen
  | full hc hlen =>
    rw [unfinished_of_not_mem hc]
    exact hr.endRead_full hc hlen
  | dry hc hlen =>
    obtain ⟨hemits, -, -⟩ := hr.read_on hc hlen
    obtain ⟨r', hend, hlimit, hreads⟩ := hr.endRead_paused hc hlen
    rw [unfinished_of_not_mem hc, hemits]
    exact ⟨none, r', hend, rfl, hlimit, hreads⟩

/-- A read that has taken nothing has found the end of the input, since it may have taken something. -/
theorem Stands.dry_of_finished_nil (h : Stands r unread (.finished [])) : unread = [] := by
  generalize hfinished : Phase.finished [] = phase at h
  cases h with
  | ready | reading => cases hfinished
  | newline => simp at hfinished
  | full hc hlen =>
    obtain rfl := (Phase.finished.inj hfinished).symm
    exact absurd hlen (Nat.ne_of_lt r.budget_pos)
  | dry hc hlen hdry => exact hdry

/-- The bytes that a read has taken so far complete nothing, and the reader knows them. -/
theorem InRound.waits (h : m.InRound limit r p) (hphase : m.phase = .reading budget taken) :
    taken.length < budget ∧ emits limit p taken = [] ∧ m.loop.reader.limit = limit ∧
      m.loop.reader.Reads (unfinished p taken) := by
  have hstands := h.stands
  have hreader := h.reader_eq
  rw [hphase] at hstands hreader
  cases hstands with
  | reading hc hlen =>
    obtain ⟨hemits, hreads, -⟩ := h.began.read_on hc hlen
    rw [h.limit_eq] at hemits
    rw [unfinished_of_not_mem hc, hreader]
    exact ⟨hlen, hemits, h.limit_eq, hreads⟩

theorem InRound.begin (h : m.InRound limit r p) (hphase : m.phase = .ready) (hrun : m.loop.ended = none) :
    InRound limit r p { m with phase := .reading m.loop.reader.budget [] } := by
  have hreader := h.reader_eq
  rw [hphase] at hreader
  have hreader : m.loop.reader = r := hreader
  refine ⟨h.limit_eq, h.began, hreader, ?_, fun _ => hrun⟩
  rw [hreader]
  exact .reading List.not_mem_nil r.budget_pos

theorem InRound.poll (h : m.InRound limit r p) (hphase : m.phase = .reading budget taken)
    (hlen : c.length ≤ budget - taken.length)
    (hline : (∃ c', newlineByte ∉ c' ∧ c = c' ++ [newlineByte]) ∨ newlineByte ∉ c) :
    InRound limit r p ⟨{ m.loop with reader := { m.loop.reader with buffer := c.reverse ++ m.loop.reader.buffer } }, rest,
      .after budget taken c⟩ := by
  refine ⟨h.limit_eq, h.began, ?_, ?_, fun _ => h.running (by simp [hphase])⟩
  · rw [taken_after, h.reader_eq, hphase]
    simp
  · have hstands := h.stands
    rw [hphase] at hstands
    cases hstands with
    | reading htaken hlt =>
      rcases hline with ⟨c', hc', rfl⟩ | hc
      · rw [List.length_append, List.length_singleton] at hlen
        rw [after_newline]
        refine .newline (by simp [htaken, hc']) ?_
        rw [List.length_append]
        omega
      · have hmem : newlineByte ∉ taken ++ c := by simp [htaken, hc]
        by_cases hfull : (taken ++ c).length = r.budget
        · rw [after_full (Nat.le_of_eq hfull.symm)]
          exact .full hmem hfull
        · have hlt' : (taken ++ c).length < r.budget := by
            rw [List.length_append] at hfull ⊢
            omega
          rw [after_waits hc hlt']
          exact .reading hmem hlt'

theorem InRound.findEnd (h : m.InRound limit r p) (hphase : m.phase = .reading budget taken) (hdry : m.unread = []) :
    InRound limit r p { m with phase := .finished taken } := by
  have hstands := h.stands
  have hreader := h.reader_eq
  rw [hphase] at hstands hreader
  cases hstands with
  | reading hc hlen =>
    exact ⟨h.limit_eq, h.began, hreader, .dry hc hlen hdry, fun _ => h.running (by simp [hphase])⟩

/-- What comes from outside the loop leaves the round as it is. -/
theorem InRound.setLoop (h : m.InRound limit r p) {l : LineLoop σ} (hreader : l.reader = m.loop.reader)
    (hended : l.ended = m.loop.ended) : InRound limit r p { m with loop := l } :=
  ⟨h.limit_eq, h.began, hreader.trans h.reader_eq, h.stands, fun hne => hended.trans (h.running hne)⟩

/-- A round that an event or a failure ends leaves the bytes that it took in the buffer. -/
theorem InRound.dropped (h : m.InRound limit r p) (hphase : m.phase = .reading budget taken) {l : LineLoop σ}
    (hl : l.reader = m.loop.reader) : InRound limit m.loop.reader (unfinished p taken) ⟨l, m.unread, .ready⟩ := by
  obtain ⟨-, -, hlimit, hreads⟩ := h.waits hphase
  exact ⟨hlimit, hreads, hl, .ready, fun hne => absurd rfl hne⟩

/-- A round that the read wins answers the lines that its bytes complete. -/
theorem InRound.settleRead (h : m.InRound limit r p) (hphase : m.phase = .finished taken) :
    (∃ r', InRound limit r' (unfinished p taken) ⟨m.loop.endRead false, m.unread, .ready⟩) ∧
      (m.loop.endRead false).outside = (emits limit p taken).foldl LineLoop.answer m.loop.outside := by
  have hstands := h.stands
  have hreader := h.reader_eq
  rw [hphase] at hstands hreader
  obtain ⟨line, r', hend, hline, hlimit, hreads⟩ := hstands.endRead h.began
  have hread : m.loop.reader.endRead false = (line, r') := by
    rw [hreader]
    exact hend
  have hr' : r'.limit = m.loop.reader.limit := by rw [hlimit, hreader]
  rw [h.limit_eq] at hline hlimit
  rw [LineLoop.endRead_false hread, ← hline]
  refine ⟨⟨r', hlimit, hreads, LineLoop.reader_foldl_answer _ _, .ready, fun hne => absurd rfl hne⟩, ?_⟩
  rw [LineLoop.outside_foldl_answer, LineLoop.outside_setReader hr']

/-- A round whose read has found nothing ends the loop. -/
theorem InRound.settleEnd (h : m.InRound limit r p) (hphase : m.phase = .finished []) :
    (∃ r', InRound limit r' [] ⟨m.loop.endRead true, m.unread, .ready⟩) ∧
      (m.loop.endRead true).outside = m.loop.outside.conclude (remainder limit p) := by
  have hrun : m.loop.ended = none := h.running (by simp [hphase])
  have hreader := h.reader_eq
  rw [hphase] at hreader
  have hreader : m.loop.reader = r := hreader
  have hreads : m.loop.reader.Reads p := hreader ▸ h.began
  have hlimit : m.loop.reader.limit = limit := hreader ▸ h.limit_eq
  obtain ⟨houtside, hclosed⟩ := LineLoop.close_outside hrun hreads
  rw [hlimit] at houtside hclosed
  rw [LineLoop.endRead_true hrun]
  exact ⟨⟨_, rfl, LineReader.reads_start limit, hclosed, .ready, fun hne => absurd rfl hne⟩, houtside⟩

/-! ## All moves -/

/-- A loop in a round, beside one that had all bytes before this round at once. -/
structure Alongside (limit : Nat) (l : LineLoop σ) (r : LineReader) (p : List UInt8) (m : RoundLoop σ) : Prop where
  /-- The round. -/
  inRound : m.InRound limit r p
  /-- Both know the same line. -/
  reads : l.reader.Reads p
  /-- Both are the same apart from their readers. -/
  outside_eq : m.loop.outside = l.outside

variable {l : LineLoop σ}

theorem Alongside.limit_eq (h : m.Alongside limit l r p) : l.reader.limit = limit := by
  rw [← LineLoop.limit_of_outside h.outside_eq, h.inRound.reader_eq]
  exact h.inRound.limit_eq

theorem Alongside.running (h : m.Alongside limit l r p) (hphase : m.phase ≠ .ready) : l.ended = none := by
  rw [← LineLoop.ended_of_outside h.outside_eq]
  exact h.inRound.running hphase

/-- The bytes that a read has taken so far change nothing but the line that is known. -/
theorem Alongside.arrival (h : m.Alongside limit l r p) (hphase : m.phase = .reading budget taken) :
    (l.feed taken).outside = m.loop.outside ∧ (l.feed taken).reader.Reads (unfinished p taken) := by
  obtain ⟨-, hemits, -, -⟩ := h.inRound.waits hphase
  obtain ⟨houtside, hreads⟩ := LineLoop.feed_outside (h.running (by simp [hphase])) h.reads taken
  rw [h.limit_eq, hemits] at houtside
  exact ⟨houtside.trans h.outside_eq.symm, hreads⟩

/-- Whatever a loop does in its rounds, the other one does with the bytes of whole rounds. -/
theorem Made.alongside (hmade : Made m mv m' os) (h : m.Alongside limit l r p) :
    ∃ r' p', m'.Alongside limit (l.undergo os) r' p' := by
  cases hmade with
  | idle => exact ⟨r, p, h⟩
  | begin hphase hrun => exact ⟨r, p, h.inRound.begin hphase hrun, h.reads, h.outside_eq⟩
  | poll hphase hunread hlen hline =>
    exact ⟨r, p, h.inRound.poll hphase hlen hline, h.reads, h.outside_eq⟩
  | findEnd hphase hdry => exact ⟨r, p, h.inRound.findEnd hphase hdry, h.reads, h.outside_eq⟩
  | failRead hphase reason =>
    obtain ⟨houtside, hreads⟩ := h.arrival hphase
    refine ⟨_, _, h.inRound.dropped hphase (LineLoop.reader_failRead m.loop reason), ?_, ?_⟩
    · show ((l.feed _).failRead reason).reader.Reads _
      rw [LineLoop.reader_failRead]
      exact hreads
    · show (m.loop.failRead reason).outside = ((l.feed _).failRead reason).outside
      rw [LineLoop.outside_failRead, LineLoop.outside_failRead, houtside]
  | settleEnd hphase =>
    obtain ⟨⟨r', hround⟩, houtside⟩ := h.inRound.settleEnd hphase
    obtain ⟨hclose, hreader⟩ := LineLoop.close_outside (h.running (by simp [hphase])) h.reads
    rw [h.limit_eq] at hclose hreader
    refine ⟨r', [], hround, ?_, ?_⟩
    · show l.close.reader.Reads []
      rw [hreader]
      exact LineReader.reads_start limit
    · rw [houtside, h.outside_eq, ← hclose]
      rfl
  | @settleRead taken hphase hne =>
    obtain ⟨⟨r', hround⟩, houtside⟩ := h.inRound.settleRead hphase
    obtain ⟨hfeed, hreads⟩ := LineLoop.feed_outside (h.running (by simp [hphase])) h.reads taken
    rw [h.limit_eq] at hfeed
    refine ⟨r', unfinished p taken, hround, hreads, ?_⟩
    rw [houtside, h.outside_eq, ← hfeed]
    rfl
  | turn hphase =>
    obtain ⟨houtside, hreads⟩ := h.arrival hphase
    refine ⟨_, _, h.inRound.dropped hphase (LineLoop.reader_writeEvents 1 m.loop), ?_, ?_⟩
    · show ((l.feed _).writeEvents 1).reader.Reads _
      rw [LineLoop.reader_writeEvents]
      exact hreads
    · show (m.loop.writeEvents 1).outside = ((l.feed _).writeEvents 1).outside
      rw [LineLoop.outside_writeEvents, LineLoop.outside_writeEvents, houtside]
  | publish es =>
    refine ⟨r, p, h.inRound.setLoop rfl rfl, h.reads, ?_⟩
    show m.loop.outside.publish es = l.outside.publish es
    rw [h.outside_eq]
  | failWrites room reason =>
    refine ⟨r, p, h.inRound.setLoop rfl rfl, h.reads, ?_⟩
    show m.loop.outside.failWrites room reason = l.outside.failWrites room reason
    rw [h.outside_eq]

theorem Alongside.run (h : m.Alongside limit l r p) (ms : List Move) :
    ∃ r' p', (m.run ms).Alongside limit (l.undergo (m.occurrences ms)) r' p' := by
  induction ms generalizing m l r p with
  | nil => exact ⟨r, p, h⟩
  | cons mv ms ih =>
    obtain ⟨r', p', h'⟩ := (made m mv).alongside h
    obtain ⟨r'', p'', h''⟩ := ih h'
    refine ⟨r'', p'', ?_⟩
    rw [occurrences, LineLoop.undergo_append]
    exact h''

theorem alongside_start (host : Host σ) (state : σ) (limit : Nat) (bus : EventBus) (input : List UInt8) :
    (start host state limit bus input).Alongside limit (.start host state limit bus) ⟨limit, [], false⟩ [] where
  inRound := ⟨rfl, LineReader.reads_start limit, rfl, .ready, fun hne => absurd rfl hne⟩
  reads := LineReader.reads_start limit
  outside_eq := rfl

end RoundLoop

end ShellHost
