import ShellHost.Proofs.Lines.Rounds

/-!
# Every run is made of rounds

Whatever comes to a loop that takes its bytes all at once, a loop that works round by round can do the same: it polls
for the bytes that arrive until it has read them all, and begins a round for each event. What is left of a line then
waits in a read that has not ended.
-/

namespace ShellHost

variable {σ : Type} {limit : Nat} {p q bytes rest : List UInt8}

namespace LineLoop

variable {o : LineLoop σ}

theorem Open.foldl_isOpen (h : o.Open) (lines : List Line) : (lines.foldl LineLoop.answer o).Open := by
  rw [h.foldl_answer]
  exact ⟨h.running, h.room⟩

theorem writeEvents_of_quiet (h : o.hasEvent = false) (n : Nat) : o.writeEvents n = o := by
  cases n with
  | zero => rfl
  | succ n =>
    unfold writeEvents
    unfold hasEvent at h
    split
    · rfl
    · rcases hreceive : o.bus.receive o.listener with ⟨received, listener⟩
      rw [hreceive] at h
      cases received with
      | empty => rfl
      | event e => simp at h
      | lagged k => simp at h

/-- The loop writes one event after another. -/
theorem Open.writeEvents_succ (h : o.Open) (hevent : o.hasEvent = true) (n : Nat) :
    o.writeEvents (n + 1) = (o.writeEvents 1).writeEvents n ∧ (o.writeEvents 1).Open := by
  have hrun : ¬o.ended.isSome = true := by simp [h.running]
  unfold hasEvent at hevent
  rw [LineLoop.writeEvents, LineLoop.writeEvents, if_neg hrun, if_neg hrun]
  rcases hreceive : o.bus.receive o.listener with ⟨received, listener⟩
  rw [hreceive] at hevent
  have hopen : { o with listener := listener }.Open := ⟨h.running, h.room⟩
  cases received with
  | empty => simp at hevent
  | lagged k => exact ⟨rfl, hopen⟩
  | event e =>
    refine ⟨rfl, ?_⟩
    show ({ o with listener := listener }.writeLine (Output.event e).text).Open
    rw [hopen.writeLine]
    exact hopen.say _

end LineLoop

namespace RoundLoop

variable {m : RoundLoop σ} {o l : LineLoop σ} {r : LineReader} {unread taken c : List UInt8} {budget : Nat}

/-- The loop is in a round whose read waits. It is `o` apart from its reader, and knows the line `q`. -/
structure Waits (limit : Nat) (o : LineLoop σ) (q : List UInt8) (m : RoundLoop σ) : Prop where
  /-- The round knows the line. -/
  round : ∃ r p budget taken, m.InRound limit r p ∧ m.phase = .reading budget taken ∧ unfinished p taken = q
  /-- The loop apart from its reader. -/
  outside_eq : m.loop.outside = o
  /-- The loop runs, and all that it writes is taken. -/
  isOpen : o.Open

theorem Waits.limit_eq (h : m.Waits limit l.outside q) : l.reader.limit = limit := by
  obtain ⟨r, p, budget, taken, hround, -⟩ := h.round
  have hlimit := LineLoop.limit_of_outside h.outside_eq
  rw [hround.reader_eq] at hlimit
  exact hlimit.symm.trans hround.limit_eq

/-- A loop that has ended a round, but still runs, begins the next one. -/
theorem InRound.next (h : InRound limit r q ⟨l, unread, .ready⟩) (houtside : l.outside = o) (ho : o.Open) :
    (RoundLoop.begin ⟨l, unread, .ready⟩).Waits limit o q ∧ (RoundLoop.begin ⟨l, unread, .ready⟩).unread = unread ∧
      (RoundLoop.begin ⟨l, unread, .ready⟩).phase = .reading l.reader.budget [] := by
  have hrun : l.ended = none := by
    rw [← LineLoop.outside_ended, houtside]
    exact ho.running
  have hbegin : RoundLoop.begin ⟨l, unread, .ready⟩ = ⟨l, unread, .reading l.reader.budget []⟩ := begin_of_ready rfl hrun
  rw [hbegin]
  exact ⟨⟨⟨r, q, _, [], h.begin rfl hrun, rfl, rfl⟩, houtside, ho⟩, rfl, rfl⟩

/-- A loop whose read is over answers what the bytes that were taken last complete, and begins the next round. -/
theorem InRound.next_of_finished (h : m.InRound limit r p) (hphase : m.phase = .finished (taken ++ c))
    (hne : taken ++ c ≠ []) (hemits : emits limit p taken = []) (houtside : m.loop.outside = o) (ho : o.Open) :
    (m.run [.settle, .begin]).Waits limit ((emits limit (unfinished p taken) c).foldl LineLoop.answer o)
        (unfinished (unfinished p taken) c) ∧
      (m.run [.settle, .begin]).unread = m.unread ∧
      ∃ budget, (m.run [.settle, .begin]).phase = .reading budget [] := by
  obtain ⟨⟨r', hround⟩, hsettled⟩ := h.settleRead hphase
  rw [emits_append, hemits, List.nil_append, houtside] at hsettled
  rw [unfinished_append] at hround
  have hsettle : m.settle = ⟨m.loop.endRead false, m.unread, .ready⟩ := by
    rw [settle_of_finished hphase, List.isEmpty_eq_false_iff.mpr hne]
  have hrun : m.run [.settle, .begin] = RoundLoop.begin ⟨m.loop.endRead false, m.unread, .ready⟩ := by
    rw [← hsettle]
    rfl
  obtain ⟨hwaits, hunread, hreading⟩ := hround.next hsettled (ho.foldl_isOpen _)
  rw [hrun]
  exact ⟨hwaits, hunread, _, hreading⟩

/-- A loop that waits reads some of the bytes that arrive. -/
theorem Waits.read (h : m.Waits limit o q) (hunread : m.unread = bytes ++ rest) (hne : bytes ≠ []) :
    ∃ ms c bytes', bytes = c ++ bytes' ∧ c ≠ [] ∧ (m.run ms).unread = bytes' ++ rest ∧
      (m.run ms).Waits limit ((emits limit q c).foldl LineLoop.answer o) (unfinished q c) := by
  obtain ⟨r, p, budget, taken, hround, hphase, rfl⟩ := h.round
  obtain ⟨hlt, hemits, -, -⟩ := hround.waits hphase
  obtain ⟨c, bytes', htake, hle, hpoll, hcase⟩ := poll_spec hphase bytes.length
  have hpolled : InRound limit r p (m.poll bytes.length) := by
    rw [hpoll]
    exact hround.poll hphase hle (hcase.imp_right And.left)
  rw [hunread, List.take_left] at htake
  rw [hunread, List.drop_left] at hpoll
  have hc : c ≠ [] := by
    rintro rfl
    rcases hcase with ⟨c', -, hnil⟩ | ⟨-, hlen | rfl⟩
    · simp at hnil
    · rw [List.length_nil] at hlen
      omega
    · exact hne htake
  have houtside : (m.poll bytes.length).loop.outside = o := by
    rw [hpoll]
    exact (LineLoop.outside_setReader rfl).trans h.outside_eq
  have hrest : (m.poll bytes.length).unread = bytes' ++ rest := by rw [hpoll]
  by_cases hfinished : c.getLast? = some newlineByte ∨ budget ≤ (taken ++ c).length
  · -- the round is over, and the rest is left to the next one
    have hphase' : (m.poll bytes.length).phase = .finished (taken ++ c) := by
      rw [hpoll]
      exact if_pos hfinished
    obtain ⟨hwaits, hsame, -⟩ := hpolled.next_of_finished hphase' (by simp [hc]) hemits houtside h.isOpen
    exact ⟨[.poll bytes.length, .settle, .begin], c, bytes', htake, hc, hsame.trans hrest, hwaits⟩
  · have hphase' : (m.poll bytes.length).phase = .reading budget (taken ++ c) := by
      rw [hpoll]
      exact if_neg hfinished
    obtain ⟨-, hnone, -, -⟩ := hpolled.waits hphase'
    rw [emits_append, hemits, List.nil_append] at hnone
    refine ⟨[.poll bytes.length], c, bytes', htake, hc, hrest, ?_⟩
    rw [hnone]
    exact ⟨⟨r, p, budget, taken ++ c, hpolled, hphase', unfinished_append p taken c⟩, houtside, h.isOpen⟩

theorem run_append (m : RoundLoop σ) (ms ms' : List Move) : m.run (ms ++ ms') = (m.run ms).run ms' :=
  List.foldl_append

/-- A loop that waits reads the bytes that arrive. -/
theorem Waits.arrival (h : m.Waits limit o q) (hunread : m.unread = bytes ++ rest) :
    ∃ ms, (m.run ms).unread = rest ∧
      (m.run ms).Waits limit ((emits limit q bytes).foldl LineLoop.answer o) (unfinished q bytes) := by
  induction hn : bytes.length using Nat.strong_induction_on generalizing m o q bytes with
  | _ n ih =>
    by_cases hne : bytes = []
    · subst hne
      exact ⟨[], hunread, h⟩
    · obtain ⟨ms, c, bytes', rfl, hc, hunread', h'⟩ := h.read hunread hne
      have hshorter : bytes'.length < n := by
        have := List.length_pos_of_ne_nil hc
        rw [List.length_append] at hn
        omega
      obtain ⟨ms', hunread'', h''⟩ := ih _ hshorter h' hunread' rfl
      refine ⟨ms ++ ms', ?_, ?_⟩
      · rw [run_append, hunread'']
      · rw [run_append, emits_append, unfinished_append, List.foldl_append]
        exact h''

/-- A loop that waits ends a round for each event that it turns to. -/
theorem Waits.turn (h : m.Waits limit o q) (n : Nat) :
    ∃ ms, (m.run ms).unread = m.unread ∧ (m.run ms).Waits limit (o.writeEvents n) q := by
  induction n generalizing m o with
  | zero => exact ⟨[], rfl, h⟩
  | succ n ih =>
    cases hevent : o.hasEvent with
    | false =>
      rw [LineLoop.writeEvents_of_quiet hevent]
      exact ⟨[], rfl, h⟩
    | true =>
      obtain ⟨r, p, budget, taken, hround, hphase, rfl⟩ := h.round
      obtain ⟨hsucc, hopen⟩ := h.isOpen.writeEvents_succ hevent n
      have hturn : m.turn = ⟨m.loop.writeEvents 1, m.unread, .ready⟩ := by
        refine turn_of_hasEvent hphase ?_
        rw [← LineLoop.outside_hasEvent, h.outside_eq]
        exact hevent
      have houtside : (m.loop.writeEvents 1).outside = o.writeEvents 1 := by
        rw [LineLoop.outside_writeEvents, h.outside_eq]
      have hdropped := hround.dropped hphase (LineLoop.reader_writeEvents 1 m.loop)
      obtain ⟨hwaits, hsame, -⟩ := hdropped.next houtside hopen
      rw [← hturn] at hwaits hsame
      obtain ⟨ms, hunread, hms⟩ := ih hwaits
      rw [← hsucc] at hms
      exact ⟨.turn :: .begin :: ms, hunread.trans hsame, hms⟩

theorem Waits.publish (h : m.Waits limit o q) (es : List Event) :
    (m.move (.publish es)).Waits limit (o.publish es) q := by
  obtain ⟨r, p, budget, taken, hround, hphase, hq⟩ := h.round
  refine ⟨⟨r, p, budget, taken, hround.setLoop rfl rfl, hphase, hq⟩, ?_, ⟨h.isOpen.running, h.isOpen.room⟩⟩
  rw [← h.outside_eq]
  rfl

/-- A loop whose read has taken nothing finds the end of the input with it. -/
theorem Waits.close_nil (h : m.Waits limit o q) (hphase : m.phase = .reading budget []) (hdry : m.unread = []) :
    (m.run [.findEnd, .settle]).loop.outside = o.conclude (remainder limit q) := by
  obtain ⟨r, p, budget', taken, hround, hphase', rfl⟩ := h.round
  obtain rfl : taken = [] := by
    rw [hphase] at hphase'
    cases hphase'
    rfl
  have hend := findEnd_of_dry hphase hdry
  obtain ⟨-, houtside⟩ := (hround.findEnd hphase hdry).settleEnd rfl
  have hrun : m.run [.findEnd, .settle] = ⟨m.loop.endRead true, m.unread, .ready⟩ := by
    show m.findEnd.settle = _
    rw [hend]
    rfl
  rw [hrun, ← h.outside_eq]
  exact houtside

/-- A loop that waits finds the end of the input, with another read if this one has taken something. -/
theorem Waits.close (h : m.Waits limit o q) (hdry : m.unread = []) :
    ∃ ms, (m.run ms).loop.outside = o.conclude (remainder limit q) := by
  obtain ⟨r, p, budget, taken, hround, hphase, rfl⟩ := h.round
  by_cases htaken : taken = []
  · subst htaken
    exact ⟨[.findEnd, .settle], h.close_nil hphase hdry⟩
  · obtain ⟨-, hemits, -, -⟩ := hround.waits hphase
    have hend := findEnd_of_dry hphase hdry
    have hfinished := hround.findEnd hphase hdry
    rw [← hend] at hfinished
    have hphase' : m.findEnd.phase = .finished (taken ++ []) := by rw [hend, List.append_nil]
    have houtside : m.findEnd.loop.outside = o := by rw [hend, h.outside_eq]
    obtain ⟨hwaits, hsame, budget', hreading⟩ :=
      hfinished.next_of_finished hphase' (by simp [htaken]) hemits houtside h.isOpen
    have hdry' : (m.findEnd.run [.settle, .begin]).unread = [] := by rw [hsame, hend, hdry]
    exact ⟨[.findEnd, .settle, .begin, .findEnd, .settle], hwaits.close_nil hreading hdry'⟩

/-- For what comes to a loop that takes bytes all at once there are moves. -/
theorem Waits.happen (h : m.Waits limit l.outside q) (hl : l.reader.Reads q) (p : LineLoop.Happening)
    (hunread : m.unread = p.input ++ rest) :
    ∃ ms q', (m.run ms).unread = rest ∧ (m.run ms).Waits limit (l.happen p).outside q' ∧
      (l.happen p).reader.Reads q' := by
  have hrun : l.ended = none := h.isOpen.running
  cases p with
  | arrival bytes =>
    obtain ⟨houtside, hreads⟩ := LineLoop.feed_outside hrun hl bytes
    have hunread : m.unread = bytes ++ rest := hunread
    obtain ⟨ms, hrest, hms⟩ := h.arrival hunread
    rw [h.limit_eq] at houtside
    rw [← houtside] at hms
    exact ⟨ms, _, hrest, hms, hreads⟩
  | publication es => exact ⟨[.publish es], q, hunread, h.publish es, hl⟩
  | turn n =>
    obtain ⟨ms, hrest, hms⟩ := h.turn n
    rw [← LineLoop.outside_writeEvents] at hms
    refine ⟨ms, q, hrest.trans hunread, hms, ?_⟩
    show (l.writeEvents n).reader.Reads q
    rwa [LineLoop.reader_writeEvents]

/-- For one thing and another that comes there are moves. -/
theorem Waits.run (h : m.Waits limit l.outside q) (hl : l.reader.Reads q) (hs : List LineLoop.Happening)
    (hunread : m.unread = hs.flatMap LineLoop.Happening.input) :
    ∃ ms q', (m.run ms).unread = [] ∧ (m.run ms).Waits limit (l.run hs).outside q' ∧ (l.run hs).reader.Reads q' := by
  induction hs generalizing m l q with
  | nil => exact ⟨[], q, hunread, h, hl⟩
  | cons p hs ih =>
    obtain ⟨ms, q', hrest, h', hl'⟩ := h.happen hl p hunread
    obtain ⟨ms', q'', hrest', h'', hl''⟩ := ih h' hl' hrest
    rw [← run_append] at hrest' h''
    exact ⟨ms ++ ms', q'', hrest', h'', hl''⟩

/-- For every run of the loop that takes bytes all at once, and for its end, there are moves. -/
theorem exists_moves (host : Host σ) (state : σ) (limit : Nat) (bus : EventBus) (hs : List LineLoop.Happening) :
    let l := (LineLoop.start host state limit bus).run hs
    let m := start host state limit bus (hs.flatMap LineLoop.Happening.input)
    ∃ ms ms', (m.run ms).loop.outside = l.outside ∧ (m.run (ms ++ ms')).loop.outside = l.close.outside := by
  intro l m
  have hstart := (alongside_start host state limit bus (hs.flatMap LineLoop.Happening.input)).inRound
  obtain ⟨hwaits, hsame, -⟩ := hstart.next rfl ⟨rfl, rfl⟩
  obtain ⟨ms, q, hdry, hwaits', hreads⟩ := hwaits.run (LineReader.reads_start limit) hs hsame
  obtain ⟨ms', hclose⟩ := hwaits'.close hdry
  have hrun : l.ended = none := hwaits'.isOpen.running
  obtain ⟨houtside, -⟩ := LineLoop.close_outside hrun hreads
  rw [hwaits'.limit_eq, ← hclose, ← run_append] at houtside
  exact ⟨.begin :: ms, ms', hwaits'.outside_eq, houtside.symm⟩

end RoundLoop

end ShellHost
