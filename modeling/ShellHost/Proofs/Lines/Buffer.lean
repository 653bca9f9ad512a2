import ShellHost.Proofs.Lines.Schedules
import ShellHost.Proofs.Session.Runs

/-!
# The buffer is bounded, and the loop gets on

Wherever a loop is in its rounds, its buffer holds at most one byte more than a line may have, and a newline only as the
last byte (`Bounded`). So each read may take a byte at least, and one that takes nothing has found the end of the input.
No byte is lost or read twice: what the rounds before have read, what this one has, and what is not read are the input
(`input_run`). A round that the read wins therefore takes some bytes of the input, or it is the last one, and there are
no more of these rounds than bytes, and one (`Alongside.won_le`).
-/

namespace ShellHost

variable {σ : Type} {limit : Nat} {r : LineReader} {p : List UInt8}

namespace LineLoop

variable {l : LineLoop σ}

/-- The bytes of input that come. -/
def Occurrence.input : Occurrence → List UInt8
  | .next h => h.input
  | _ => []

/-! ## The reader of a loop that takes bytes all at once -/

/-- Whatever comes, the reader knows a line of the same limit. -/
theorem reads_occur (h : l.reader.Reads p) (o : Occurrence) :
    (l.occur o).reader.limit = l.reader.limit ∧ ∃ q, (l.occur o).reader.Reads q := by
  cases o with
  | inputFails reason =>
    show (l.failRead reason).reader.limit = _ ∧ ∃ q, (l.failRead reason).reader.Reads q
    rw [reader_failRead]
    exact ⟨rfl, p, h⟩
  | outputFails room reason => exact ⟨rfl, p, h⟩
  | inputEnds =>
    show l.close.reader.limit = _ ∧ ∃ q, l.close.reader.Reads q
    cases hrun : l.ended with
    | some res =>
      rw [close, if_pos (by simp [hrun])]
      exact ⟨rfl, p, h⟩
    | none =>
      obtain ⟨-, hreader⟩ := close_outside hrun h
      rw [hreader]
      exact ⟨rfl, [], LineReader.reads_start _⟩
  | next happening =>
    cases happening with
    | publication es => exact ⟨rfl, p, h⟩
    | turn n =>
      show (l.writeEvents n).reader.limit = _ ∧ ∃ q, (l.writeEvents n).reader.Reads q
      rw [reader_writeEvents]
      exact ⟨rfl, p, h⟩
    | arrival bytes =>
      show (l.feed bytes).reader.limit = _ ∧ ∃ q, (l.feed bytes).reader.Reads q
      cases hrun : l.ended with
      | some res =>
        rw [feed, if_pos (by simp [hrun])]
        exact ⟨rfl, p, h⟩
      | none =>
        obtain ⟨houtside, hreads⟩ := feed_outside hrun h bytes
        have hlimit : (l.feed bytes).outside.reader.limit = l.outside.reader.limit := by
          rw [houtside, reader_foldl_answer]
        exact ⟨hlimit, _, hreads⟩

theorem reads_undergo (h : l.reader.Reads p) (os : List Occurrence) :
    (l.undergo os).reader.limit = l.reader.limit ∧ ∃ q, (l.undergo os).reader.Reads q := by
  induction os generalizing l p with
  | nil => exact ⟨rfl, p, h⟩
  | cons o os ih =>
    obtain ⟨hlimit, q, hq⟩ := reads_occur h o
    obtain ⟨hlimit', hreads⟩ := ih hq
    exact ⟨hlimit'.trans hlimit, hreads⟩

end LineLoop

namespace LineReader

/-- What holds of a reader that is about to read. -/
structure HasRoom (limit : Nat) (r : LineReader) : Prop where
  /-- There is no newline in the buffer. -/
  unended : newlineByte ∉ r.buffer
  /-- The read may take one byte at least. -/
  budget_pos : 1 ≤ r.budget
  /-- There is room for what it may take. -/
  length_add_budget : r.buffer.length + r.budget = limit + 1

theorem Reads.hasRoom (h : r.Reads p) : r.HasRoom r.limit := by
  have hbudget := h.budget_eq
  have hbounded := h.bounded
  exact ⟨h.unended_buffer, r.budget_pos, by omega⟩

end LineReader

namespace RoundLoop

variable {m m' : RoundLoop σ} {mv : Move} {os : List LineLoop.Occurrence} {l : LineLoop σ} {unread taken : List UInt8}

/-! ## The buffer -/

/-- What holds of the buffer and of the read, wherever a loop is in its round. -/
structure Bounded (limit : Nat) (m : RoundLoop σ) : Prop where
  /-- The buffer holds at most one byte more than a line may have. -/
  length_le : m.loop.reader.buffer.length ≤ limit + 1
  /-- A newline is the last byte, which the buffer has first. -/
  newline_last : newlineByte ∉ m.loop.reader.buffer.tail
  /-- A loop that is about to read has room for it. -/
  ready : m.phase = .ready → m.loop.reader.HasRoom limit
  /-- So it has while a read waits, for what is left of its budget. -/
  reading : ∀ budget taken, m.phase = .reading budget taken → newlineByte ∉ m.loop.reader.buffer ∧
    1 ≤ budget - taken.length ∧ m.loop.reader.buffer.length + (budget - taken.length) = limit + 1
  /-- A read that has taken nothing has found the end of the input. -/
  finished_nil : m.phase = .finished [] → m.unread = []

theorem Stands.length_taken_le {phase : Phase} (h : Stands r unread phase) : phase.taken.length ≤ r.budget := by
  cases h with
  | ready => exact Nat.zero_le _
  | newline hc hlen =>
    rw [taken_finished, List.length_append]
    exact hlen
  | full hc hlen => exact Nat.le_of_eq hlen
  | reading hc hlen | dry hc hlen => exact Nat.le_of_lt hlen

theorem Stands.newline_last {phase : Phase} (h : Stands r unread phase) :
    newlineByte ∉ phase.taken ∨ ∃ c, newlineByte ∉ c ∧ phase.taken = c ++ [newlineByte] := by
  cases h with
  | ready => exact .inl List.not_mem_nil
  | @newline c hc hlen => exact .inr ⟨c, hc, rfl⟩
  | reading hc hlen | full hc hlen | dry hc hlen => exact .inl hc

theorem InRound.newline_not_mem (h : m.InRound limit r p) (htaken : newlineByte ∉ m.phase.taken) :
    newlineByte ∉ m.loop.reader.buffer := by
  rw [h.reader_eq]
  simp [htaken, h.began.unended_buffer]

theorem InRound.bounded (h : m.InRound limit r p) : m.Bounded limit := by
  have hroom := h.began.hasRoom
  rw [h.limit_eq] at hroom
  have hbudget := hroom.length_add_budget
  have hlength : m.loop.reader.buffer.length = m.phase.taken.length + r.buffer.length := by
    rw [h.reader_eq]
    simp
  constructor
  case length_le =>
    have hle := h.stands.length_taken_le
    omega
  case newline_last =>
    rcases h.stands.newline_last with hnone | ⟨c, hc, hline⟩
    · exact fun hmem => h.newline_not_mem hnone (List.mem_of_mem_tail hmem)
    · rw [h.reader_eq, hline]
      simp [hc, h.began.unended_buffer]
  case ready =>
    intro hphase
    have hreader : m.loop.reader = r := by
      rw [h.reader_eq, hphase]
      rfl
    rw [hreader]
    exact hroom
  case reading =>
    intro budget taken hphase
    have hstands := h.stands
    have hnewline := h.newline_not_mem
    rw [hphase] at hstands hnewline hlength
    cases hstands with
    | reading hc hlen =>
      rw [taken_reading] at hlength
      exact ⟨hnewline hc, by omega, by omega⟩
  case finished_nil =>
    intro hphase
    have hstands := h.stands
    rw [hphase] at hstands
    exact hstands.dry_of_finished_nil

/-! ## The input -/

/-- A move loses no byte of the input, and reads none twice. -/
theorem Made.input (h : Made m mv m' os) :
    os.flatMap LineLoop.Occurrence.input ++ (m'.phase.taken ++ m'.unread) = m.phase.taken ++ m.unread := by
  cases h with
  | idle => rfl
  | begin hphase => rw [hphase]; rfl
  | poll hphase hunread => simp [hphase, hunread]
  | findEnd hphase => rw [hphase]; rfl
  | failRead hphase | settleRead hphase | turn hphase =>
    simp [hphase, LineLoop.Occurrence.input, LineLoop.Happening.input]
  | settleEnd hphase => rw [hphase]; rfl
  | publish | failWrites => rfl

/-- What was read in the rounds before, what is read in this one and what is not read are the input. -/
theorem input_run (m : RoundLoop σ) (ms : List Move) :
    (m.occurrences ms).flatMap LineLoop.Occurrence.input ++ ((m.run ms).phase.taken ++ (m.run ms).unread)
      = m.phase.taken ++ m.unread := by
  induction ms generalizing m with
  | nil => rfl
  | cons mv ms ih =>
    rw [occurrences, List.flatMap_append, List.append_assoc, ← (made m mv).input, ← ih (m.move mv)]
    rfl

/-- As long as a round goes on, no bytes come to a loop that takes them when it is over. -/
theorem Made.input_of_goesOn (h : Made m mv m' os) (hgoes : mv.goesOn = true) :
    os.flatMap LineLoop.Occurrence.input = [] := by
  cases h with
  | failRead | settleEnd | settleRead | turn => cases hgoes
  | idle | begin | poll | findEnd | publish | failWrites => rfl

theorem input_of_goesOn {ms : List Move} (h : ∀ mv ∈ ms, mv.goesOn = true) :
    (m.occurrences ms).flatMap LineLoop.Occurrence.input = [] := by
  induction ms generalizing m with
  | nil => rfl
  | cons mv ms ih =>
    rw [occurrences, List.flatMap_append, (made m mv).input_of_goesOn (h mv List.mem_cons_self),
      ih fun mv' hmv' => h mv' (List.mem_cons_of_mem _ hmv'), List.append_nil]

/-- What a round has read is what was next of the input. -/
theorem unread_of_goesOn {ms : List Move} (hready : m.phase = .ready) (h : ∀ mv ∈ ms, mv.goesOn = true) :
    m.unread = (m.run ms).phase.taken ++ (m.run ms).unread := by
  have hinput := input_run m ms
  rw [input_of_goesOn h, hready] at hinput
  exact hinput.symm

/-! ## Rounds that the read wins -/

/-- A read that has taken nothing is the last one. -/
theorem InRound.ended_of_finished_nil (h : m.InRound limit r p) (hphase : m.phase = .finished []) :
    m.settle.loop.ended.isSome := by
  obtain ⟨-, houtside⟩ := h.settleEnd hphase
  rw [settle_of_finished hphase, ← LineLoop.outside_ended]
  show (m.loop.endRead true).outside.ended.isSome
  rw [houtside]
  exact LineLoop.ended_conclude _ _

/-- A round that begins here, and that the read wins, takes what is next of the input. If that is nothing, there is
nothing left, and the loop ends. -/
def GetsOn (m : RoundLoop σ) : Prop :=
  m.phase = .ready → ∀ ms : List Move, (∀ mv ∈ ms, mv.goesOn = true) →
    ∀ taken, (m.run ms).phase = .finished taken → m.unread = taken ++ (m.run ms).settle.unread ∧
      (taken = [] → m.unread = [] ∧ (m.run ms).settle.loop.ended.isSome)

theorem Alongside.getsOn (h : m.Alongside limit l r p) : m.GetsOn := by
  intro hready ms hgoes taken hfinished
  have hunread := unread_of_goesOn hready hgoes
  rw [hfinished] at hunread
  have hsettle := settle_of_finished hfinished
  refine ⟨by rw [hsettle]; exact hunread, ?_⟩
  rintro rfl
  obtain ⟨r', p', h'⟩ := h.run ms
  have hdry := h'.inRound.bounded.finished_nil hfinished
  exact ⟨hunread.trans hdry, h'.inRound.ended_of_finished_nil hfinished⟩

/-- Whether a move ends a round that the read wins. -/
def wins (m : RoundLoop σ) : Move → Bool
  | .settle =>
    match m.phase with
    | .finished _ => true
    | _ => false
  | _ => false

/-- How many rounds the read wins. -/
def won (m : RoundLoop σ) : List Move → Nat
  | [] => 0
  | mv :: ms => (m.wins mv).toNat + (m.move mv).won ms

theorem finished_of_wins (h : m.wins mv = true) : mv = .settle ∧ ∃ taken, m.phase = .finished taken := by
  unfold wins at h
  split at h
  · split at h
    · exact ⟨rfl, _, by assumption⟩
    · cases h
  · cases h

/-- How many rounds the read may still win: one for each byte that it has not given to a line, and one for the end of the
input. -/
def ahead (m : RoundLoop σ) : Nat := m.phase.taken.length + m.unread.length + (!m.loop.ended.isSome).toNat

theorem ahead_le (m : RoundLoop σ) : m.ahead ≤ m.phase.taken.length + m.unread.length + 1 :=
  Nat.add_le_add_left (Bool.toNat_le _) _

theorem ahead_of_running (h : m.loop.ended = none) : m.ahead = m.phase.taken.length + m.unread.length + 1 := by
  rw [ahead, h]
  rfl

theorem InRound.ahead_ready_le (h : m.InRound limit r p) (hphase : m.phase ≠ .ready) (l : LineLoop σ) :
    ahead ⟨l, m.unread, .ready⟩ + m.phase.taken.length ≤ m.ahead := by
  have hle := ahead_le ⟨l, m.unread, .ready⟩
  rw [ahead_of_running (h.running hphase)]
  simp only [taken_ready, List.length_nil] at hle
  omega

theorem Made.ahead_le (hmade : Made m mv m' os) (h : m.InRound limit r p) : m'.ahead ≤ m.ahead := by
  cases hmade with
  | idle => exact Nat.le_refl _
  | begin hphase => simp [ahead, hphase]
  | poll hphase hunread => simp [ahead, hphase, hunread, Nat.add_assoc]
  | findEnd hphase => simp [ahead, hphase]
  | failRead hphase | settleEnd hphase | settleRead hphase | turn hphase =>
    exact Nat.le_of_add_right_le (h.ahead_ready_le (by simp [hphase]) _)
  | publish | failWrites => exact Nat.le_refl _

theorem InRound.ahead_settle_lt (h : m.InRound limit r p) (hphase : m.phase = .finished taken) :
    m.settle.ahead < m.ahead := by
  have hne : m.phase ≠ .ready := by simp [hphase]
  by_cases htaken : taken = []
  · subst htaken
    have hended := h.ended_of_finished_nil hphase
    rw [ahead_of_running (h.running hne), hphase, ahead, hended, settle_of_finished hphase]
    simp
  · have hle := h.ahead_ready_le hne (m.loop.endRead taken.isEmpty)
    rw [← settle_of_finished hphase, hphase, taken_finished] at hle
    have hpos := List.length_pos_of_ne_nil htaken
    omega

/-- The read wins no more rounds than there are bytes to read, and one. -/
theorem Alongside.won_le (h : m.Alongside limit l r p) (ms : List Move) : m.won ms + (m.run ms).ahead ≤ m.ahead := by
  induction ms generalizing m l r p with
  | nil => exact Nat.le_of_eq (Nat.zero_add _)
  | cons mv ms ih =>
    obtain ⟨r', p', h'⟩ := (made m mv).alongside h
    have hrest : (m.move mv).won ms + (m.run (mv :: ms)).ahead ≤ (m.move mv).ahead := ih h'
    have hmove : (m.wins mv).toNat + (m.move mv).ahead ≤ m.ahead := by
      cases hwins : m.wins mv with
      | false =>
        rw [Bool.toNat_false, Nat.zero_add]
        exact (made m mv).ahead_le h.inRound
      | true =>
        obtain ⟨rfl, taken, hphase⟩ := finished_of_wins hwins
        rw [Bool.toNat_true, Nat.add_comm]
        exact h.inRound.ahead_settle_lt hphase
    rw [won]
    omega

/-! ## All of it -/

/-- In every state that a loop comes to, in whatever pieces the input comes and whenever there are events, its buffer is
bounded and every read has room; no byte of the input is lost, and each round that the read wins takes some, or it is the
last one. Apart from its reader the loop is what a loop is that takes the bytes of whole rounds all at once. Each run of
such a loop is one round by round, too, and it has room for a read between one thing that comes and the next. -/
theorem buffer_bounded (host : Host σ) (state : σ) (limit : Nat) (bus : EventBus) :
    (∀ (input : List UInt8) (ms : List Move),
      let m₀ := start host state limit bus input
      let m := m₀.run ms
      m.Bounded limit ∧ m.GetsOn ∧ m₀.won ms ≤ input.length + 1 ∧
        (m₀.occurrences ms).flatMap LineLoop.Occurrence.input ++ (m.phase.taken ++ m.unread) = input ∧
        m.loop.outside = ((LineLoop.start host state limit bus).undergo (m₀.occurrences ms)).outside) ∧
    (∀ hs : List LineLoop.Happening,
      let l := (LineLoop.start host state limit bus).run hs
      let m₀ := start host state limit bus (hs.flatMap LineLoop.Happening.input)
      ∃ ms ms', (m₀.run ms).loop.outside = l.outside ∧ (m₀.run (ms ++ ms')).loop.outside = l.close.outside) ∧
    ∀ os : List LineLoop.Occurrence,
      ((LineLoop.start host state limit bus).undergo os).reader.HasRoom limit := by
  refine ⟨fun input ms => ?_, exists_moves host state limit bus, fun os => ?_⟩
  · intro m₀ m
    have hstart := alongside_start host state limit bus input
    obtain ⟨r, p, h⟩ := hstart.run ms
    have hahead : m₀.ahead = input.length + 1 := (ahead_of_running rfl).trans (by simp [m₀, start])
    have hwon : m₀.won ms + m.ahead ≤ input.length + 1 := hahead ▸ hstart.won_le ms
    exact ⟨h.inRound.bounded, h.getsOn, Nat.le_of_add_right_le hwon, input_run m₀ ms, h.outside_eq⟩
  · obtain ⟨hlimit, q, h⟩ := (LineLoop.start host state limit bus).reads_undergo (LineReader.reads_start limit) os
    have hroom := h.hasRoom
    rw [hlimit] at hroom
    exact hroom

/-- An event overtakes a read that has taken two bytes. -/
def overtaken : List Move := [.begin, .poll 2, .publish [⟨"n", .null⟩], .turn]

/-- Where a line may have three bytes, the read after that takes two more, and then the line is too long. -/
theorem overtaken_read_goes_on :
    let m := (start Session.panickingHost () 3 (.ofCapacity 1) [97, 98, 99, 100, 101, newlineByte]).run overtaken
    let m' := m.run [.begin, .poll 4]
    m.phase = .ready ∧ m.loop.reader.buffer = [98, 97] ∧ m'.phase = .finished [99, 100] ∧
      m'.loop.reader.buffer.length ≤ 4 ∧ m.unread = [99, 100] ++ m'.settle.unread := by
  intro m m'
  obtain ⟨hruns, -, -⟩ := buffer_bounded Session.panickingHost () 3 (.ofCapacity 1)
  obtain ⟨-, hgets, -, -, -⟩ := hruns [97, 98, 99, 100, 101, newlineByte] overtaken
  obtain ⟨hbounded, -, -, -, -⟩ := hruns [97, 98, 99, 100, 101, newlineByte] (overtaken ++ [.begin, .poll 4])
  have hready : m.phase = .ready := by decide +kernel
  have hfinished : m'.phase = .finished [99, 100] := by decide +kernel
  obtain ⟨hunread, -⟩ := hgets hready [.begin, .poll 4] (by decide) [99, 100] hfinished
  refine ⟨hready, by decide +kernel, hfinished, ?_, hunread⟩
  have hlength := hbounded.length_le
  rw [run_append] at hlength
  exact hlength

end RoundLoop

end ShellHost
