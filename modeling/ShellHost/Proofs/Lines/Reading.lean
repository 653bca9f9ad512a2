import Mathlib.Data.List.Basic
import ShellHost.Lines.Reader

/-!
# Reading lines is splitting at newlines

However the bytes of a stream come in, the reader finds the lines that the stream has when it is split at its newlines:
those that are too long as `overlong`, all others as they are. What is read is told byte by byte in `emits`, in terms of
the line that is not complete yet. The reader keeps this line in its buffer, as long as it is short enough (`Reads`).
-/

namespace ShellHost

variable {limit n : Nat} {p c bs taken rest : List UInt8} {r : LineReader}

/-! ## The lines of a stream -/

/-- A line of a stream, and whether a newline ends it. -/
structure Segment where
  /-- The bytes of the line, without the newline. -/
  content : List UInt8
  /-- Whether a newline follows. -/
  ended : Bool
  deriving DecidableEq

/-- The bytes of a line with its newline, if it has one. -/
def Segment.bytes (s : Segment) : List UInt8 := if s.ended then s.content ++ [newlineByte] else s.content

/-- What stands for a line where lines may have so many bytes. -/
def Segment.toLine (limit : Nat) (s : Segment) : Line :=
  if limit < s.content.length then .overlong else .whole s.bytes

/-- Whether a line is answered before the stream ends: it is complete, or too long already. -/
def Segment.due (limit : Nat) (s : Segment) : Bool := s.ended || limit < s.content.length

/-- The lines that the parts between newlines are. Behind the last newline there is a line only if there is something. -/
def segmentsOf : List (List UInt8) → List Segment
  | [] => []
  | [part] => if part = [] then [] else [⟨part, false⟩]
  | part :: parts => ⟨part, true⟩ :: segmentsOf parts

/-- The lines of a stream. -/
def segments (bytes : List UInt8) : List Segment := segmentsOf (bytes.splitOn newlineByte)

theorem segments_of_not_mem (h : newlineByte ∉ p) : segments p = if p = [] then [] else [⟨p, false⟩] := by
  rw [segments, List.splitOn_eq_singleton h, segmentsOf]

theorem segments_append_newline (h : newlineByte ∉ p) (bs : List UInt8) :
    segments (p ++ newlineByte :: bs) = ⟨p, true⟩ :: segments bs := by
  unfold segments
  rw [List.splitOn_append_cons_self_of_not_mem h]
  obtain ⟨part, parts, hparts⟩ := List.exists_cons_of_ne_nil (List.splitOn_ne_nil newlineByte bs)
  rw [hparts]
  rfl

/-! ## What is read, byte by byte -/

/-- The line that is not complete after some more bytes. -/
def unfinished (p : List UInt8) (bs : List UInt8) : List UInt8 :=
  bs.foldl (fun p b => if b = newlineByte then [] else p ++ [b]) p

/-- The lines that some more bytes complete, behind a line that is not complete. One that becomes too long is told as
soon as it does, and not again at its end. -/
def emits (limit : Nat) (p : List UInt8) : List UInt8 → List Line
  | [] => []
  | b :: bs =>
    if b = newlineByte then (if p.length ≤ limit then [.whole (p ++ [b])] else []) ++ emits limit [] bs
    else (if p.length = limit then [.overlong] else []) ++ emits limit (p ++ [b]) bs

/-- What was told of a line before its end: that it is too long, if it is. -/
def told (limit : Nat) (p : List UInt8) : List Line := if limit < p.length then [.overlong] else []

/-- The line that the end of the stream completes. -/
def remainder (limit : Nat) (p : List UInt8) : List Line := if p = [] ∨ limit < p.length then [] else [.whole p]

theorem unfinished_append (p bs cs : List UInt8) : unfinished p (bs ++ cs) = unfinished (unfinished p bs) cs :=
  List.foldl_append

theorem emits_append (limit : Nat) (p bs cs : List UInt8) :
    emits limit p (bs ++ cs) = emits limit p bs ++ emits limit (unfinished p bs) cs := by
  induction bs generalizing p with
  | nil => rfl
  | cons b bs ih =>
    by_cases hb : b = newlineByte
    · simp [emits, unfinished, hb, ih]
    · simp [emits, unfinished, hb, ih]

theorem unfinished_of_not_mem (h : newlineByte ∉ c) : unfinished p c = p ++ c := by
  induction c generalizing p with
  | nil => simp [unfinished]
  | cons b c ih =>
    have hb := List.ne_of_not_mem_cons h
    have hc := List.not_mem_of_not_mem_cons h
    rw [unfinished, List.foldl_cons, if_neg (Ne.symm hb)]
    exact (ih hc).trans (by simp)

/-- Bytes without a newline complete no line, but the line may become too long with them. -/
theorem emits_of_not_mem (h : newlineByte ∉ c) :
    emits limit p c = if p.length ≤ limit ∧ limit < p.length + c.length then [.overlong] else [] := by
  induction c generalizing p with
  | nil =>
    rw [if_neg (by rw [List.length_nil]; omega)]
    rfl
  | cons b c ih =>
    have hb := List.ne_of_not_mem_cons h
    have hc := List.not_mem_of_not_mem_cons h
    rw [emits, if_neg (Ne.symm hb), ih hc]
    simp only [List.length_append, List.length_cons, List.length_nil]
    by_cases hp : p.length = limit
    · rw [if_pos hp, if_neg (by omega), if_pos (by omega)]
      rfl
    · rw [if_neg hp, List.nil_append]
      congr 1
      apply propext
      omega

theorem told_append_singleton (limit : Nat) (p : List UInt8) (b : UInt8) :
    told limit (p ++ [b]) = told limit p ++ if p.length = limit then [.overlong] else [] := by
  unfold told
  rw [List.length_append, List.length_singleton]
  by_cases hlong : limit < p.length
  · rw [if_pos (by omega), if_pos hlong, if_neg (by omega)]
    rfl
  · by_cases heq : p.length = limit
    · rw [if_pos (by omega), if_neg hlong, if_pos heq]
      rfl
    · rw [if_neg (by omega), if_neg hlong, if_neg heq]
      rfl

theorem told_newline (limit : Nat) (p : List UInt8) :
    (told limit p ++ if p.length ≤ limit then [.whole (p ++ [newlineByte])] else [])
      = [Segment.toLine limit ⟨p, true⟩] := by
  unfold told Segment.toLine
  by_cases hlong : limit < p.length
  · rw [if_pos hlong, if_neg (Nat.not_le_of_lt hlong), if_pos hlong]
    rfl
  · rw [if_neg hlong, if_pos (Nat.le_of_not_lt hlong), if_neg hlong]
    rfl

theorem told_remainder (limit : Nat) (hp : newlineByte ∉ p) :
    told limit p ++ remainder limit p = (segments p).map (Segment.toLine limit) := by
  rw [segments_of_not_mem hp, told, remainder]
  by_cases hnil : p = []
  · simp [hnil]
  · by_cases hlong : limit < p.length <;> simp [hnil, hlong, Segment.toLine, Segment.bytes]

theorem told_due (limit : Nat) (hp : newlineByte ∉ p) :
    told limit p = ((segments p).filter (Segment.due limit)).map (Segment.toLine limit) := by
  rw [segments_of_not_mem hp, told]
  by_cases hnil : p = []
  · simp [hnil]
  · by_cases hlong : limit < p.length <;> simp [hnil, hlong, Segment.due, Segment.toLine]

/-- What is read of a stream, with `rest` of the line that is not complete, is `view` of its lines, if `view` keeps
complete lines and this is so of a line that is not complete. -/
theorem emits_segments (rest : List UInt8 → List Line) (view : List Segment → List Line)
    (hcomplete : ∀ content segs, view (⟨content, true⟩ :: segs) = Segment.toLine limit ⟨content, true⟩ :: view segs)
    (hlast : ∀ p, newlineByte ∉ p → told limit p ++ rest p = view (segments p)) (hp : newlineByte ∉ p)
    (bs : List UInt8) :
    told limit p ++ emits limit p bs ++ rest (unfinished p bs) = view (segments (p ++ bs)) := by
  induction bs generalizing p with
  | nil =>
    rw [List.append_nil, ← hlast p hp, emits, List.append_nil]
    rfl
  | cons b bs ih =>
    by_cases hb : b = newlineByte
    · subst hb
      -- the line is complete, and what follows is read as if nothing had come before
      have hrest : emits limit [] bs ++ rest (unfinished [] bs) = view (segments bs) := ih List.not_mem_nil
      rw [segments_append_newline hp, hcomplete, ← hrest, emits, if_pos rfl, ← List.append_assoc, told_newline]
      rfl
    · have hp' : newlineByte ∉ p ++ [b] := by simp [hp, Ne.symm hb]
      have hrest := ih hp'
      have hunfinished : unfinished p (b :: bs) = unfinished (p ++ [b]) bs := by
        rw [unfinished, List.foldl_cons, if_neg hb]
        rfl
      rw [List.append_assoc p, List.singleton_append] at hrest
      rw [emits, if_neg hb, hunfinished, ← List.append_assoc, ← told_append_singleton, hrest]

/-- All that is read of a stream are its lines. -/
theorem emits_remainder (limit : Nat) (hp : newlineByte ∉ p) (bs : List UInt8) :
    told limit p ++ emits limit p bs ++ remainder limit (unfinished p bs)
      = (segments (p ++ bs)).map (Segment.toLine limit) :=
  emits_segments (remainder limit) (List.map (Segment.toLine limit)) (fun _ _ => rfl)
    (fun _ hlast => told_remainder limit hlast) hp bs

/-- Before the stream ends, the lines that are due have been read. -/
theorem emits_due (limit : Nat) (hp : newlineByte ∉ p) (bs : List UInt8) :
    told limit p ++ emits limit p bs
      = ((segments (p ++ bs)).filter (Segment.due limit)).map (Segment.toLine limit) := by
  have hread := emits_segments (fun _ => []) (fun segs => (segs.filter (Segment.due limit)).map (Segment.toLine limit))
    (fun _ _ => rfl) (fun p hlast => (List.append_nil _).trans (told_due limit hlast)) hp bs
  rwa [List.append_nil] at hread

/-! ## One read -/

/-- A read takes bytes up to the first newline, or as many as it may, or all that there are. -/
theorem takeLine_spec (n : Nat) (buffer bytes : List UInt8) :
    ∃ taken rest, bytes = taken ++ rest ∧ takeLine n buffer bytes = (taken.reverse ++ buffer, rest) ∧
      taken.length ≤ n ∧
      ((∃ c, newlineByte ∉ c ∧ taken = c ++ [newlineByte]) ∨
        (newlineByte ∉ taken ∧ (taken.length = n ∨ rest = []))) := by
  induction n generalizing buffer bytes with
  | zero => exact ⟨[], bytes, rfl, rfl, Nat.le_refl _, Or.inr ⟨List.not_mem_nil, Or.inl rfl⟩⟩
  | succ n ih =>
    cases bytes with
    | nil => exact ⟨[], [], rfl, rfl, Nat.zero_le _, Or.inr ⟨List.not_mem_nil, Or.inr rfl⟩⟩
    | cons b bytes =>
      by_cases hb : b = newlineByte
      · refine ⟨[b], bytes, rfl, by simp [takeLine, hb], by simp, Or.inl ⟨[], List.not_mem_nil, by simp [hb]⟩⟩
      · obtain ⟨taken, rest, rfl, htake, hlen, hcase⟩ := ih (b :: buffer) bytes
        refine ⟨b :: taken, rest, rfl, by simp [takeLine, hb, htake], by simpa using hlen, ?_⟩
        rcases hcase with ⟨c, hc, rfl⟩ | ⟨hnot, hend⟩
        · exact Or.inl ⟨b :: c, by simp [hc, Ne.symm hb], rfl⟩
        · exact Or.inr ⟨by simp [hnot, Ne.symm hb], by simpa using hend⟩

namespace LineReader

/-- What the reader knows of the line `p` that is not complete yet: all of it, or that it is too long. -/
structure Reads (r : LineReader) (p : List UInt8) : Prop where
  /-- The line is not complete. -/
  unended : newlineByte ∉ p
  /-- The buffer does not hold more than a line may. -/
  bounded : r.buffer.length ≤ r.limit
  /-- There is no newline in the buffer. -/
  unended_buffer : newlineByte ∉ r.buffer
  /-- A line that is short enough is in the buffer. -/
  kept : p.length ≤ r.limit → r.buffer = p.reverse ∧ r.discarding = false
  /-- The rest of a line that is too long is passed over. -/
  passed : r.limit < p.length → r.discarding = true

variable {q : List UInt8}

theorem reads_start (limit : Nat) : Reads ⟨limit, [], false⟩ [] :=
  ⟨List.not_mem_nil, Nat.zero_le _, List.not_mem_nil, fun _ => ⟨rfl, rfl⟩, nofun⟩

theorem budget_pos (r : LineReader) : 0 < r.budget := Nat.lt_of_lt_of_le Nat.zero_lt_one (Nat.le_max_left _ _)

theorem Reads.budget_eq (h : r.Reads p) : r.budget = r.limit + 1 - r.buffer.length := by
  have := h.bounded
  unfold budget
  omega

theorem complete_iff {r : LineReader} : r.complete = true ↔ ∃ buffer, r.buffer = newlineByte :: buffer := by
  unfold complete
  cases r.buffer <;> simp

theorem complete_of_not_mem (h : newlineByte ∉ r.buffer) : r.complete = false := by
  rw [Bool.eq_false_iff]
  intro hc
  obtain ⟨buffer, hbuffer⟩ := complete_iff.mp hc
  exact h (hbuffer ▸ List.mem_cons_self)

theorem endRead_of_discarding {eof : Bool} (h : r.discarding = true) :
    r.endRead eof = (none, { r with buffer := [], discarding := !(r.complete || eof) }) := if_pos h

theorem endRead_of_complete {eof : Bool} (h : r.discarding = false) (hcomplete : r.complete = true) :
    r.endRead eof = (some (.whole r.buffer.reverse), { r with buffer := [] }) := by
  simp [endRead, h, hcomplete]

theorem endRead_of_full (h : r.discarding = false) (hcomplete : r.complete = false) (hfull : r.full = true) :
    r.endRead false = (some .overlong, { r with buffer := [], discarding := true }) := by
  simp [endRead, h, hcomplete, hfull]

/-- A read that finds the newline completes the line, unless it was too long. -/
theorem Reads.endRead_newline (h : r.Reads p) (hc : newlineByte ∉ c) (hlen : c.length < r.budget) :
    ∃ line r', ({ r with buffer := (c ++ [newlineByte]).reverse ++ r.buffer } : LineReader).endRead false = (line, r') ∧
      line.toList = emits r.limit p (c ++ [newlineByte]) ∧ r'.limit = r.limit ∧ r'.Reads [] := by
  have hcomplete : complete { r with buffer := (c ++ [newlineByte]).reverse ++ r.buffer } = true :=
    complete_iff.mpr ⟨c.reverse ++ r.buffer, by simp⟩
  have hemits : emits r.limit p (c ++ [newlineByte])
      = (if p.length ≤ r.limit ∧ r.limit < p.length + c.length then [.overlong] else []) ++
        if (p ++ c).length ≤ r.limit then [.whole (p ++ c ++ [newlineByte])] else [] := by
    rw [emits_append, emits_of_not_mem hc, unfinished_of_not_mem hc]
    simp [emits]
  have hbudget := h.budget_eq
  rw [hemits, List.length_append]
  by_cases hp : p.length ≤ r.limit
  · obtain ⟨hbuffer, hdiscarding⟩ := h.kept hp
    rw [hbuffer, List.length_reverse] at hbudget
    refine ⟨_, _, endRead_of_complete hdiscarding hcomplete, ?_, rfl, ?_⟩
    · rw [if_neg (by omega), if_pos (by omega)]
      simp [hbuffer]
    · exact ⟨List.not_mem_nil, Nat.zero_le _, List.not_mem_nil, fun _ => ⟨rfl, hdiscarding⟩, nofun⟩
  · -- that the line is too long was told before, so its end is only passed over
    refine ⟨_, _, endRead_of_discarding (h.passed (Nat.lt_of_not_le hp)), ?_, rfl, ?_⟩
    · rw [if_neg (by omega), if_neg (by omega)]
      rfl
    · rw [hcomplete]
      exact ⟨List.not_mem_nil, Nat.zero_le _, List.not_mem_nil, fun _ => ⟨rfl, rfl⟩, nofun⟩

/-- What the reader knows of a line that is too long. -/
theorem reads_overlong (hp : newlineByte ∉ p) (hlen : limit < p.length) : Reads ⟨limit, [], true⟩ p :=
  ⟨hp, Nat.zero_le _, List.not_mem_nil, fun hle => absurd hle (Nat.not_le_of_lt hlen), fun _ => rfl⟩

/-- A read that takes all it may without a newline finds the line too long. -/
theorem Reads.endRead_full (h : r.Reads p) (hc : newlineByte ∉ c) (hlen : c.length = r.budget) :
    ∃ line r', ({ r with buffer := c.reverse ++ r.buffer } : LineReader).endRead false = (line, r') ∧
      line.toList = emits r.limit p c ∧ r'.limit = r.limit ∧ r'.Reads (p ++ c) := by
  have hcomplete : complete { r with buffer := c.reverse ++ r.buffer } = false :=
    complete_of_not_mem (by simp [hc, h.unended_buffer])
  have hmem : newlineByte ∉ p ++ c := by simp [hc, h.unended]
  have hbudget := h.budget_eq
  have hbounded := h.bounded
  rw [emits_of_not_mem hc]
  by_cases hp : p.length ≤ r.limit
  · obtain ⟨hbuffer, hdiscarding⟩ := h.kept hp
    rw [hbuffer, List.length_reverse] at hbudget
    have hfull : full { r with buffer := c.reverse ++ r.buffer } = true := by
      simp only [full, hbuffer, List.length_append, List.length_reverse, decide_eq_true_eq]
      omega
    refine ⟨_, _, endRead_of_full hdiscarding hcomplete hfull, ?_, rfl, reads_overlong hmem ?_⟩
    · rw [if_pos (by omega)]
      rfl
    · show r.limit < (p ++ c).length
      rw [List.length_append]
      omega
  · refine ⟨_, _, endRead_of_discarding (h.passed (Nat.lt_of_not_le hp)), ?_, rfl, ?_⟩
    · rw [if_neg (by omega)]
      rfl
    · rw [hcomplete]
      refine reads_overlong hmem ?_
      show r.limit < (p ++ c).length
      rw [List.length_append]
      omega

/-- A read that takes all there is goes on with what comes next. -/
theorem Reads.read_on (h : r.Reads p) (hc : newlineByte ∉ c) (hlen : c.length < r.budget) :
    emits r.limit p c = [] ∧ ({ r with buffer := c.reverse ++ r.buffer } : LineReader).Reads (p ++ c) ∧
      ({ r with buffer := c.reverse ++ r.buffer } : LineReader).full = false := by
  have hbudget := h.budget_eq
  have hbounded := h.bounded
  have hlen' : (c.reverse ++ r.buffer).length ≤ r.limit := by
    rw [List.length_append, List.length_reverse]
    omega
  refine ⟨?_, ⟨by simp [hc, h.unended], hlen', by simp [hc, h.unended_buffer], fun hle => ?_, fun hlt => ?_⟩, ?_⟩
  · rw [emits_of_not_mem hc, if_neg]
    rintro ⟨hp, hlong⟩
    rw [(h.kept hp).1, List.length_reverse] at hbudget
    omega
  · have hle' : (p ++ c).length ≤ r.limit := hle
    rw [List.length_append] at hle'
    obtain ⟨hbuffer, hdiscarding⟩ := h.kept (by omega)
    exact ⟨by simp [hbuffer], hdiscarding⟩
  · have hlt' : r.limit < (p ++ c).length := hlt
    refine h.passed (Nat.lt_of_not_le fun hp => ?_)
    rw [(h.kept hp).1, List.length_reverse] at hbudget
    rw [List.length_append] at hlt'
    omega
  · simpa [full] using hlen'

/-- The read of some bytes, after which the reader is `r₁`, has ended and gives the lines that they complete. -/
def Ends (r r₁ : LineReader) (p taken : List UInt8) : Prop :=
  (r₁.complete || r₁.full) = true ∧ ∃ line r', r₁.endRead false = (line, r') ∧
    line.toList = emits r.limit p taken ∧ r'.limit = r.limit ∧ r'.Reads (unfinished p taken)

/-- The read of some bytes, after which the reader is `r₁`, has not ended, and they complete no line. -/
def Pauses (r r₁ : LineReader) (p taken : List UInt8) : Prop :=
  (r₁.complete || r₁.full) = false ∧ emits r.limit p taken = [] ∧ r₁.limit = r.limit ∧
    r₁.Reads (unfinished p taken)

/-- A read ends, or it takes all that there is. -/
theorem Reads.read (h : r.Reads p) (bytes : List UInt8) :
    ∃ taken r₁ rest, bytes = taken ++ rest ∧ r.read bytes = (r₁, rest) ∧
      ((taken ≠ [] ∧ r.Ends r₁ p taken) ∨ (rest = [] ∧ r.Pauses r₁ p taken)) := by
  obtain ⟨taken, rest, rfl, htake, hlen, hcase⟩ := takeLine_spec r.budget r.buffer bytes
  refine ⟨taken, { r with buffer := taken.reverse ++ r.buffer }, rest, rfl, by rw [LineReader.read, htake], ?_⟩
  rcases hcase with ⟨c, hc, rfl⟩ | ⟨hnot, hend⟩
  · have hcomplete : complete { r with buffer := (c ++ [newlineByte]).reverse ++ r.buffer } = true :=
      complete_iff.mpr ⟨c.reverse ++ r.buffer, by simp⟩
    have hc' : c.length < r.budget := by
      rw [List.length_append, List.length_singleton] at hlen
      omega
    have hunfinished : unfinished p (c ++ [newlineByte]) = [] := by simp [unfinished]
    refine Or.inl ⟨by simp, by rw [hcomplete, Bool.true_or], ?_⟩
    rw [hunfinished]
    exact h.endRead_newline hc hc'
  · have hcomplete : complete { r with buffer := taken.reverse ++ r.buffer } = false :=
      complete_of_not_mem (by simp [hnot, h.unended_buffer])
    rw [Ends, Pauses, hcomplete, Bool.false_or, unfinished_of_not_mem hnot]
    by_cases hfull : taken.length = r.budget
    · have hbudget := h.budget_eq
      have hbounded := h.bounded
      have hbuffer : full { r with buffer := taken.reverse ++ r.buffer } = true := by
        simp only [full, List.length_append, List.length_reverse, decide_eq_true_eq]
        omega
      refine Or.inl ⟨?_, hbuffer, h.endRead_full hnot hfull⟩
      rintro rfl
      rw [List.length_nil] at hfull
      exact absurd hfull (Nat.ne_of_lt r.budget_pos)
    · obtain ⟨hemits, hreads, hbuffer⟩ := h.read_on hnot (Nat.lt_of_le_of_ne hlen hfull)
      exact Or.inr ⟨hend.resolve_left hfull, hbuffer, hemits, rfl, hreads⟩

/-! ## All reads -/

/-- Whatever bytes come in, the reader finds the lines that they complete, and knows the line that is not complete. -/
theorem Reads.feedFrom (h : r.Reads p) (clock : List UInt8) (out : List Line) (bytes : List UInt8)
    (hclock : bytes.length ≤ clock.length) :
    ∃ r', LineReader.feedFrom clock r out bytes = ((emits r.limit p bytes).reverse ++ out, r') ∧
      r'.limit = r.limit ∧ r'.Reads (unfinished p bytes) := by
  induction clock generalizing r p out bytes with
  | nil =>
    obtain rfl : bytes = [] := List.eq_nil_of_length_eq_zero (by simpa using hclock)
    exact ⟨r, rfl, rfl, h⟩
  | cons b clock ih =>
    obtain ⟨taken, r₁, rest, rfl, hread, hcase⟩ := h.read bytes
    rw [LineReader.feedFrom, hread]
    rcases hcase with ⟨hne, hends, line, r', hline, hlines, hlimit, hr'⟩ | ⟨rfl, hpauses, hlines, hlimit, hr'⟩
    · have hrest : rest.length ≤ clock.length := by
        have := List.length_pos_of_ne_nil hne
        rw [List.length_append, List.length_cons] at hclock
        omega
      obtain ⟨r'', hfeed, hlimit', hr''⟩ := ih hr' (line.toList ++ out) rest hrest
      refine ⟨r'', ?_, hlimit'.trans hlimit, by rwa [unfinished_append]⟩
      have hreverse : line.toList.reverse = line.toList := by cases line <;> rfl
      simp only [hends, if_true, hline, hfeed, hlimit]
      rw [emits_append, List.reverse_append, ← hlines, hreverse, List.append_assoc]
    · refine ⟨r₁, ?_, hlimit, by rwa [List.append_nil]⟩
      simp only [hpauses, List.append_nil, hlines]
      rfl

theorem Reads.feed (h : r.Reads p) (bytes : List UInt8) :
    ∃ r', r.feed bytes = (emits r.limit p bytes, r') ∧ r'.limit = r.limit ∧ r'.Reads (unfinished p bytes) := by
  obtain ⟨r', hfeed, hlimit, hr'⟩ := h.feedFrom bytes [] bytes (Nat.le_refl _)
  refine ⟨r', ?_, hlimit, hr'⟩
  rw [LineReader.feed, hfeed]
  simp

/-- At the end of the stream the reader finds the rest, if it is a line, and knows nothing more. -/
theorem Reads.finish (h : r.Reads p) :
    r.finish.toList = remainder r.limit p ∧ (r.endRead true).2 = ⟨r.limit, [], false⟩ := by
  have hcomplete := complete_of_not_mem h.unended_buffer
  unfold LineReader.finish remainder
  by_cases hp : p.length ≤ r.limit
  · obtain ⟨hbuffer, hdiscarding⟩ := h.kept hp
    have hend : r.endRead true = if p = [] then (none, r) else (some (.whole p), { r with buffer := [] }) := by
      by_cases hnil : p = [] <;> simp [endRead, hdiscarding, hcomplete, hbuffer, hnil]
    rw [hend]
    by_cases hnil : p = []
    · obtain ⟨limit, buffer, discarding⟩ := r
      obtain rfl : buffer = p.reverse := hbuffer
      obtain rfl : discarding = false := hdiscarding
      simp [hnil]
    · rw [if_neg hnil, if_neg (by simpa [hnil] using hp), hdiscarding]
      exact ⟨rfl, rfl⟩
  · rw [endRead_of_discarding (h.passed (Nat.lt_of_not_le hp)), if_pos (Or.inr (Nat.lt_of_not_le hp)), Bool.or_true]
    exact ⟨rfl, rfl⟩

end LineReader

end ShellHost
