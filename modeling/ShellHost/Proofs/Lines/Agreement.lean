import ShellHost.Proofs.Lines.Framing
import ShellHost.Proofs.Session.Serving

/-!
# Both transports agree

An envelope reaches the host over the line of a session, where the serving loop takes its text as it is, or as a line of
input, which is cut out at its newlines, measured, decoded and trimmed. The text of an envelope comes through all of that
unchanged: it has no newline of its own, and begins and ends with a brace. So the host handles the same texts, one after
another (`Host.handleTexts`), and gives the same replies.
-/

namespace ShellHost

open Json

variable {σ : Type}

/-- The replies of a host that handles texts one after another, and the state behind them. -/
def Host.handleTexts (h : Host σ) : List String → σ → List String × σ
  | [], s => ([], s)
  | text :: texts, s =>
    let (reply, s) := h.handleText text s
    let (replies, s) := h.handleTexts texts s
    (reply :: replies, s)

theorem Host.length_handleTexts (h : Host σ) (texts : List String) (s : σ) :
    (h.handleTexts texts s).1.length = texts.length := by
  induction texts generalizing s with
  | nil => rfl
  | cons text texts ih => rw [handleTexts, List.length_cons, List.length_cons, ih]

/-- A host that serves handles the texts of the envelopes. -/
theorem Host.turns_eq_handleTexts (h : Host σ) (fs : List Frame) (s : σ) :
    ((h.turns fs s).1.map Turn.reply, (h.turns fs s).2) = h.handleTexts (fs.map Frame.text) s := by
  induction fs generalizing s with
  | nil => rfl
  | cons f fs ih =>
    have hrest := ih (h.handleText f.text s).2
    rw [List.map_cons, handleTexts]
    dsimp only
    rw [← hrest]
    rfl

/-! ## Envelopes as lines -/

/-- The bytes of a text with the newline that ends its line. -/
def lineBytes (text : String) : List UInt8 := Utf8.encodeString text ++ [newlineByte]

/-- Texts without newlines are found again as the lines of their bytes. -/
theorem segments_lineBytes {texts : List String} (h : ∀ text ∈ texts, newlineByte ∉ Utf8.encodeString text) :
    segments (texts.flatMap lineBytes) = texts.map fun text => ⟨Utf8.encodeString text, true⟩ := by
  induction texts with
  | nil => rfl
  | cons text texts ih =>
    have hrest := ih fun t ht => h t (List.mem_cons_of_mem _ ht)
    rw [List.flatMap_cons, lineBytes, List.append_assoc, List.singleton_append,
      segments_append_newline (h text List.mem_cons_self), hrest, List.map_cons]

/-- Nothing is trimmed off a text that stands between characters that are no blanks. -/
theorem Text.trim_between {first last : Char} (hfirst : Text.isBlank first = false) (hlast : Text.isBlank last = false)
    (cs : List Char) : Text.trim (first :: (cs ++ [last])) = first :: (cs ++ [last]) := by
  unfold Text.trim
  rw [List.dropWhile_cons_of_neg (by simp [hfirst]), List.reverse_cons, List.reverse_append, List.reverse_singleton,
    List.singleton_append, List.cons_append, List.dropWhile_cons_of_neg (by simp [hlast])]
  simp

theorem Envelope.trim_render (e : Envelope) : Text.trim e.render.toList = e.render.toList := by
  rw [Envelope.render, toList_render, Envelope.toValue, chars_object]
  exact Text.trim_between (by decide) (by decide) _

/-- A line that is the text of an envelope is answered as the text is. -/
theorem Envelope.reply_line (host : Host σ) {limit : Nat} {e : Envelope}
    (hsize : (Utf8.encodeString e.render).length ≤ limit) (s : σ) :
    Segment.reply host limit ⟨Utf8.encodeString e.render, true⟩ s
      = (some (host.handleText e.render s).1, (host.handleText e.render s).2) := by
  have hdecode : Utf8.decode (Utf8.encodeString e.render) = .ok e.render.toList := Utf8.decode_encode _
  have hne : e.render.toList ≠ [] := by
    rw [Envelope.render, toList_render]
    exact (chars_begins e.toValue).ne_nil
  unfold Segment.reply
  rw [if_neg (Nat.not_lt_of_le hsize), hdecode]
  dsimp only
  rw [e.trim_render, if_neg hne, String.ofList_toList]

/-- Lines that are the texts of envelopes are answered as the texts are, one after another. -/
theorem replies_envelopes (host : Host σ) {limit : Nat} {es : List Envelope}
    (hsize : ∀ e ∈ es, (Utf8.encodeString e.render).length ≤ limit) (s : σ) :
    replies (Segment.reply host limit) ((es.map Envelope.render).map fun text => ⟨Utf8.encodeString text, true⟩) s
      = host.handleTexts (es.map Envelope.render) s := by
  induction es generalizing s with
  | nil => rfl
  | cons e es ih =>
    have hrest := ih fun e' he' => hsize e' (List.mem_cons_of_mem _ he')
    simp only [List.map_cons, replies, Envelope.reply_line host (hsize e List.mem_cons_self), hrest, Host.handleTexts,
      Option.toList_some, List.singleton_append]

namespace LineLoop

/-- A loop that reads envelopes, one on each line, and gets no events writes the replies to their texts. -/
theorem written_of_envelopes (host : Host σ) (state : σ) {limit : Nat} (bus : EventBus) {es : List Envelope}
    (hsize : ∀ e ∈ es, (Utf8.encodeString e.render).length ≤ limit) {hs : List Happening}
    (hinput : hs.flatMap Happening.input = (es.map Envelope.render).flatMap lineBytes)
    (hquiet : hs.flatMap Happening.published = []) :
    let l := ((start host state limit bus).run hs).close
    l.ended = some (.ok ()) ∧ l.state = (host.handleTexts (es.map Envelope.render) state).2 ∧
      l.sink.written.reverse.splitOn newlineByte
        = (host.handleTexts (es.map Envelope.render) state).1.map Utf8.encodeString ++ [[]] := by
  intro l
  have hsegments : segments (hs.flatMap Happening.input)
      = (es.map Envelope.render).map fun text => ⟨Utf8.encodeString text, true⟩ := by
    rw [hinput]
    exact segments_lineBytes (List.forall_mem_map.mpr fun e _ => (oneLine_render e.toValue).newline_not_mem)
  obtain ⟨hended, hstate, hlines⟩ := written_of_quiet host state limit bus hquiet
  rw [hsegments, replies_envelopes host hsize] at hstate hlines
  exact ⟨hended, hstate, hlines⟩

end LineLoop

/-! ## Envelopes in the line of a session -/

namespace Session

/-- A host serves, and these texts stand in the line, each sent by a call of its own that is in flight. -/
structure Carrying (host : Host σ) (state : σ) (texts : List String) (s : Session σ) : Prop where
  /-- The host serves. -/
  serving : s.endpoint = .serving
  /-- It is this host. -/
  host_eq : s.host = host
  /-- It begins in this state. -/
  state_eq : s.state = state
  /-- The texts stand in the line, or wait for room in it. -/
  line : (s.queued ++ s.waiting).map Frame.text = texts
  /-- The line is as long as it may be. -/
  room : s.Room
  /-- No two of them belong to the same call. -/
  distinct : ((s.queued ++ s.waiting).map Frame.number).Nodup
  /-- Their calls are in flight. -/
  awaited : ∀ f ∈ s.queued ++ s.waiting, ∃ c, s.call? f.number = some c ∧ c.inFlight = true

/-- The frames of some texts. -/
def numbered (texts : List String) : List Frame := (texts.zipIdx 1).map fun t => ⟨t.2, t.1⟩

/-- A session with these texts in its line. -/
def loaded (host : Host σ) (state : σ) (texts : List String) : Session σ :=
  { start host state texts.length 1 with
    endpoint := .serving
    queued := numbered texts
    nextNumber := texts.length + 1
    calls := (numbered texts).map fun f => ⟨f.number, .raw "" .null, .flying .queued⟩ }

theorem carrying_loaded (host : Host σ) (state : σ) (texts : List String) :
    Carrying host state texts (loaded host state texts) where
  serving := rfl
  host_eq := rfl
  state_eq := rfl
  line := by
    show (numbered texts ++ []).map Frame.text = texts
    rw [List.append_nil, numbered, List.map_map]
    exact List.zipIdx_map_fst 1 texts
  room := by
    have hle : (numbered texts).length ≤ max 1 texts.length := by simp [numbered]
    exact ⟨hle, fun hne => absurd rfl hne⟩
  distinct := by
    show ((numbered texts ++ []).map Frame.number).Nodup
    have hnumbers : (numbered texts).map Frame.number = List.range' 1 texts.length := by
      rw [numbered, List.map_map]
      exact List.zipIdx_map_snd 1 texts
    rw [List.append_nil, hnumbers]
    exact List.nodup_range'
  awaited := by
    intro f hf
    have hf : f ∈ numbered texts := by simpa [loaded, start] using hf
    set calls : List Call := (numbered texts).map fun f => ⟨f.number, .raw "" .null, .flying .queued⟩ with hcalls
    cases hc : calls.find? (·.number == f.number) with
    | none =>
      have hnone := List.find?_eq_none.mp hc ⟨f.number, .raw "" .null, .flying .queued⟩ (List.mem_map_of_mem hf)
      simp at hnone
    | some c =>
      obtain ⟨g, -, rfl⟩ := List.mem_map.mp (List.mem_of_find?_eq_some hc)
      exact ⟨_, hc, rfl⟩

/-- The serving loop handles the texts in its line, and each caller gets the reply to its own. -/
theorem Carrying.settle {host : Host σ} {state : σ} {texts : List String} {s : Session σ}
    (h : Carrying host state texts s) :
    ∃ ts, Answered s s.settle ts ∧ ts.map Turn.reply = (host.handleTexts texts state).1 ∧
      s.settle.state = (host.handleTexts texts state).2 ∧
      ∀ t ∈ ts, ∃ c, s.settle.call? t.frame.number = some c ∧ c.stage = .settled (.replied t.reply) := by
  have hanswered := answered_settle h.room h.distinct h.serving
  have hhandled := s.host.turns_eq_handleTexts (s.queued ++ s.waiting) s.state
  rw [h.line, h.host_eq, h.state_eq] at hhandled
  have hturns := hanswered.handled
  rw [h.host_eq, h.state_eq] at hanswered hturns
  refine ⟨_, hanswered, congrArg Prod.fst hhandled, ?_, fun t ht => ?_⟩
  · rw [← hhandled]
    exact (congrArg Prod.snd hturns).symm
  · have hmem : t.frame ∈ s.queued ++ s.waiting := hanswered.frames ▸ List.mem_map_of_mem ht
    obtain ⟨c, hc, hfly⟩ := h.awaited t.frame hmem
    refine ⟨c.advance (.settled (.replied t.reply)), by rw [hanswered.responded t ht, hc, Option.map_some], ?_⟩
    exact if_pos hfly

end Session

/-! ## Both ways -/

/-- A host that serves finds these texts in its line: it gives these replies, one to each call, and comes to this
state. -/
def ServedInSession (host : Host σ) (state : σ) (texts out : List String) (final : σ) : Prop :=
  (∃ s, Session.Carrying host state texts s) ∧
    ∀ s, Session.Carrying host state texts s →
      s.settle.state = final ∧ ∃ ts, Session.Answered s s.settle ts ∧ ts.map Turn.reply = out ∧
        ∀ t ∈ ts, ∃ c, s.settle.call? t.frame.number = some c ∧ c.stage = .settled (.replied t.reply)

/-- A host reads these texts as lines, in whatever pieces they come in: it writes these replies, one on each line, and
comes to this state. -/
def ServedOnLines (host : Host σ) (state : σ) (texts out : List String) (final : σ) : Prop :=
  ∀ (bus : EventBus) (hs : List LineLoop.Happening), hs.flatMap LineLoop.Happening.input = texts.flatMap lineBytes →
    hs.flatMap LineLoop.Happening.published = [] →
    let l := ((LineLoop.start host state lineLimit bus).run hs).close
    l.ended = some (.ok ()) ∧ l.state = final ∧
      l.sink.written.reverse.splitOn newlineByte = out.map Utf8.encodeString ++ [[]]

/-- Envelopes that are not too long for a line get the same replies on both ways, each of them one, and the host comes to
the same state: the replies and the state are those of a host that handles the texts one after another. -/
theorem transports_agree (host : Host σ) (state : σ) {es : List Envelope}
    (hsize : ∀ e ∈ es, (Utf8.encodeString e.render).length ≤ lineLimit) :
    let texts := es.map Envelope.render
    let out := host.handleTexts texts state
    out.1.length = es.length ∧ ServedInSession host state texts out.1 out.2 ∧
      ServedOnLines host state texts out.1 out.2 := by
  intro texts out
  refine ⟨?_, ⟨⟨_, Session.carrying_loaded host state texts⟩, fun s hs => ?_⟩, fun bus hs hinput hquiet => ?_⟩
  · rw [host.length_handleTexts, List.length_map]
  · obtain ⟨ts, hanswered, hreplies, hstate, hcalls⟩ := hs.settle
    exact ⟨hstate, ts, hanswered, hreplies, hcalls⟩
  · exact LineLoop.written_of_envelopes host state bus hsize hinput hquiet

/-- An envelope on a channel with a newline in its name, and one whose handler panics. -/
def twoEnvelopes : List Envelope :=
  [⟨0, "a\nb", .null⟩, ⟨18446744073709551615, messageChannel, .array [.string "addNewProject", .object []]⟩]

/-- The two envelopes, cut in two in the middle of the first one, come out as two lines of replies. -/
theorem two_envelopes_agree :
    (∀ e ∈ twoEnvelopes, (Utf8.encodeString e.render).length ≤ lineLimit) ∧
      let bytes := (twoEnvelopes.map Envelope.render).flatMap lineBytes
      let l := ((LineLoop.start Session.panickingHost () lineLimit (.ofCapacity 1)).run
        [.arrival (bytes.take 20), .turn 2, .arrival (bytes.drop 20)]).close
      (l.sink.written.reverse.splitOn newlineByte).length = 3 := by
  have hsize : ∀ e ∈ twoEnvelopes, (Utf8.encodeString e.render).length ≤ lineLimit := by decide +kernel
  refine ⟨hsize, ?_⟩
  obtain ⟨hlength, -, hlines⟩ := transports_agree Session.panickingHost () hsize
  intro bytes l
  obtain ⟨-, -, hwritten⟩ := hlines (.ofCapacity 1) [.arrival (bytes.take 20), .turn 2, .arrival (bytes.drop 20)]
    (by simp [LineLoop.Happening.input, bytes]) rfl
  rw [hwritten, List.length_append, List.length_map, hlength]
  rfl

end ShellHost
