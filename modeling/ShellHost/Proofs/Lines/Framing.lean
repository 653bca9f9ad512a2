import ShellHost.Proofs.Lines.Replies
import ShellHost.Proofs.Message.Apart
import ShellHost.Proofs.Text.Utf8

/-!
# The output is whole lines

Between two newlines of the output stands one reply or one event. No text of a reply or an event has a newline of its
own, since every control character that it carries is escaped, and the loop writes one text and one newline at a time.
-/

namespace ShellHost

open Json

variable {σ : Type}

/-! ## One line -/

/-- The text is UTF-8 without any control byte, so it stays on one line. -/
structure OneLine (text : String) : Prop where
  /-- No byte is a control character, not even one inside another character. -/
  printable : ∀ b ∈ Utf8.encodeString text, 0x20 ≤ b.toNat
  /-- The bytes are those of the text. -/
  utf8 : Utf8.decode (Utf8.encodeString text) = .ok text.toList

theorem oneLine_render (v : Value) : OneLine v.render where
  printable := by
    rw [Utf8.encodeString, toList_render]
    exact Utf8.encode_printable (chars_printable v)
  utf8 := Utf8.decode_encode _

theorem OneLine.newline_not_mem {text : String} (h : OneLine text) : newlineByte ∉ Utf8.encodeString text := by
  intro hmem
  have hprint := h.printable newlineByte hmem
  exact absurd hprint (by decide)

/-- Whatever the host replies to a line of its input is the text of a reply. -/
theorem Segment.reply_render (host : Host σ) (limit : Nat) (s : Segment) (state : σ) {text : String}
    (h : (s.reply host limit state).1 = some text) : ∃ r : Reply, text = r.render := by
  unfold Segment.reply at h
  split_ifs at h
  · exact ⟨_, (Option.some.inj h).symm⟩
  · split at h
    · exact ⟨_, (Option.some.inj h).symm⟩
    · split_ifs at h
      exact ⟨_, (Option.some.inj h).symm⟩

theorem replies_render (host : Host σ) (limit : Nat) (segs : List Segment) (state : σ) {text : String}
    (h : text ∈ (replies (Segment.reply host limit) segs state).1) : ∃ r : Reply, text = r.render := by
  induction segs generalizing state with
  | nil => cases h
  | cons s segs ih =>
    rcases List.mem_append.mp h with h | h
    · exact s.reply_render host limit state (Option.mem_toList.mp h)
    · exact ih _ h

/-! ## The output -/

theorem splitOn_lines {lines : List (List UInt8)} (h : ∀ line ∈ lines, newlineByte ∉ line) :
    (lines.flatMap (· ++ [newlineByte])).splitOn newlineByte = lines ++ [[]] := by
  induction lines with
  | nil => exact List.splitOn_nil newlineByte
  | cons line lines ih =>
    have hrest := ih fun l hl => h l (List.mem_cons_of_mem _ hl)
    rw [List.flatMap_cons, List.append_assoc, List.singleton_append,
      List.splitOn_append_cons_self_of_not_mem (h line List.mem_cons_self), hrest, List.cons_append]

namespace LineLoop

/-- The loop has written some replies and events, each on a line of its own: the replies are those to these lines, in
order, and the events are those that it got from its bus. -/
structure Framed (host : Host σ) (state : σ) (limit : Nat) (bus : EventBus) (hs : List Happening) (segs : List Segment)
    (out : List Output) (l : LineLoop σ) : Prop where
  /-- The parts between newlines are the replies and events, and nothing is left behind the last newline. -/
  lines : l.sink.written.reverse.splitOn newlineByte = (out.map fun o => Utf8.encodeString o.text) ++ [[]]
  /-- A reply is the text of one. -/
  reply : ∀ text, Output.reply text ∈ out → ∃ r : Reply, text = r.render
  /-- The replies are those to the lines. -/
  replied : out.filterMap Output.reply? = (replies (Segment.reply host limit) segs state).1
  /-- The events are those that the loop got. -/
  heard : out.filterMap Output.event? = heardIn bus bus.subscribe hs
  /-- They are some of those that were published since the loop began, in order. -/
  published : (heardIn bus bus.subscribe hs).Sublist (hs.flatMap Happening.published)

variable {host : Host σ} {state : σ} {limit : Nat} {bus : EventBus} {hs : List Happening} {segs : List Segment}
  {out out' : List Output} {l l' : LineLoop σ}

/-- Replies to lines are texts of replies. -/
theorem render_of_replied (h : out.filterMap Output.reply? = (replies (Segment.reply host limit) segs state).1) :
    ∀ text, Output.reply text ∈ out → ∃ r : Reply, text = r.render := by
  intro text hmem
  have htext : text ∈ out.filterMap Output.reply? := List.mem_filterMap.mpr ⟨_, hmem, rfl⟩
  rw [h] at htext
  exact replies_render host limit _ state htext

/-- No text of a reply or an event has a newline. -/
theorem lines_of_written (hwritten : l.sink.written.reverse = out.flatMap Output.bytes)
    (hreply : ∀ text, Output.reply text ∈ out → ∃ r : Reply, text = r.render) :
    l.sink.written.reverse.splitOn newlineByte = (out.map fun o => Utf8.encodeString o.text) ++ [[]] := by
  have hline : ∀ line ∈ out.map fun o => Utf8.encodeString o.text, newlineByte ∉ line := by
    intro line hmem
    obtain ⟨o, ho, rfl⟩ := List.mem_map.mp hmem
    cases o with
    | reply text =>
      obtain ⟨r, rfl⟩ := hreply text ho
      exact (oneLine_render r.toValue).newline_not_mem
    | event e => exact (oneLine_render e.toValue).newline_not_mem
  have hbytes : out.flatMap Output.bytes
      = (out.map fun o => Utf8.encodeString o.text).flatMap (· ++ [newlineByte]) := by
    rw [List.flatMap_map]
    rfl
  rw [hwritten, hbytes, splitOn_lines hline]

/-- What is written is framed if the replies are those to the lines, whatever events the loop got. -/
theorem Wrote.framed (h : Wrote host state limit bus (hs.flatMap Happening.input) (hs.flatMap Happening.published) out l)
    (hheard : out.filterMap Output.event? = heardIn bus bus.subscribe hs)
    (hwritten : l'.sink.written.reverse = out'.flatMap Output.bytes)
    (hreplied : out'.filterMap Output.reply? = (replies (Segment.reply host limit) segs state).1)
    (hevents : out'.filterMap Output.event? = out.filterMap Output.event?) :
    Framed host state limit bus hs segs out' l' := by
  have hreply := render_of_replied hreplied
  exact ⟨lines_of_written hwritten hreply, hreply, hreplied, hevents.trans hheard, hheard ▸ h.events_sublist⟩

/-- While the loop runs, it has replied to the lines that are due. -/
theorem Wrote.replied_due
    (h : Wrote host state limit bus (hs.flatMap Happening.input) (hs.flatMap Happening.published) out l) :
    out.filterMap Output.reply? = (replies (Segment.reply host limit)
      ((segments (hs.flatMap Happening.input)).filter (Segment.due limit)) state).1 := by
  have hdue : emits limit [] (hs.flatMap Happening.input)
      = ((segments (hs.flatMap Happening.input)).filter (Segment.due limit)).map (Segment.toLine limit) :=
    emits_due limit List.not_mem_nil _
  have hreplied := h.replied
  rw [hdue, replies_map (Segment.reply_toLine host limit)] at hreplied
  exact (congrArg Prod.fst hreplied).symm

/-- A loop that gets no events writes the replies to the lines of its input, and nothing else. -/
theorem written_of_quiet (host : Host σ) (state : σ) (limit : Nat) (bus : EventBus) {hs : List Happening}
    (hquiet : hs.flatMap Happening.published = []) :
    let l := ((start host state limit bus).run hs).close
    let answered := replies (Segment.reply host limit) (segments (hs.flatMap Happening.input)) state
    l.ended = some (.ok ()) ∧ l.state = answered.2 ∧
      l.sink.written.reverse.splitOn newlineByte = answered.1.map Utf8.encodeString ++ [[]] := by
  intro l answered
  obtain ⟨_, h, -⟩ := (wrote_start host state limit bus).run hs
  rw [List.nil_append, List.nil_append, hquiet] at h
  obtain ⟨out, hended, -, -, hwritten, hreplies, hevents⟩ := h.close
  have hout : out = answered.1.map Output.reply := by
    rw [List.sublist_nil.mp h.events_sublist] at hevents
    rw [Output.eq_map_reply hevents]
    exact congrArg (List.map Output.reply) (congrArg Prod.fst hreplies)
  have hlines := lines_of_written hwritten (render_of_replied (congrArg Prod.fst hreplies))
  rw [hout, List.map_map] at hlines
  exact ⟨hended, congrArg Prod.snd hreplies, hlines⟩

/-- At any time, and after the end or the failure of its input, the loop has written whole lines: each is one reply or
one event, is UTF-8 without control bytes, and cannot be taken for the other kind. The replies are those to all lines that
are due, or after the end of the input to all lines. The events are those that the loop got from its bus. -/
theorem output_framed (host : Host σ) (state : σ) (limit : Nat) (bus : EventBus) (hs : List Happening) :
    (∀ r : Reply, OneLine r.render ∧ ∃ err, Event.decoder.parse r.render = .error err) ∧
    (∀ e : Event, OneLine e.render ∧ ∃ err, Reply.parse e.render = .error err) ∧
    let l := (start host state limit bus).run hs
    let segs := segments (hs.flatMap Happening.input)
    (∃ out, Framed host state limit bus hs (segs.filter (Segment.due limit)) out l) ∧
      (∃ out, Framed host state limit bus hs segs out l.close) ∧
      ∀ reason, ∃ out, Framed host state limit bus hs (segs.filter (Segment.due limit)) out (l.failRead reason) := by
  refine ⟨fun r => ⟨oneLine_render r.toValue, r.no_event⟩, fun e => ⟨oneLine_render e.toValue, e.no_reply⟩, ?_⟩
  intro l segs
  obtain ⟨out, h, hheard⟩ := (wrote_start host state limit bus).run hs
  rw [List.nil_append, List.nil_append] at h
  have hheard : out.filterMap Output.event? = heardIn bus bus.subscribe hs := hheard
  have hwritten : l.sink.written.reverse = out.flatMap Output.bytes := by rw [h.written, List.reverse_reverse]
  refine ⟨⟨out, h.framed hheard hwritten h.replied_due rfl⟩, ?_, fun reason => ⟨out, ?_⟩⟩
  · obtain ⟨out', -, -, -, hclosed, hreplies, hevents⟩ := h.close
    exact ⟨out', h.framed hheard hclosed (congrArg Prod.fst hreplies) hevents⟩
  · have hrunning : l.ended = none := h.isOpen.running
    have hfailed : (l.failRead reason).sink = l.sink := by
      rw [failRead, if_neg (by simp [hrunning])]
      rfl
    refine h.framed hheard ?_ h.replied_due rfl
    rw [hfailed, hwritten]

end LineLoop

end ShellHost
