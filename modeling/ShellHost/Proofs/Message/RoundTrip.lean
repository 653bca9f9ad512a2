import ShellHost.Message.Envelope
import ShellHost.Message.Event
import ShellHost.Proofs.Json.Decoding

/-!
# Messages come back

Whatever envelope, reply or event is written is read back as the same one, if its values hold no floats and its text
nests no more than 127 deep. A deeper one is refused.
-/

namespace ShellHost

open Json

namespace Envelope

theorem reads {e : Envelope} (hfree : e.payload.FloatFree) (hsorted : e.payload.Sorted) :
    Envelope.decoder.Reads e.toValue e := by
  have hfits : record.Fits {} [("id", .ofUInt64 e.id), ("channel", .string e.channel), ("payload", e.payload)]
      ⟨some e.id, some e.channel, some e.payload⟩ :=
    .cons rfl rfl (Record.reads_field (reads_uint64 e.id))
      (.cons rfl rfl (Record.reads_field (reads_text _ e.channel))
        (.cons rfl rfl (Record.reads_field (reads_value hfree hsorted)) (.nil _)))
  exact Record.reads_object hfits rfl

theorem ends (e : Envelope) : Envelope.decoder.Ends e.toValue :=
  Record.ends_object <| List.forall_mem_cons.mpr
    ⟨⟨_, _, _, _, _, rfl, ends_uint64 _⟩, List.forall_mem_cons.mpr
      ⟨⟨_, _, _, _, _, rfl, ends_text _ _⟩, List.forall_mem_singleton.mpr
        ⟨_, _, _, _, _, rfl, ends_value _⟩⟩⟩

/-- An envelope nests one level deeper than its payload. -/
theorem depth_toValue (e : Envelope) : e.toValue.depth = e.payload.depth + 1 := by
  simp [toValue, Value.depth, membersDepth, Value.ofUInt64]

end Envelope

namespace Event

theorem reads {e : Event} (hfree : e.payload.FloatFree) (hsorted : e.payload.Sorted) :
    Event.decoder.Reads e.toValue e := by
  have hfits : record.Fits {} [("channel", .string e.channel), ("payload", e.payload)]
      ⟨some e.channel, some e.payload⟩ :=
    .cons rfl rfl (Record.reads_field (reads_text _ e.channel))
      (.cons rfl rfl (Record.reads_field (reads_value hfree hsorted)) (.nil _))
  exact Record.reads_object hfits rfl

theorem ends (e : Event) : Event.decoder.Ends e.toValue :=
  Record.ends_object <| List.forall_mem_cons.mpr
    ⟨⟨_, _, _, _, _, rfl, ends_text _ _⟩, List.forall_mem_singleton.mpr
      ⟨_, _, _, _, _, rfl, ends_value _⟩⟩

/-- An event nests one level deeper than its payload. -/
theorem depth_toValue (e : Event) : e.toValue.depth = e.payload.depth + 1 := by
  simp [toValue, Value.depth, membersDepth]

end Event

namespace CallError

theorem reads (e : CallError) : CallError.decoder.Reads e.toValue e := by
  have hstring : ∀ s, (Value.string s).FloatFree ∧ (Value.string s).Sorted := fun _ => ⟨trivial, trivial⟩
  cases e <;> exact Tagged.reads_object (t := tagged) rfl (by simp [tagged, hstring]) rfl

theorem depth_toValue (e : CallError) : e.toValue.depth = 1 := by
  cases e <;> rfl

end CallError

namespace Outcome

theorem reads {o : Outcome} (hfree : ∀ v, o = .ok v → v.FloatFree) (hsorted : ∀ v, o = .ok v → v.Sorted) :
    Outcome.decoder.Reads o.toValue o := by
  cases o with
  | ok v => exact reads_newtype rfl ((reads_value (hfree v rfl) (hsorted v rfl)).map ok)
  | error e => exact reads_newtype rfl (e.reads.map error)

theorem ends (v : Value) : Outcome.decoder.Ends v := by
  have hpayload : ∀ x ∈ [Variant.newtype "ok" (value.map ok), .newtype "error" (CallError.decoder.map error)],
      ∀ v, x.payload.Ends v := by
    intro x hx v
    rcases List.mem_pair.mp hx with rfl | rfl
    · exact (ends_value v).map ok
    · exact (CallError.tagged.ends v).map error
  exact ends_enumeration hpayload v

end Outcome

namespace Reply

theorem reads {r : Reply} (hfree : ∀ v, r.payload = .ok v → v.FloatFree) (hsorted : ∀ v, r.payload = .ok v → v.Sorted) :
    Reply.decoder.Reads r.toValue r := by
  have hfits : record.Fits {} [("id", .ofUInt64 r.id), ("payload", r.payload.toValue)]
      ⟨some r.id, some r.payload⟩ :=
    .cons rfl rfl (Record.reads_field (reads_uint64 r.id))
      (.cons rfl rfl (Record.reads_field (Outcome.reads hfree hsorted)) (.nil _))
  exact Record.reads_object hfits rfl

theorem ends (r : Reply) : Reply.decoder.Ends r.toValue :=
  Record.ends_object <| List.forall_mem_cons.mpr
    ⟨⟨_, _, _, _, _, rfl, ends_uint64 _⟩, List.forall_mem_singleton.mpr
      ⟨_, _, _, _, _, rfl, Outcome.ends _⟩⟩

/-- A reply nests two levels deeper than the value that it brings. -/
theorem depth_toValue_ok (id : UInt64) (v : Value) : (Reply.toValue ⟨id, .ok v⟩).depth = v.depth + 2 := by
  simp [toValue, Outcome.toValue, Value.depth, membersDepth, Value.ofUInt64]

theorem depth_toValue_error (id : UInt64) (e : CallError) : (Reply.toValue ⟨id, .error e⟩).depth = 3 := by
  simp [toValue, Outcome.toValue, Value.depth, membersDepth, Value.ofUInt64, e.depth_toValue]

end Reply

/-- Envelopes, replies and events come back from their texts as they were: with every number, every text and every
value without floats, up to the depth that the reader allows. A text that nests deeper is refused, whatever it
holds. -/
theorem messages_round_trip :
    (∀ e : Envelope,
      (e.payload.FloatFree → e.payload.Sorted → e.toValue.depth ≤ 127 → Envelope.parse e.render = .ok e) ∧
      (128 ≤ e.toValue.depth → ∃ err, Envelope.parse e.render = .error err)) ∧
    (∀ r : Reply,
      ((∀ v, r.payload = .ok v → v.FloatFree ∧ v.Sorted) → r.toValue.depth ≤ 127 → Reply.parse r.render = .ok r) ∧
      (128 ≤ r.toValue.depth → ∃ err, Reply.parse r.render = .error err)) ∧
    (∀ e : Event,
      (e.payload.FloatFree → e.payload.Sorted → e.toValue.depth ≤ 127 → Event.decoder.parse e.render = .ok e) ∧
      (128 ≤ e.toValue.depth → ∃ err, Event.decoder.parse e.render = .error err)) := by
  refine ⟨fun e => ⟨fun hfree hsorted hdepth => ?_, fun hdeep => ?_⟩, fun r => ⟨fun hplain hdepth => ?_, fun hdeep => ?_⟩,
    fun e => ⟨fun hfree hsorted hdepth => ?_, fun hdeep => ?_⟩⟩
  · exact (Envelope.reads hfree hsorted).parse hdepth
  · exact e.ends.refuses hdeep
  · exact (Reply.reads (fun v hv => (hplain v hv).1) fun v hv => (hplain v hv).2).parse hdepth
  · exact r.ends.refuses hdeep
  · exact (Event.reads hfree hsorted).parse hdepth
  · exact e.ends.refuses hdeep

/-- An envelope with quotes, a line break and a tag in its texts comes back; a reply with 126 brackets in its value does
not. -/
theorem round_trip_of_tag :
    Envelope.parse (Envelope.render ⟨7, "\"kind\"\n", .object [("error", .array [.string "\\"])]⟩)
      = .ok ⟨7, "\"kind\"\n", .object [("error", .array [.string "\\"])]⟩ ∧
    Event.decoder.parse (Event.render ⟨"", nest 126⟩) = .ok ⟨"", nest 126⟩ ∧
    Reply.parse (Reply.render ⟨0, .ok (nest 125)⟩) = .ok ⟨0, .ok (nest 125)⟩ ∧
    ∃ err, Reply.parse (Reply.render ⟨0, .ok (nest 126)⟩) = .error err := by
  refine ⟨(messages_round_trip.1 _).1 ?_ ?_ (by decide), (messages_round_trip.2.2 _).1 ?_ ?_ ?_,
    (messages_round_trip.2.1 _).1 ?_ ?_, (messages_round_trip.2.1 _).2 ?_⟩
  · exact ⟨⟨trivial, trivial⟩, trivial⟩
  · exact ⟨List.pairwise_singleton _ _, ⟨trivial, trivial⟩, trivial⟩
  · exact floatFree_nest 126
  · exact sorted_nest 126
  · rw [Event.depth_toValue, depth_nest]
  · rintro v ⟨⟩
    exact ⟨floatFree_nest 125, sorted_nest 125⟩
  · rw [Reply.depth_toValue_ok, depth_nest]
  · rw [Reply.depth_toValue_ok, depth_nest]

end ShellHost
