import ShellHost.Message.Envelope
import ShellHost.Message.Event
import ShellHost.Proofs.Message.RoundTrip

/-!
# Replies and events are told apart

Both decoders pass over members that they do not know, so it is the members that they miss which tell the two apart: a
reply has no channel, and an event has no number. Whatever a reply or an event carries, the decoder of the other one
reads it to the end before it finds that out, or objects earlier, but never accepts it.
-/

namespace ShellHost

open Json

/-- No reply is read as an event. -/
theorem Reply.no_event (r : Reply) : ∃ e, Event.decoder.parse r.render = .error e := by
  have hfinish : ∀ (s : Event.Draft) (e : Event), s.channel = none → Event.record.finish s ≠ .ok e := by
    rintro ⟨channel, payload⟩ e rfl h
    cases h
  refine Event.record.refuses_object (fun s => s.channel = none) rfl
    (List.forall_mem_cons.mpr ⟨fun s hs rest hrest => ?_, List.forall_mem_singleton.mpr fun s hs rest hrest => ?_⟩) hfinish
  · have hskip := skipValue_number (.whole (.ofUInt64 r.id)) hrest
    exact Event.record.ignored_ends _ (m := ("id", .ofUInt64 r.id)) rfl rfl 126 hs hskip
  · have hpayload := Event.record.field_ends (fun s => s.channel = none) (m := ("payload", r.payload.toValue)) rfl
      (ends_value _) (fun _ _ hs => hs) 126 hs hrest
    exact hpayload.imp fun _ hp => hp.1

/-- No event is read as a reply. -/
theorem Event.no_reply (e : Event) : ∃ err, Reply.parse e.render = .error err := by
  have hfinish : ∀ (s : Reply.Draft) (r : Reply), s.id = none → Reply.record.finish s ≠ .ok r := by
    rintro ⟨id, payload⟩ r rfl h
    cases h
  refine Reply.record.refuses_object (fun s => s.id = none) rfl
    (List.forall_mem_cons.mpr ⟨fun s hs rest hrest => ?_, List.forall_mem_singleton.mpr fun s hs rest hrest => ?_⟩) hfinish
  · have hskip := skipValue_string e.channel rest
    exact Reply.record.ignored_ends _ (m := ("channel", .string e.channel)) rfl rfl 126 hs hskip
  · have hpayload := Reply.record.field_ends (fun s => s.id = none) (m := ("payload", e.payload)) rfl (Outcome.ends _)
      (fun _ _ hs => hs) 126 hs hrest
    exact hpayload.imp fun _ hp => hp.1

end ShellHost
