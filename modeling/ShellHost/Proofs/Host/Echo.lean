import ShellHost.Proofs.Host.Noting
import ShellHost.Proofs.Json.Consistency

/-!
# The number of a reply

A reply has the number of its envelope. A text that is no envelope is read once more, as any JSON, and if it is an object
with a member `id` the reply has that number. So two readers tell the number of a text, and each accepts texts that the
other refuses: one takes envelopes as arrays and passes over what it does not know, the other takes members that are
repeated. Where both accept a text they agree (`Envelope.lookup_id`), so whoever writes a number into a text gets it back
(`id_echoed`).
-/

namespace ShellHost

open Json

variable {σ : Type} {text : String} {members : List (String × Value)}

/-! ## The two readers -/

namespace Envelope

theorem fieldsConsistent : record.FieldsConsistent := by
  intro f hf
  have hfields : f ∈ [
    field "id" Draft.id (fun a d => { d with id := some a }) uint64,
    field "channel" Draft.channel (fun a d => { d with channel := some a }) Json.string,
    field "payload" Draft.payload (fun a d => { d with payload := some a }) value] := hf
  simp only [List.mem_cons, List.not_mem_nil, or_false] at hfields
  rcases hfields with rfl | rfl | rfl
  · exact field_consistent (number_consistent _ _)
  · exact field_consistent (text_consistent _)
  · exact field_consistent value_consistent

/-- Only the member `id` changes the number of a draft. -/
theorem addMember_id {d d' : Draft} {m : String × Value} (h : record.addMember d m = .ok d') :
    d'.id.map Value.ofUInt64 = if "id" = m.1 then some m.2 else d.id.map Value.ofUInt64 := by
  obtain ⟨name, v⟩ := m
  by_cases hid : name = "id"
  · subst hid
    obtain ⟨-, n, hn, rfl⟩ := (Record.addMember_field rfl).mp h
    rw [if_pos rfl, eq_of_uint64 hn]
    rfl
  have hne : ¬ "id" = name := fun heq => hid heq.symm
  rw [if_neg hne]
  by_cases hchannel : name = "channel"
  · subst hchannel
    obtain ⟨-, c, -, rfl⟩ := (Record.addMember_field rfl).mp h
    rfl
  by_cases hpayload : name = "payload"
  · subst hpayload
    obtain ⟨-, p, -, rfl⟩ := (Record.addMember_field rfl).mp h
    rfl
  have hother : record.fields.find? (·.name == name) = none := by
    have hnames : ∀ f ∈ record.fields, f.name ∈ ["id", "channel", "payload"] := by decide
    rw [List.find?_eq_none]
    intro f hf heq
    have hname := hnames f hf
    rw [eq_of_beq heq] at hname
    simp [hid, hchannel, hpayload] at hname
  rw [Record.addMember, hother] at h
  cases h
  rfl

theorem lookup_of_foldlM {d : Draft} (h : members.foldlM record.addMember {} = .ok d) :
    members.reverse.lookup "id" = d.id.map Value.ofUInt64 := by
  induction members using List.reverseRecOn generalizing d with
  | nil =>
    cases h
    rfl
  | append_singleton members m ih =>
    obtain ⟨d₁, hrest, hm⟩ := foldlM_concat_eq_ok.mp h
    rw [List.reverse_append, List.reverse_singleton, List.singleton_append, lookup_cons, addMember_id hm, ih hrest]

theorem lookup_of_ofMembers {e : Envelope} (h : record.ofMembers members = .ok e) :
    members.reverse.lookup "id" = some (.ofUInt64 e.id) := by
  rw [Record.ofMembers] at h
  split at h
  · cases h
  rename_i d hfold
  rw [lookup_of_foldlM hfold]
  obtain ⟨id, channel, payload⟩ := d
  cases id with
  | none => cases h
  | some id =>
    cases channel with
    | none => cases h
    | some channel =>
      cases h
      rfl

/-- The number of an envelope is what its last member `id` says. -/
theorem lookup_id {e : Envelope} (h : Envelope.parse text = .ok e) (hmembers : membersOf text = .ok members) :
    members.reverse.lookup "id" = some (.ofUInt64 e.id) :=
  lookup_of_ofMembers (Record.ofMembers_membersOf fieldsConsistent h hmembers)

end Envelope

/-! ## Replies -/

/-- A text is a JSON object, and its member `id`, the last one if there are several, is the number `n`. -/
structure HasId (text : String) (n : UInt64) : Prop where
  /-- The text is an object. -/
  object : ∃ members, Value.parse text = .ok (.object members)
  /-- Of the members in the order of the text, the last one that is called `id` is the number. -/
  last : ∃ written, membersOf text = .ok written ∧ written.reverse.lookup "id" = some (.ofUInt64 n)

namespace Host

/-- The number that is made out in a text that is no envelope is that of its object, or zero. -/
theorem salvageId_eq {n : UInt64} (h : HasId text n) : salvageId text = n := by
  obtain ⟨-, written, hwritten, hlast⟩ := h
  have hvalue := parse_eq_object_iff.mpr ⟨written, hwritten, rfl⟩
  rw [salvageId, hvalue]
  show ((((sortMembers written).lookup "id").bind Value.toUInt64?).getD 0) = n
  rw [lookup_sortMembers, hlast, Option.bind_some, Value.toUInt64?_eq_some_iff.mpr rfl]
  rfl

theorem salvageId_eq_zero (h : ∀ n, ¬ HasId text n) : salvageId text = 0 := by
  rw [salvageId]
  cases hvalue : Value.parse text with
  | error e => rfl
  | ok v =>
    dsimp only
    cases hid : (v.get? "id").bind Value.toUInt64? with
    | none => rfl
    | some n =>
      obtain ⟨w, hget, hw⟩ := Option.bind_eq_some_iff.mp hid
      cases v with
      | object members =>
        obtain ⟨written, hwritten, rfl⟩ := parse_eq_object_iff.mp hvalue
        have hlast : (sortMembers written).lookup "id" = some w := hget
        rw [lookup_sortMembers, Value.toUInt64?_eq_some_iff.mp hw] at hlast
        exact absurd ⟨⟨_, hvalue⟩, written, hwritten, hlast⟩ (h n)
      | _ => cases hget

/-- Whatever the text is, the reply has the number of the envelope if the text is one, and the number of the object if it is
an object that has one. Where it is both, these are the same, and where it is neither, the number is zero. A text that is
no envelope is answered by an objection, and neither a handler nor the picker is called for it. -/
theorem id_echoed (h : Host σ) (text : String) (s : σ) :
    ∃ (reply : Reply) (s' : σ) (added : List Work), h.handleText text s = (reply.render, s') ∧
    (∀ before, h.noted.handleText text (before, s) = (reply.render, (added ++ before, s'))) ∧
    (∀ e, Envelope.parse text = .ok e → reply.id = e.id) ∧
    (∀ n, HasId text n → reply.id = n) ∧
    ((∀ e, Envelope.parse text ≠ .ok e) → (∀ n, ¬ HasId text n) → reply.id = 0) ∧
    ∀ err, Envelope.parse text = .error err →
      reply.payload = .error (.malformedMessage err.message) ∧ added = [] ∧ s' = s := by
  obtain ⟨added, hadded⟩ := h.noted_replyTo text s
  have hnoted : ∀ before, h.noted.handleText text (before, s)
      = ((h.replyTo text s).1.render, (added ++ before, (h.replyTo text s).2)) := by
    intro before
    rw [handleText, hadded before]
  refine ⟨(h.replyTo text s).1, (h.replyTo text s).2, added, rfl, hnoted, ?_⟩
  cases hparse : Envelope.parse text with
  | ok e =>
    have hid : (h.replyTo text s).1.id = e.id := by
      rw [replyTo, hparse]
      rfl
    refine ⟨?_, ?_, ?_, ?_⟩
    · rintro _ ⟨⟩
      exact hid
    · rintro n ⟨-, written, hwritten, hlast⟩
      -- the object has the number of the envelope
      rw [Envelope.lookup_id hparse hwritten] at hlast
      have hsame := Value.toUInt64?_eq_some_iff.mpr (Option.some.inj hlast)
      rw [Value.toUInt64?_eq_some_iff.mpr rfl] at hsame
      rw [hid, Option.some.inj hsame]
    · intro hnone
      exact absurd rfl (hnone e)
    · rintro err ⟨⟩
  | error err =>
    have hreply : h.replyTo text s = (⟨salvageId text, .error (.malformedMessage err.message)⟩, s) := by
      rw [replyTo, hparse]
    have hnothing : added = [] := by
      have hsame := hadded []
      rw [hreply, replyTo, hparse] at hsame
      simpa using hsame.symm
    rw [hreply]
    refine ⟨?_, ?_, ?_, ?_⟩
    · rintro e ⟨⟩
    · intro n hn
      exact salvageId_eq hn
    · intro _ hnone
      exact salvageId_eq_zero hnone
    · rintro _ ⟨⟩
      exact ⟨rfl, hnothing, rfl⟩

/-- Of two members `id` the last one counts. -/
example : salvageId "\x7b\"id\":1,\"id\":7\x7d" = 7 := by decide +kernel

end Host

end ShellHost
