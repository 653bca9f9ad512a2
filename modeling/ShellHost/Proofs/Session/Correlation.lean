import ShellHost.Proofs.Session.Runs

/-!
# Which call a reply goes to

A text that is sent back for an envelope ends the call that sent this envelope, once, and no other: the envelope carries
the slot of its call. What the text says decides only what the call comes to. A reply with the id of the call gives its
payload, and any other text gives a malformed message.
-/

namespace ShellHost

open Json Relation

variable {σ : Type}

/-! ## What a text says to a call -/

namespace Question

theorem replyOutcome_of_id {id : UInt64} {text : String} {r : Reply} (h : Reply.parse text = .ok r) (hid : r.id = id) :
    replyOutcome id text = r.payload := by
  simp [replyOutcome, h, hid]

theorem replyOutcome_of_ne {id : UInt64} {text : String} (h : ∀ r, Reply.parse text = .ok r → r.id ≠ id) :
    ∃ reason, replyOutcome id text = .error (.malformedMessage reason) := by
  unfold replyOutcome
  cases hr : Reply.parse text with
  | error e => exact ⟨_, rfl⟩
  | ok r =>
    simp only [if_neg (h r hr)]
    exact ⟨_, rfl⟩

end Question

/-- The answer of a call that a text came back to: the payload, if the text is a reply with the id of the call, and a
malformed message otherwise. -/
structure Call.AnsweredBy (c : Call) (text : String) (a : Answer) : Prop where
  /-- A reply with the id of the call gives its payload. -/
  payload : ∀ r, Reply.parse text = .ok r → r.id = c.id → a = c.question.ofOutcome r.payload
  /-- Any other text is malformed. -/
  malformed : (∀ r, Reply.parse text = .ok r → r.id ≠ c.id) →
    ∃ reason, a = c.question.failed (.malformedMessage reason)

theorem Call.answeredBy {c : Call} {text : String} (h : c.stage = .settled (.replied text)) :
    ∃ a, c.answer? = some a ∧ c.AnsweredBy text a := by
  refine ⟨c.question.readReply c.id text, by simp [answer?, h], fun r hr hid => ?_, fun hne => ?_⟩
  · rw [Question.readReply, Question.replyOutcome_of_id hr hid]
  · obtain ⟨reason, hreason⟩ := Question.replyOutcome_of_ne hne
    exact ⟨reason, by rw [Question.readReply, hreason, Question.ofOutcome]⟩

namespace Exchange

variable {x : Exchange} {f : Frame}

/-- The ids of fewer calls than there are ids are distinct. -/
theorem Ordered.nodup_ids (h : x.Ordered) (hlt : x.calls.length < UInt64.size) : (x.calls.map Call.id).Nodup := by
  have hmap : x.calls.map Call.id = (x.calls.map Call.number).map Nat.toUInt64 := by
    rw [List.map_map]
    rfl
  rw [hmap]
  refine List.Nodup.map_on (fun a ha b hb hab => ?_) h.nodup_numbers
  have ha' := (h.mem_numbers_iff.mp ha).2
  have hb' := (h.mem_numbers_iff.mp hb).2
  rw [h.next] at ha' hb'
  have hnat := congrArg UInt64.toNat hab
  simp only [Nat.toUInt64_eq, UInt64.toNat_ofNat', Nat.reducePow] at hnat
  rw [UInt64.size] at hlt
  omega

/-- The call of an envelope that was taken is in flight, or it was given up. -/
theorem Inv.call_of_taken {hand : List Frame} (h : x.Inv hand) {name : String} (hf : x.taken.lookup name = some f) :
    ∃ c, x.call? f.number = some c ∧ (c.stage = .flying .taken ∨ ∃ p, c.stage = .cancelled p) := by
  have hmem : f ∈ x.place hand .taken :=
    List.mem_append_right _ (List.mem_map_of_mem (f := Prod.snd) ((lookup_eq_some_iff h.out.names).mp hf))
  obtain ⟨c, hc, hat, -⟩ := h.placed.carried .taken f hmem
  refine ⟨c, hc, ?_⟩
  rcases hat with hst | ⟨hst, -⟩ | ⟨hst, -⟩
  · exact Or.inl hst
  · exact Or.inr ⟨_, hst⟩
  · exact Or.inr ⟨_, hst⟩

/-- A call that has ended does not notice what is sent back. -/
theorem Ordered.calls_setStage (h : x.Ordered) {n : Nat} {c : Call} (hc : x.call? n = some c)
    (hended : c.inFlight = false) (st : Stage) : (x.setStage n st).calls = x.calls := by
  have hstay : ∀ d ∈ x.calls, (if d.number = n then d.advance st else d) = d := by
    intro d hd
    split_ifs with hn
    · have hdc := h.call?_eq_some_iff.mpr ⟨hd, hn⟩
      obtain rfl : c = d := Option.some.inj (hc.symm.trans hdc)
      exact Call.advance_of_ended hended st
    · rfl
  exact (List.map_congr_left hstay).trans (List.map_id _)

theorem call?_giveBack (name : String) (e : Ending) {m : Nat} :
    (x.giveBack name f e).2.call? m
      = (x.call? m).map fun c => if m = f.number then c.advance (.settled e) else c :=
  call?_setStage _

end Exchange

namespace Session

open Exchange

variable {s : Session σ}

/-- A session at rest stays as it is, but for a host that has nobody left to serve. -/
theorem settle_of_rest (h : s.Rest) : s.settle = s ∨ s.settle = { s with endpoint := .gone } := by
  by_cases hserving : s.endpoint = .serving
  · obtain ⟨hq, hw⟩ := h hserving
    rw [settle_of_empty hserving hq hw]
    split
    · exact Or.inr rfl
    · exact Or.inl rfl
  · exact Or.inl (settle_of_ne hserving)

theorem settle_frame (h : s.Rest) :
    s.settle.calls = s.calls ∧ s.settle.taken = s.taken ∧ s.settle.queued = s.queued ∧ s.settle.waiting = s.waiting := by
  rcases settle_of_rest h with h | h <;> rw [h] <;> exact ⟨rfl, rfl, rfl, rfl⟩

/-- Sending a text back ends the call of the envelope, and leaves all else that was sent alone. -/
theorem step_respond (hrest : s.Rest) {name : String} {f : Frame} (hf : s.taken.lookup name = some f) (text : String) :
    (s.step (.respond name text)).1 = .responded (s.flying f.number) ∧
      (s.step (.respond name text)).2.calls = (s.giveBack name f (.replied text)).2.calls ∧
      (s.step (.respond name text)).2.taken = unassign name s.taken := by
  have hact : s.act (.respond name text) =
      (.responded (s.flying f.number), { s with toExchange := (s.giveBack name f (.replied text)).2 }) := by
    rw [act, hf]
    rfl
  have hrest' : Rest { s with toExchange := (s.giveBack name f (.replied text)).2 } := hrest
  obtain ⟨hcalls, htaken, -⟩ := settle_frame hrest'
  rw [step_eq hact]
  exact ⟨rfl, hcalls, htaken⟩

theorem call?_respond (hrest : s.Rest) {name : String} {f : Frame} (hf : s.taken.lookup name = some f) (text : String)
    (m : Nat) : (s.step (.respond name text)).2.call? m
      = (s.call? m).map fun c => if m = f.number then c.advance (.settled (.replied text)) else c := by
  obtain ⟨-, hcalls, -⟩ := step_respond hrest hf text
  rw [call?, hcalls]
  exact call?_giveBack name _

/-- A text that is sent back for an envelope whose call is in flight settles this call. -/
theorem respond_in_flight (hrest : s.Rest) {name : String} {f : Frame} (hf : s.taken.lookup name = some f) {c : Call}
    (hc : s.call? f.number = some c) (hfly : c.inFlight = true) (text : String) :
    (s.step (.respond name text)).1 = .responded true ∧
      (s.step (.respond name text)).2.call? f.number = some { c with stage := .settled (.replied text) } := by
  obtain ⟨hr, -, -⟩ := step_respond hrest hf text
  have hflying : s.flying f.number = true := by simp [flying, hc, hfly]
  have hadv : c.advance (.settled (.replied text)) = { c with stage := .settled (.replied text) } := by
    obtain ⟨p, hp⟩ := Stage.inFlight_iff.mp hfly
    simp [Call.advance, hp]
  refine ⟨by rw [hr, hflying], ?_⟩
  rw [call?_respond hrest hf, hc, Option.map_some, if_pos rfl, hadv]

/-- In every run, each call has an id of its own (while there are ids), every envelope is that of the call whose slot it
carries, and a text that is sent back for an envelope goes to this call and to no other. If the call is in flight, it
settles once and for all, by what the text says; if it was given up, nothing changes. -/
theorem reply_settles_its_call (host : Host σ) (state : σ) (capacity eventCapacity : Nat) (ps : List (Step σ)) :
    let s := ((start host state capacity eventCapacity).run ps).2
    (s.calls.length < UInt64.size → (s.calls.map Call.id).Nodup) ∧
    (∀ p, ∀ f ∈ s.place [] p, ∃ c e, s.call? f.number = some c ∧ c.envelope? = some e ∧ e.id = c.id ∧
      f.text = e.render) ∧
    ∀ name f text, s.taken.lookup name = some f →
      let r := (s.step (.respond name text)).1
      let s' := (s.step (.respond name text)).2
      ∃ c, s.call? f.number = some c ∧
        (∀ m, m ≠ f.number → s'.call? m = s.call? m) ∧
        (c.inFlight = true → r = .responded true ∧
          ∃ c' a, s'.call? f.number = some c' ∧ c'.question = c.question ∧ c'.answer? = some a ∧
            c.AnsweredBy text a ∧ ∀ qs, (s'.run qs).2.call? f.number = some c') ∧
        (c.inFlight = false → (∃ p, c.stage = .cancelled p) ∧ r = .responded false ∧ s'.calls = s.calls) := by
  intro s
  have hs : s.Sound := sound_run host state capacity eventCapacity ps
  have hrest : s.Rest := rest_run host state capacity eventCapacity ps
  refine ⟨hs.inv.ordered.nodup_ids, fun p f hf => ?_, fun name f text hf => ?_⟩
  · obtain ⟨c, hc, -, htext⟩ := hs.inv.placed.carried p f hf
    obtain ⟨e, he, hrender⟩ := Option.map_eq_some_iff.mp htext
    obtain ⟨v, -, rfl⟩ := Option.map_eq_some_iff.mp he
    exact ⟨c, _, hc, he, rfl, hrender.symm⟩
  · obtain ⟨c, hc, hst⟩ := hs.inv.call_of_taken hf
    refine ⟨c, hc, fun m hm => ?_, fun hfly => ?_, fun hended => ?_⟩
    · rw [call?_respond hrest hf]
      simp [hm]
    · obtain ⟨hr, hc'⟩ := respond_in_flight hrest hf hc hfly text
      have hsettled : ({ c with stage := .settled (.replied text) } : Call).stage = .settled (.replied text) := rfl
      obtain ⟨a, ha, hanswer⟩ := Call.answeredBy hsettled
      refine ⟨hr, _, a, hc', rfl, ha, ⟨hanswer.payload, hanswer.malformed⟩, fun qs => ?_⟩
      have hs' := sound_step hs (.respond name text)
      exact (run_moves hs' qs).ended hs' hc' rfl
    · obtain ⟨hr, hcalls, -⟩ := step_respond hrest hf text
      have hflying : s.flying f.number = false := by simp [flying, hc, hended]
      refine ⟨?_, by rw [hr, hflying], ?_⟩
      · rcases hst with hst | hst
        · rw [Call.inFlight, hst] at hended
          cases hended
        · exact hst
      · rw [hcalls]
        exact hs.inv.ordered.calls_setStage hc hended _

/-- Of two envelopes that were taken, one can be answered, and the caller of the other gave up. -/
theorem replies_of_two_taken :
    let s := ((start panickingHost () 8 8).run (askThrice ++ [.take "f", .cancel "second"])).2
    (s.calls.map Call.id).Nodup ∧ (s.step (.respond "e" "no reply")).1 = .responded true ∧
      (s.step (.respond "f" "no reply")).1 = .responded false := by
  intro s
  obtain ⟨hids, -, hreply⟩ := reply_settles_its_call panickingHost () 8 8 (askThrice ++ [.take "f", .cancel "second"])
  obtain ⟨c, hc, -, hflying, -⟩ := hreply "e" ⟨1, _⟩ "no reply" rfl
  obtain ⟨d, hd, -, -, hended⟩ := hreply "f" ⟨2, _⟩ "no reply" rfl
  obtain rfl := Option.some.inj hc
  obtain rfl := Option.some.inj hd
  exact ⟨hids (by decide), (hflying rfl).1, (hended rfl).2.1⟩

end Session

end ShellHost
