import ShellHost.Proofs.Session.Correlation

/-!
# No envelope is lost

Every call that was sent is at one stage, its envelope is at the place that goes with the stage, and the endpoint gets
the envelopes in the order in which they were sent. It passes over none but those that were given up before there was
room for them.
-/

namespace ShellHost

open Json Relation

variable {σ : Type}

namespace Exchange

variable {x y : Exchange} {f g : Frame} {n m : Nat}

theorem Move.capacity (hm : Move x y) : y.capacity = x.capacity := by
  cases hm with
  | send _ => rfl
  | take name _ hf => rw [(keep_line name _ _).2.2.1, (receive_frame hf).2.1]
  | answer text _ hf =>
    rw [Exchange.finish, setStage_capacity]
    exact (receive_frame hf).2.1
  | giveBack name e _ => rfl
  | abandon n =>
    unfold Exchange.abandon
    split <;> rfl
  | dropEndpoint => rw [dropEndpoint_eq]
  | serve _ => rfl
  | close _ _ _ => rfl

theorem Moves.capacity (hm : Moves x y) : y.capacity = x.capacity := by
  induction hm with
  | refl => rfl
  | tail _ hlast ih => rw [hlast.capacity, ih]

/-- No two envelopes that are somewhere have the same number. -/
theorem Inv.nodup_places (h : x.Inv []) :
    ((x.queued ++ x.waiting ++ x.taken.map Prod.snd).map Frame.number).Nodup := by
  rw [List.map_append, List.nodup_append]
  refine ⟨h.ordered.nodup_line, h.out.nodup, fun a ha b hb hab => ?_⟩
  obtain ⟨f, hf, rfl⟩ := List.mem_map.mp ha
  obtain ⟨g, hg, rfl⟩ := List.mem_map.mp hb
  exact h.out_ne_line hg hf hab.symm

/-! ## Giving up -/

theorem abandon_line (x : Exchange) (n : Nat) :
    (x.abandon n).queued = x.queued ∧ (x.waiting = [] → (x.abandon n).waiting = []) ∧
      (x.abandon n).endpoint = x.endpoint := by
  unfold abandon
  split
  · exact ⟨rfl, fun hw => by rw [setStage_waiting, hw]; rfl, rfl⟩
  · exact ⟨rfl, id, rfl⟩

theorem stage?_abandon {p : Location} (h : x.stage? n = some (.flying p)) :
    (x.abandon n).stage? n = some (.cancelled p) := by
  obtain ⟨⟨k, q, s⟩, hc, hst⟩ := Option.map_eq_some_iff.mp h
  obtain rfl : s = .flying p := hst
  have habandon : x.abandon n = { x with waiting := x.waiting.filter (·.number != n) }.setStage n (.cancelled p) := by
    rw [abandon, hc]
  have hstage : ({ x with waiting := x.waiting.filter (·.number != n) } : Exchange).stage? n = x.stage? n := rfl
  rw [habandon, stage?_setStage, hstage, h]
  simp

/-- An envelope that waits leaves its place when its call is given up, and no other does. -/
theorem Inv.abandon_waiting (h : x.Inv []) (n : Nat) :
    (x.abandon n).waiting = x.waiting.filter (·.number != n) := by
  unfold Exchange.abandon
  split
  · rfl
  · rename_i hne
    refine (List.filter_eq_self.mpr fun f hf => ?_).symm
    have hfn : f.number ≠ n := by
      rintro rfl
      obtain ⟨⟨k, q, s⟩, hc, hat, -⟩ := h.placed.carried .waiting f hf
      obtain rfl : s = .flying .waiting := Stage.at_waiting_iff.mp hat
      exact hne _ _ _ hc
    simpa using hfn

/-! ## What came out -/

/-- The place of an envelope, by the stage of its call. -/
def Accounted (x : Exchange) (c : Call) : Prop :=
  match c.stage with
  | .flying p => ∃ f ∈ x.place [] p, f.number = c.number
  | .settled _ => ∀ p, ∀ f ∈ x.place [] p, f.number ≠ c.number
  | .cancelled _ => ∀ f ∈ x.waiting, f.number ≠ c.number

theorem Inv.accounted (h : x.Inv []) {c : Call} (hc : c ∈ x.calls) : x.Accounted c := by
  have hcall : x.call? c.number = some c := h.ordered.call?_of_mem hc
  -- an envelope with the number of the call is where this call says it is
  have hat : ∀ p, ∀ f ∈ x.place [] p, f.number = c.number → c.stage.At p := by
    intro p f hf hn
    obtain ⟨d, hd, hat, -⟩ := h.placed.carried p f hf
    rw [hn, hcall] at hd
    exact Option.some.inj hd ▸ hat
  unfold Accounted
  cases hst : c.stage with
  | flying p => exact h.placed.located p c.number (by simp [stage?, hcall, hst])
  | settled e =>
    intro p f hf hn
    have := hat p f hf hn
    simp [Stage.At, hst] at this
  | cancelled q =>
    intro f hf hn
    have := hat .waiting f hf hn
    simp [Stage.at_waiting_iff, hst] at this

/-- What came out was preceded by all with a smaller number, but for those that were given up while they waited. -/
theorem Ordered.received_of_lt (h : x.Ordered) (hn : n ∈ x.received) (h0 : 0 < m) (hm : m < n) :
    m ∈ x.received ∨ x.stage? m = some (.cancelled .waiting) := by
  have hlt : n < x.nextNumber := h.history_lt n (List.mem_append_left _ (List.mem_reverse.mpr hn))
  rcases h.covered m h0 (Nat.lt_trans hm hlt) with hc | hc | ⟨-, hr⟩
  · rcases List.mem_append.mp hc with hc | hc
    · exact Or.inl (List.mem_reverse.mp hc)
    · obtain ⟨f, hf, rfl⟩ := List.mem_map.mp hc
      have := h.received_lt hn hf
      omega
  · exact Or.inr hc
  · have := hr n hn
    omega

end Exchange

namespace Session

open Exchange

variable {s : Session σ}

/-- Giving up a call takes no envelope out of the line. -/
theorem step_cancel (hrest : s.Rest) {name : String} {n : Nat} (hn : s.handles.lookup name = some (.call n)) :
    (s.step (.cancel name)).2.queued = s.queued ∧
      (s.step (.cancel name)).2.waiting = (s.abandon n).waiting ∧
      (s.step (.cancel name)).2.calls = (s.abandon n).calls := by
  have hact : s.act (.cancel name) =
      (.done, { s with toExchange := s.abandon n, handles := unassign name s.handles }) := by
    rw [act, hn]
  obtain ⟨hqueued, hwaiting, hend⟩ := s.abandon_line n
  have hrest' : Rest { s with toExchange := s.abandon n, handles := unassign name s.handles } := by
    intro hserving
    obtain ⟨hq, hw⟩ := hrest (hend ▸ hserving)
    exact ⟨hqueued.trans hq, hwaiting hw⟩
  obtain ⟨hcalls, -, hq, hw⟩ := settle_frame hrest'
  rw [step_eq hact]
  exact ⟨hq.trans hqueued, hw, hcalls⟩

/-- By hand, the first envelope of the line is taken. -/
theorem step_take {name : String} {f : Frame} {rest : List Frame} (hheld : s.endpoint = .held)
    (hq : s.queued = f :: rest) :
    (s.step (.take name)).1 = .envelope f.text ∧
      (s.step (.take name)).2.received = f.number :: s.received := by
  have hf : s.receive = some (f, (s.pull f rest).refill) := Exchange.receive_eq_some_iff.mpr ⟨rest, hq, rfl⟩
  have hact : s.act (.take name) =
      (.envelope f.text, { s with toExchange := ((s.pull f rest).refill).keep name f }) := by
    rw [act, if_pos hheld, hf]
  obtain ⟨-, -, -, hend, hreceived⟩ := Exchange.keep_line name f (s.pull f rest).refill
  obtain ⟨hend', -, hreceived', -⟩ := Exchange.receive_frame hf
  rw [step_eq hact, settle_of_ne]
  · exact ⟨rfl, hreceived.trans hreceived'⟩
  · rw [hend, hend', hheld]
    intro hserving
    cases hserving

/-- In every run, each number that was given out belongs to one call, whose stage says where its envelope is; no two
envelopes have the same number; the line holds no more than there is room for, and none waits while there is room; the
envelopes come out once each, in the order of their numbers, and none is passed over but those that were given up while
they waited. What is taken by hand is the first one of the line, and giving up a call takes nothing out of the line. -/
theorem envelopes_conserved (host : Host σ) (state : σ) (capacity eventCapacity : Nat) (ps : List (Step σ)) :
    let s := ((start host state capacity eventCapacity).run ps).2
    (∀ n, 0 < n → n < s.nextNumber → ∃! c, c ∈ s.calls ∧ c.number = n) ∧
    (∀ c ∈ s.calls, 0 < c.number ∧ c.number < s.nextNumber ∧ s.Accounted c) ∧
    ((s.queued ++ s.waiting ++ s.taken.map Prod.snd).map Frame.number).Nodup ∧
    s.queued.length ≤ max 1 capacity ∧ (s.waiting ≠ [] → s.queued.length = max 1 capacity) ∧
    s.received.reverse.Pairwise (· < ·) ∧
    (∀ n ∈ s.received, ∀ m, 0 < m → m < n → m ∈ s.received ∨ s.stage? m = some (.cancelled .waiting)) ∧
    (∀ name f rest, s.endpoint = .held → s.queued = f :: rest →
      (s.step (.take name)).1 = .envelope f.text ∧ (s.step (.take name)).2.received = f.number :: s.received) ∧
    ∀ name n, s.handles.lookup name = some (.call n) →
      (s.step (.cancel name)).2.queued = s.queued ∧
        (s.step (.cancel name)).2.waiting = s.waiting.filter (·.number != n) ∧
        ∀ p, s.stage? n = some (.flying p) → (s.step (.cancel name)).2.stage? n = some (.cancelled p) := by
  intro s
  have hs : s.Sound := sound_run host state capacity eventCapacity ps
  have hrest : s.Rest := rest_run host state capacity eventCapacity ps
  have ho := hs.inv.ordered
  have hcap : s.capacity = max 1 capacity :=
    (run_moves (sound_start host state capacity eventCapacity) ps).capacity
  refine ⟨fun n h0 hn => ?_, fun c hc => ?_, hs.inv.nodup_places, hcap ▸ hs.room.le, hcap ▸ hs.room.full,
    (List.pairwise_append.mp ho.order).1, fun n hn m h0 hm => ho.received_of_lt hn h0 hm,
    fun name f rest hheld hq => step_take hheld hq, fun name n hn => ?_⟩
  · obtain ⟨c, hc, hcn⟩ := List.mem_map.mp (ho.mem_numbers_iff.mpr ⟨h0, hn⟩)
    refine ⟨c, ⟨hc, hcn⟩, fun d hd => ?_⟩
    have hcc := ho.call?_eq_some_iff.mpr ⟨hc, hcn⟩
    have hdd := ho.call?_eq_some_iff.mpr hd
    exact Option.some.inj (hdd.symm.trans hcc)
  · obtain ⟨h0, hn⟩ := ho.mem_numbers_iff.mp (List.mem_map_of_mem hc)
    exact ⟨h0, hn, hs.inv.accounted hc⟩
  · obtain ⟨hq, hw, hcalls⟩ := step_cancel hrest hn
    refine ⟨hq, hw.trans (hs.inv.abandon_waiting n), fun p hp => ?_⟩
    have hstage : (s.step (.cancel name)).2.stage? n = (s.abandon n).stage? n := by
      simp only [stage?, call?, hcalls]
    rw [hstage]
    exact stage?_abandon hp

/-- In a line with room for one, the third envelope waits behind the second, until its call is given up. -/
theorem conserved_of_full_line :
    let s := ((start panickingHost () 1 8).run askThrice).2
    (∃! c, c ∈ s.calls ∧ c.number = 3) ∧ s.queued.length = 1 ∧
      (s.step (.take "f")).2.received = [2, 1] ∧ (s.step (.cancel "third")).2.waiting = [] ∧
      (s.step (.cancel "third")).2.stage? 3 = some (.cancelled .waiting) := by
  intro s
  obtain ⟨hcall, -, -, -, hfull, -, -, htake, hcancel⟩ := envelopes_conserved panickingHost () 1 8 askThrice
  obtain ⟨-, hwaiting, hstage⟩ := hcancel "third" 3 rfl
  exact ⟨hcall 3 (by decide) (by decide), hfull nofun, (htake "f" ⟨2, _⟩ [] rfl rfl).2, hwaiting,
    hstage .waiting rfl⟩

end Session

end ShellHost
