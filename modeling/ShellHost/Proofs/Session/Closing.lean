import ShellHost.Proofs.Session.Delivery
import ShellHost.Proofs.Session.Serving

/-!
# Listening when the host is gone

When the host and the bus have been let go of, nothing is published any more (`HostGone.step_bus`). A listener is given
the events of its channel that it can still read, one after another, and none twice (`HostGone.run`). What it hears then
depends on content: as long as content has a bridge or a call in flight, there is nothing yet, and else the bus is closed,
once and for all (`subscription_after_host`). For a bridge is among those who could publish, though nobody who holds one
can.
-/

namespace ShellHost

open Json

/-! ## What a listener can still read -/

namespace EventBus

variable {b : EventBus} {l : Listener} {channel : String}

/-- The payloads of the events of a channel that a listener can still read. -/
def left (b : EventBus) (channel : String) (l : Listener) : List Value :=
  ((b.unread l).filter (·.channel = channel)).map (·.payload)

/-- Whoever has read some of the events that it can read, can read the others. -/
theorem unread_drop (b : EventBus) (l : Listener) (k : Nat) :
    b.unread ⟨(b.catchUp l).next + k⟩ = (b.unread l).drop k := by
  have hlength : (b.log.take (min (b.behind l) b.window)).length = min (b.behind l) b.window := by
    rw [List.length_take]
    unfold behind count
    omega
  have hbehind : min (b.behind ⟨(b.catchUp l).next + k⟩) b.window = min (b.behind l) b.window - k := by
    unfold behind catchUp
    dsimp only
    omega
  unfold unread
  rw [List.drop_reverse, hlength, List.take_take, hbehind]
  congr 2
  omega

/-- To ask for the next event takes the first of those that are left. -/
theorem poll_left (b : EventBus) (channel : String) (l : Listener) :
    (b.poll channel l).1 = (b.left channel l).head? ∧
      b.left channel (b.poll channel l).2 = (b.left channel l).tail := by
  set passed := (b.unread l).takeWhile (·.channel != channel) with hpassed
  have hother : passed.filter (·.channel = channel) = [] := by
    rw [List.filter_eq_nil_iff]
    intro e he
    have hne := List.mem_takeWhile_imp he
    simpa using hne
  have hsplit : passed ++ (b.unread l).dropWhile (·.channel != channel) = b.unread l := List.takeWhile_append_dropWhile
  unfold poll
  dsimp only
  rw [← hpassed]
  cases hrest : (b.unread l).dropWhile (·.channel != channel) with
  | nil =>
    rw [hrest, List.append_nil] at hsplit
    have hleft : b.left channel l = [] := by rw [left, ← hsplit, hother, List.map_nil]
    have hend : (b.unread l)[passed.length]? = none := by
      rw [← hsplit]
      exact List.getElem?_eq_none (Nat.le_refl _)
    rw [hend, hleft]
    refine ⟨rfl, ?_⟩
    dsimp only
    rw [left, unread_drop, ← hsplit, List.drop_length]
    rfl
  | cons e rest =>
    rw [hrest] at hsplit
    have hchannel : e.channel = channel := by
      have hhead := List.head?_dropWhile_not (fun e : Event => e.channel != channel) (b.unread l)
      simpa [hrest] using hhead
    have hleft : b.left channel l = e.payload :: (rest.filter (·.channel = channel)).map (·.payload) := by
      rw [left, ← hsplit, List.filter_append, hother, List.nil_append, List.filter_cons_of_pos (by simpa using hchannel)]
      rfl
    have hnext : (b.unread l)[passed.length]? = some e := by
      rw [← hsplit, List.getElem?_append_right (Nat.le_refl _), Nat.sub_self, List.getElem?_cons_zero]
    rw [hnext, hleft]
    refine ⟨rfl, ?_⟩
    dsimp only
    rw [left, Nat.add_assoc, unread_drop, ← hsplit, ← List.drop_drop, List.drop_left]
    rfl

end EventBus

/-- Whether a step asks for the next event of a listener. -/
def Step.asksFor {σ : Type} (name : String) : Step σ → Bool
  | .next other => other == name
  | _ => false

/-! ## Calls that have all ended -/

namespace Exchange

variable {x y : Exchange}

/-- No call is in flight. -/
def Idle (x : Exchange) : Prop := ∀ c ∈ x.calls, c.inFlight = false

theorem Idle.setStage (h : x.Idle) (n : Nat) (st : Stage) : x.setStage n st = x := by
  have hcalls : (x.calls.map fun c => if c.number = n then c.advance st else c) = x.calls := by
    conv_rhs => rw [← List.map_id x.calls]
    apply List.map_congr_left
    intro c hc
    rw [Call.advance_of_ended (h c hc), ite_self]
    rfl
  unfold Exchange.setStage
  rw [hcalls]

theorem Idle.refill (h : x.Idle) : x.refill.calls = x.calls := by
  unfold Exchange.refill
  split
  · rfl
  · rename_i f rest _
    have hmoved : Idle { x with queued := x.queued ++ [f], waiting := rest } := h
    rw [hmoved.setStage]
    split <;> rfl

theorem Idle.receive {f : Frame} (h : x.Idle) (hf : x.receive = some (f, y)) : y.calls = x.calls := by
  obtain ⟨rest, -, rfl⟩ := receive_eq_some_iff.mp hf
  have hpulled : Idle { x with queued := rest, received := f.number :: x.received } := h
  have hpull : x.pull f rest = { x with queued := rest, received := f.number :: x.received } := hpulled.setStage _ _
  rw [hpull, hpulled.refill]

theorem Idle.keep (h : x.Idle) (name : String) (f : Frame) : (x.keep name f).calls = x.calls := by
  unfold Exchange.keep
  split
  · rfl
  · rename_i old _
    have hdropped : x.finish old.number .dropped = x := h.setStage _ _
    rw [hdropped]

theorem Idle.giveBack (h : x.Idle) (name : String) (f : Frame) (e : Ending) : (x.giveBack name f e).2.calls = x.calls := by
  have hreturned : Idle { x with taken := unassign name x.taken } := h
  rw [Exchange.giveBack, Exchange.finish, hreturned.setStage]

theorem Idle.abandon (h : x.Idle) (n : Nat) : (x.abandon n).calls = x.calls := by
  unfold Exchange.abandon
  split
  · rename_i q p hcall
    have hended := h _ (mem_of_call? hcall)
    cases hended
  · rfl

theorem Idle.dropEndpoint (h : x.Idle) : x.dropEndpoint.calls = x.calls := by
  have hfinish : ∀ (fs : List Frame) (y : Exchange), y.Idle →
      fs.foldl (fun x f => x.finish f.number .dropped) y = y := by
    intro fs
    induction fs with
    | nil => exact fun _ _ => rfl
    | cons f fs ih =>
      intro y hy
      rw [List.foldl_cons, Exchange.finish, hy.setStage]
      exact ih y hy
  have hdropped : Idle { x with endpoint := .gone, queued := [], waiting := [] } := h
  rw [Exchange.dropEndpoint, hfinish _ _ hdropped]

end Exchange

namespace Session

open Exchange

variable {σ : Type} {s : Session σ} {p : Step σ} {qs : List (Step σ)} {name channel : String} {l : Listener}

/-! ## Steps without a host -/

/-- On the side of the host nobody is left: the host and the bus have been let go of, and no host serves. -/
structure HostGone (s : Session σ) : Prop where
  /-- The host is not held. -/
  host : s.hostHeld = false
  /-- The bus is not held. -/
  bus : s.busHeld = false
  /-- No host serves. -/
  endpoint : s.endpoint ≠ .serving

/-- Nobody gets the host or the bus back. -/
theorem HostGone.act_held (h : s.HostGone) (p : Step σ) : (s.act p).2.hostHeld = false ∧ (s.act p).2.busHeld = false := by
  by_cases habout : AboutEvents p
  · cases p with
    | dropHost => exact ⟨rfl, h.bus⟩
    | dropBus => exact ⟨h.host, rfl⟩
    | unsubscribe => exact ⟨h.host, h.bus⟩
    | emit | publish | listen | subscribe =>
      rw [act]
      split <;> exact ⟨h.host, h.bus⟩
    | next | receive =>
      rw [act]
      split
      · exact ⟨h.host, h.bus⟩
      · dsimp only
        split <;> exact ⟨h.host, h.bus⟩
    | _ => exact habout.elim
  · have hsame := act_sameEvents (s := s) habout
    exact ⟨hsame.hostHeld.trans h.host, hsame.busHeld.trans h.bus⟩

theorem HostGone.not_ready (h : s.HostGone) : ¬ (s.hostHeld ∧ s.endpoint = .held) := by
  rw [h.host]
  exact fun hheld => Bool.false_ne_true hheld.1

/-- A host that is not held does not begin to serve. -/
theorem HostGone.act_endpoint (h : s.HostGone) (p : Step σ) : (s.act p).2.endpoint ≠ .serving := by
  by_cases hserve : p = .serve
  · rw [hserve, Session.act, if_neg h.not_ready]
    exact h.endpoint
  by_cases hstop : p = .stopServing
  · rw [hstop, Session.act, if_neg h.endpoint]
    exact h.endpoint
  by_cases hdrop : p = .dropEndpoint
  · rw [hdrop, Session.act]
    dsimp only
    split
    · show s.dropEndpoint.endpoint ≠ .serving
      rw [dropEndpoint_eq]
      rintro ⟨⟩
    · exact h.endpoint
  · rw [act_endpoint_eq hserve hstop hdrop]
    exact h.endpoint

theorem HostGone.act (h : s.HostGone) (p : Step σ) : (s.act p).2.HostGone :=
  ⟨(h.act_held p).1, (h.act_held p).2, h.act_endpoint p⟩

/-- Nothing moves after a step. -/
theorem HostGone.step_eq (h : s.HostGone) (p : Step σ) : s.step p = s.act p := by
  show ((s.act p).1, (s.act p).2.settle) = s.act p
  rw [settle_of_ne (h.act p).endpoint]

theorem HostGone.step (h : s.HostGone) (p : Step σ) : (s.step p).2.HostGone := by
  rw [h.step_eq]
  exact h.act p

/-- Nothing is published. -/
theorem HostGone.step_bus (h : s.HostGone) (p : Step σ) : (s.step p).2.bus = s.bus := by
  have hnone : s.publishes p = [] := by
    cases p <;> simp [publishes, h.host, h.bus]
  rw [Session.step_bus, hnone]
  rfl

theorem HostGone.busOpen (h : s.HostGone) : s.busOpen = decide (0 < s.senders) := by
  simp [Session.busOpen, h.host, h.bus, h.endpoint]

/-! ## Content that has nothing left -/

theorem senders_eq_zero_iff : s.senders = 0 ↔ s.bridges = [] ∧ s.Idle := by
  unfold senders Idle
  rw [Nat.add_eq_zero_iff, List.length_eq_zero_iff, List.countP_eq_zero]
  simp

/-- Without a bridge, nothing is asked, and no bridge is made. -/
theorem HostGone.senders_act (h : s.HostGone) (hnone : s.senders = 0) (p : Step σ) : (s.act p).2.senders = 0 := by
  obtain ⟨hbridges, hidle⟩ := senders_eq_zero_iff.mp hnone
  have hsame : ∀ {t : Session σ}, t.bridges = s.bridges → t.calls = s.calls → t.senders = 0 := by
    intro t hb hc
    rw [senders, hb, hc]
    exact hnone
  have hinquire : ∀ q : Inquiry, s.inquire q = s := by
    intro q
    rw [inquire, hbridges]
    rfl
  cases p with
  | touch | isServing | dropHost | dropBus | unsubscribe => exact hnone
  | dispatch | dispatchMessage | dispatchTyped | route | handleText | emit | publish | listen | subscribe =>
    rw [Session.act]
    split <;> exact hnone
  | next | receive =>
    rw [Session.act]
    split
    · exact hnone
    · dsimp only
      split <;> exact hnone
  | clone | dropBridge =>
    rw [Session.act, hbridges]
    exact hnone
  | fetch name =>
    rw [Session.act]
    split
    · exact hnone
    · exact hnone
    · split <;> exact hnone
  | serve =>
    rw [Session.act, if_neg h.not_ready]
    exact hnone
  | stopServing =>
    rw [Session.act, if_neg h.endpoint]
    exact hnone
  | dropEndpoint =>
    rw [Session.act]
    dsimp only
    split
    · exact hsame rfl hidle.dropEndpoint
    · exact hnone
  | take name =>
    rw [Session.act]
    split
    · split
      · rename_i f y hf
        have hy : Idle y := by
          unfold Idle
          rw [hidle.receive hf]
          exact hidle
        exact hsame rfl ((hy.keep name f).trans (hidle.receive hf))
      · exact hnone
    · exact hnone
  | respond name text =>
    rw [Session.act]
    split
    · exact hnone
    · exact hsame rfl (hidle.giveBack name _ _)
  | discard name =>
    rw [Session.act]
    split
    · exact hnone
    · exact hsame rfl (hidle.giveBack name _ _)
  | reply name =>
    rw [Session.act]
    split
    · exact hnone
    · split
      · exact hsame rfl (hidle.giveBack name _ _)
      · exact hnone
  | ask qs =>
    have hall : qs.foldl inquire s = s := by
      induction qs with
      | nil => rfl
      | cons q qs ih => rw [List.foldl_cons, hinquire, ih]
    rw [act_ask, hall]
    exact hnone
  | cancel name =>
    rw [Session.act]
    split
    · exact hnone
    · exact hnone
    · exact hsame rfl (hidle.abandon _)

/-! ## Listening on -/

/-- The report of a listener that asks for its next event. -/
theorem report_next (h : s.subscriptions.lookup name = some ⟨channel, l⟩) :
    (s.step (.next name)).1 = match (s.bus.poll channel l).1 with
      | some v => .payload v
      | none => if s.busOpen then .pending else .closed := by
  simp only [step, act, h]
  rcases s.bus.poll channel l with ⟨_ | v, l'⟩ <;> rfl

/-- In each step that asks for an event, the listener takes the first of those that are left to it. -/
theorem HostGone.listener_step (h : s.HostGone) (hsub : s.subscriptions.lookup name = some ⟨channel, l⟩)
    (hp : p.Keeps name) :
    ∃ l', (s.step p).2.subscriptions.lookup name = some ⟨channel, l'⟩ ∧
      (s.step p).2.bus.left channel l' = (s.bus.left channel l).drop (if p.asksFor name then 1 else 0) := by
  rw [h.step_bus]
  by_cases hnext : p = .next name
  · subst hnext
    refine ⟨_, (step_next hsub).2.1, ?_⟩
    rw [(s.bus.poll_left channel l).2, Step.asksFor, beq_self_eq_true, if_pos rfl, List.drop_one]
  · have hother : p.asksFor name = false := by
      cases p with
      | next other =>
        have hne : other ≠ name := fun heq => hnext (heq ▸ rfl)
        exact beq_eq_false_iff_ne.mpr hne
      | _ => rfl
    refine ⟨l, (step_lookup hp hnext).trans hsub, ?_⟩
    rw [hother]
    rfl

/-- In a run, the listener takes as many of the events that are left to it as it asks for. -/
theorem HostGone.run (h : s.HostGone) (hsub : s.subscriptions.lookup name = some ⟨channel, l⟩)
    (hkeeps : ∀ q ∈ qs, q.Keeps name) :
    (s.run qs).2.HostGone ∧ ∃ l', (s.run qs).2.subscriptions.lookup name = some ⟨channel, l'⟩ ∧
      (s.run qs).2.bus.left channel l' = (s.bus.left channel l).drop (qs.countP (Step.asksFor name)) := by
  induction qs generalizing s l with
  | nil => exact ⟨h, l, hsub, rfl⟩
  | cons q qs ih =>
    obtain ⟨hq, hqs⟩ := List.forall_mem_cons.mp hkeeps
    obtain ⟨l₁, hsub₁, hleft₁⟩ := h.listener_step hsub hq
    obtain ⟨hgone, l', hsub', hleft'⟩ := ih (h.step q) hsub₁ hqs
    refine ⟨hgone, l', hsub', hleft'.trans ?_⟩
    rw [hleft₁, List.drop_drop, List.countP_cons, Nat.add_comm]

theorem HostGone.senders_run (h : s.HostGone) (hnone : s.senders = 0) (qs : List (Step σ)) :
    (s.run qs).2.senders = 0 := by
  induction qs generalizing s with
  | nil => exact hnone
  | cons q qs ih =>
    have hnone' : (s.step q).2.senders = 0 := by
      rw [h.step_eq]
      exact h.senders_act hnone q
    exact ih (h.step q) hnone'

/-- Whoever listens to a channel when host and bus have been let go of is given the events of the channel that it can still
read, in order, each time it asks. When it has them all, the bus is closed for it if content has neither a bridge nor a
call in flight, and it stays closed; as long as content has one, there is nothing to read yet. -/
theorem subscription_after_host (host : Host σ) (state : σ) (capacity eventCapacity : Nat) (ps qs : List (Step σ))
    (hgone : ((start host state capacity eventCapacity).run ps).2.HostGone)
    (hsub : ((start host state capacity eventCapacity).run ps).2.subscriptions.lookup name = some ⟨channel, l⟩)
    (hkeeps : ∀ q ∈ qs, q.Keeps name) :
    let s := ((start host state capacity eventCapacity).run ps).2
    let t := (s.run qs).2
    ((t.step (.next name)).1 = match (s.bus.left channel l)[qs.countP (Step.asksFor name)]? with
      | some v => .payload v
      | none => if t.senders = 0 then .closed else .pending) ∧
      (s.senders = 0 → t.senders = 0) := by
  intro s t
  obtain ⟨hgone', l', hsub', hleft⟩ := hgone.run hsub hkeeps
  refine ⟨?_, fun hnone => hgone.senders_run hnone qs⟩
  rw [report_next hsub', (EventBus.poll_left _ _ _).1, hleft, List.head?_drop]
  cases (s.bus.left channel l)[qs.countP (Step.asksFor name)]? with
  | some v => rfl
  | none =>
    have hopen : t.busOpen = decide (0 < t.senders) := hgone'.busOpen
    show (if t.busOpen = true then Report.pending else .closed) = if t.senders = 0 then .closed else .pending
    by_cases hnone : t.senders = 0
    · rw [hopen, hnone]
      rfl
    · rw [if_neg hnone, if_pos (hopen.trans (decide_eq_true (Nat.pos_of_ne_zero hnone)))]

/-- A run in which somebody listens, an event is published, and host and bus are let go of. -/
def leaveListener : List (Step Unit) :=
  [.listen "b" "l" "a", .publish [⟨"a", .string "last"⟩], .dropHost, .dropBus]

/-- Without a bridge, the listener hears the last event and then that the bus is closed. -/
theorem closed_after_host :
    let s := ((start panickingHost () 1 2).run (leaveListener ++ [.dropBridge "b"])).2
    (s.step (.next "l")).1 = .payload (.string "last") ∧ ((s.run [.next "l"]).2.step (.next "l")).1 = .closed := by
  let ps : List (Step Unit) := leaveListener ++ [.dropBridge "b"]
  have hgone : ((start panickingHost () 1 2).run ps).2.HostGone := ⟨rfl, rfl, by decide +kernel⟩
  have hsub : ((start panickingHost () 1 2).run ps).2.subscriptions.lookup "l" = some ⟨"a", ⟨0⟩⟩ := by decide +kernel
  have hnone : ((start panickingHost () 1 2).run ps).2.senders = 0 := by decide +kernel
  have hleft : ((start panickingHost () 1 2).run ps).2.bus.left "a" ⟨0⟩ = [.string "last"] := by with_unfolding_all rfl
  have hkeeps : ∀ q ∈ ([.next "l"] : List (Step Unit)), q.Keeps "l" := by simp [Step.Keeps]
  have hfirst := (subscription_after_host panickingHost () 1 2 ps [] hgone hsub (List.forall_mem_nil _)).1
  obtain ⟨hsecond, hstill⟩ := subscription_after_host panickingHost () 1 2 ps [.next "l"] hgone hsub hkeeps
  rw [hleft] at hfirst hsecond
  exact ⟨hfirst, hsecond.trans (if_pos (hstill hnone))⟩

/-- With a bridge, it waits for more, though nobody is left who could publish. -/
theorem pending_after_host :
    let s := ((start panickingHost () 1 2).run leaveListener).2
    s.HostGone ∧ (s.step (.next "l")).1 = .payload (.string "last") ∧
      ((s.run [.next "l"]).2.step (.next "l")).1 = .pending :=
  ⟨⟨rfl, rfl, by decide +kernel⟩, by with_unfolding_all rfl, by with_unfolding_all rfl⟩

end Session

end ShellHost
