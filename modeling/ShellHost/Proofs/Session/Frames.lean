import ShellHost.Proofs.Session.Runs

/-!
# What a step leaves alone

Calls and events have little to do with each other. A step that is about calls leaves the bus alone, and those who
listen to it (`act_sameEvents`), and so does the serving host (`settle_sameEvents`). No step changes the host.
-/

namespace ShellHost.Session

variable {σ : Type} {s t u : Session σ}

/-- What two sessions share if what happens between them is about calls. -/
structure SameEvents (s t : Session σ) : Prop where
  /-- The host. -/
  host : t.host = s.host
  /-- Whether it is held. -/
  hostHeld : t.hostHeld = s.hostHeld
  /-- The bus. -/
  bus : t.bus = s.bus
  /-- Whether it is held. -/
  busHeld : t.busHeld = s.busHeld
  /-- Those who listen to one channel. -/
  subscriptions : t.subscriptions = s.subscriptions
  /-- Those who listen to all channels. -/
  listeners : t.listeners = s.listeners

theorem SameEvents.refl (s : Session σ) : SameEvents s s := ⟨rfl, rfl, rfl, rfl, rfl, rfl⟩

theorem SameEvents.trans (h : SameEvents s t) (h' : SameEvents t u) : SameEvents s u where
  host := h'.host.trans h.host
  hostHeld := h'.hostHeld.trans h.hostHeld
  bus := h'.bus.trans h.bus
  busHeld := h'.busHeld.trans h.busHeld
  subscriptions := h'.subscriptions.trans h.subscriptions
  listeners := h'.listeners.trans h.listeners

theorem SameEvents.audience (h : SameEvents s t) : t.audience = s.audience := by
  rw [Session.audience, h.subscriptions, h.listeners, Session.audience]

theorem serveAll_sameEvents (n : Nat) (s : Session σ) : SameEvents s (serveAll n s) := by
  induction n generalizing s with
  | zero => exact .refl s
  | succ n ih =>
    unfold serveAll
    split
    · exact .refl s
    · rename_i f x hreceive
      have hone : SameEvents s ({ s with toExchange := x }.serveOne f) := ⟨rfl, rfl, rfl, rfl, rfl, rfl⟩
      exact hone.trans (ih _)

theorem settle_sameEvents (s : Session σ) : SameEvents s s.settle := by
  have h := serveAll_sameEvents (s.queued.length + s.waiting.length) s
  unfold settle
  split
  · dsimp only
    split
    · exact ⟨h.host, h.hostHeld, h.bus, h.busHeld, h.subscriptions, h.listeners⟩
    · exact h
  · exact .refl s

theorem inquire_sameEvents (s : Session σ) (q : Inquiry) : SameEvents s (s.inquire q) := by
  unfold inquire
  split
  · unfold ask
    split <;> exact ⟨rfl, rfl, rfl, rfl, rfl, rfl⟩
  · exact .refl s

theorem foldl_inquire_sameEvents (qs : List Inquiry) (s : Session σ) : SameEvents s (qs.foldl inquire s) := by
  induction qs generalizing s with
  | nil => exact .refl s
  | cons q qs ih => exact (s.inquire_sameEvents q).trans (ih _)

/-- Steps that are about events, or let go of those who publish them. -/
def AboutEvents : Step σ → Prop
  | .emit _ | .dropHost | .listen _ _ _ | .next _ | .subscribe _ | .receive _ | .unsubscribe _ | .publish _
  | .dropBus => True
  | _ => False

theorem act_sameEvents {p : Step σ} (hp : ¬ AboutEvents p) : SameEvents s (s.act p).2 := by
  -- in every branch of these steps only the exchange, the handles, the bridges or the state of the handlers change
  cases p with
  | touch | isServing => exact ⟨rfl, rfl, rfl, rfl, rfl, rfl⟩
  | ask qs =>
    rw [act_ask]
    exact foldl_inquire_sameEvents qs s
  | serve =>
    rw [act]
    split
    · have hserve : SameEvents s { s with endpoint := .serving } := ⟨rfl, rfl, rfl, rfl, rfl, rfl⟩
      exact hserve.trans (settle_sameEvents _)
    · exact .refl s
  | dispatch | dispatchMessage | dispatchTyped | route | handleText | clone | dropBridge | respond | discard
  | cancel =>
    rw [act]
    split <;> exact ⟨rfl, rfl, rfl, rfl, rfl, rfl⟩
  | stopServing | dropEndpoint =>
    rw [act]
    dsimp only
    split <;> exact ⟨rfl, rfl, rfl, rfl, rfl, rfl⟩
  | take name =>
    rw [act]
    split
    · split <;> exact ⟨rfl, rfl, rfl, rfl, rfl, rfl⟩
    · exact .refl s
  | reply name =>
    rw [act]
    split
    · exact .refl s
    · split <;> exact ⟨rfl, rfl, rfl, rfl, rfl, rfl⟩
  | fetch name =>
    rw [act]
    split
    · exact .refl s
    · exact ⟨rfl, rfl, rfl, rfl, rfl, rfl⟩
    · split <;> exact ⟨rfl, rfl, rfl, rfl, rfl, rfl⟩
  | emit | dropHost | listen | next | subscribe | receive | unsubscribe | publish | dropBus => exact absurd trivial hp

/-! ## The host -/

theorem settle_host (s : Session σ) : s.settle.host = s.host := s.settle_sameEvents.host

/-- No step changes the host. -/
theorem act_host (s : Session σ) (p : Step σ) : (s.act p).2.host = s.host := by
  by_cases hp : AboutEvents p
  · cases p with
    | dropHost | unsubscribe | dropBus => rfl
    | emit | publish | listen | subscribe =>
      rw [act]
      split <;> rfl
    | next | receive =>
      rw [act]
      split
      · rfl
      · dsimp only
        split <;> rfl
    | _ => exact hp.elim
  · exact (act_sameEvents hp).host

end ShellHost.Session
