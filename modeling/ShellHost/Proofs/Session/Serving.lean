import ShellHost.Proofs.Session.Runs

/-!
# The serving host

A serving host takes the envelopes out of the line one by one, and answers each of them once before it takes the next
(`Answered`). Whatever an envelope says and whatever becomes of it, the host goes on: it only stops when nobody is left
who could send, or when it is stopped from outside.
-/

namespace ShellHost

open Json Relation

variable {σ : Type}

/-- An envelope that the serving host took out of the line, and its reply. -/
structure Turn where
  /-- The envelope. -/
  frame : Frame
  /-- The reply. -/
  reply : String
  deriving DecidableEq

/-- The turns of a host that handles each of some envelopes once, one after another, and the state behind them. -/
def Host.turns (h : Host σ) : List Frame → σ → List Turn × σ
  | [], s => ([], s)
  | f :: fs, s =>
    let (reply, s) := h.handleText f.text s
    let (ts, s) := h.turns fs s
    (⟨f, reply⟩ :: ts, s)

theorem Call.advance_advance_flying (c : Call) (p : Location) (st : Stage) :
    (c.advance (.flying p)).advance st = c.advance st := by
  obtain ⟨k, q, s⟩ := c
  cases s <;> rfl

namespace Exchange

variable {x y : Exchange} {f : Frame} {m : Nat}

/-! ## One envelope comes out -/

theorem call?_refill (x : Exchange) (m : Nat) :
    x.refill.call? m = x.call? m ∨ (m ∈ x.waiting.map Frame.number ∧
      x.refill.call? m = (x.call? m).map fun c => c.advance (.flying .queued)) := by
  unfold refill
  split
  · exact Or.inl rfl
  · rename_i g rest hw
    split
    · rw [call?_setStage]
      by_cases hm : m = g.number
      · refine Or.inr ⟨by simp [hw, hm], ?_⟩
        simp only [if_pos hm]
        rfl
      · refine Or.inl ?_
        simp only [if_neg hm, Option.map_id']
        rfl
    · exact Or.inl rfl

/-- When an envelope comes out, the calls in the line move on, and no other does. -/
theorem call?_receive (hf : x.receive = some (f, y)) (m : Nat) :
    y.call? m = x.call? m ∨ (m ∈ (x.queued ++ x.waiting).map Frame.number ∧
      ∃ p, y.call? m = (x.call? m).map fun c => c.advance (.flying p)) := by
  obtain ⟨rest, hq, rfl⟩ := receive_eq_some_iff.mp hf
  have hpull : (x.pull f rest).call? m
      = (x.call? m).map fun c => if m = f.number then c.advance (.flying .taken) else c := call?_setStage _
  have hwaiting : (x.pull f rest).waiting = x.waiting := rfl
  by_cases hm : m = f.number
  · have hline : m ∈ (x.queued ++ x.waiting).map Frame.number := by simp [hq, hm]
    simp only [if_pos hm] at hpull
    rcases call?_refill (x.pull f rest) m with hrefill | ⟨-, hrefill⟩
    · exact Or.inr ⟨hline, _, hrefill.trans hpull⟩
    · refine Or.inr ⟨hline, .queued, ?_⟩
      rw [hrefill, hpull, Option.map_map]
      congr 1
      funext c
      exact c.advance_advance_flying _ _
  · simp only [if_neg hm, Option.map_id'] at hpull
    rcases call?_refill (x.pull f rest) m with hrefill | ⟨hmem, hrefill⟩
    · exact Or.inl (hrefill.trans hpull)
    · rw [hwaiting] at hmem
      have hline : m ∈ (x.queued ++ x.waiting).map Frame.number := by
        rw [List.map_append]
        exact List.mem_append_right _ hmem
      exact Or.inr ⟨hline, .queued, by rw [hrefill, hpull]⟩

theorem call?_receive_advance (hf : x.receive = some (f, y)) (m : Nat) (st : Stage) :
    (y.call? m).map (fun c => c.advance st) = (x.call? m).map fun c => c.advance st := by
  rcases call?_receive hf m with hy | ⟨-, p, hy⟩
  · rw [hy]
  · rw [hy, Option.map_map]
    congr 1
    funext c
    exact c.advance_advance_flying _ _

theorem abandon_endpoint (x : Exchange) (n : Nat) : (x.abandon n).endpoint = x.endpoint := by
  unfold abandon
  split <;> rfl

/-- What came out of the line stays on record. -/
theorem Move.received (hm : Move x y) : x.received <:+ y.received := by
  cases hm with
  | send _ => exact List.suffix_refl _
  | take name _ hf =>
    rw [(keep_line name _ _).2.2.2.2, (receive_frame hf).2.2.1]
    exact List.suffix_cons _ _
  | answer text _ hf =>
    rw [Exchange.finish, setStage_received, (receive_frame hf).2.2.1]
    exact List.suffix_cons _ _
  | giveBack name e _ => exact List.suffix_refl _
  | abandon n =>
    unfold Exchange.abandon
    split <;> exact List.suffix_refl _
  | dropEndpoint =>
    have hreceived : x.dropEndpoint.received = x.received := by rw [dropEndpoint_eq]
    exact hreceived ▸ List.suffix_refl _
  | serve _ => exact List.suffix_refl _
  | close _ _ _ => exact List.suffix_refl _

theorem Moves.received (hm : Moves x y) : x.received <:+ y.received := by
  induction hm with
  | refl => exact List.suffix_refl _
  | tail _ hlast ih => exact ih.trans hlast.received

end Exchange

namespace Session

open Exchange

variable {s s' : Session σ} {p : Step σ}

/-! ## One round of the loop -/

/-- The loop has answered all that stood in the line of `s`, and then the session is `s'`. -/
structure Answered (s s' : Session σ) (ts : List Turn) : Prop where
  /-- Each envelope of the line had its turn, in the order of the line. -/
  frames : ts.map Turn.frame = s.queued ++ s.waiting
  /-- These are the envelopes that came out of the line. -/
  received : s'.received = (ts.map fun t => t.frame.number).reverse ++ s.received
  /-- The host handled each of them once, in this order, and nothing else. -/
  handled : s.host.turns (s.queued ++ s.waiting) s.state = (ts, s'.state)
  /-- The reply went to the call of the envelope, and ended it if it was in flight. -/
  responded : ∀ t ∈ ts,
    s'.call? t.frame.number = (s.call? t.frame.number).map fun c => c.advance (.settled (.replied t.reply))
  /-- No other call was touched. -/
  others : ∀ m, (∀ t ∈ ts, t.frame.number ≠ m) → s'.call? m = s.call? m
  /-- The line is empty. -/
  drained : s'.queued = [] ∧ s'.waiting = []

theorem answered_of_empty (hq : s.queued = []) (hw : s.waiting = []) : Answered s s [] where
  frames := by simp [hq, hw]
  received := rfl
  handled := by
    rw [hq, hw]
    rfl
  responded := fun t ht => absurd ht List.not_mem_nil
  others := fun m _ => rfl
  drained := ⟨hq, hw⟩

/-- The loop answers an envelope and then the rest of the line, if no two envelopes belong to the same call. -/
theorem Answered.cons {f : Frame} {y : Exchange} {ts : List Turn}
    (hnodup : ((s.queued ++ s.waiting).map Frame.number).Nodup) (hf : s.receive = some (f, y))
    (h : Answered ({ s with toExchange := y }.serveOne f) s' ts) :
    Answered s s' (⟨f, (s.host.handleText f.text s.state).1⟩ :: ts) := by
  have hline := receive_line hf
  -- the envelope that came out is none of those that are left
  rw [hline, List.map_cons, List.nodup_cons] at hnodup
  have hframes : ts.map Turn.frame = y.queued ++ y.waiting := h.frames
  have hnew : ∀ t ∈ ts, t.frame.number ≠ f.number := by
    intro t ht heq
    refine hnodup.1 ?_
    rw [← heq, ← hframes]
    exact List.mem_map_of_mem (List.mem_map_of_mem ht)
  have hcall : ∀ m, ({ s with toExchange := y }.serveOne f).call? m
      = (y.call? m).map fun c =>
          if m = f.number then c.advance (.settled (.replied (s.host.handleText f.text s.state).1)) else c :=
    fun m => call?_setStage _
  refine ⟨by rw [List.map_cons, hframes, hline], ?_, ?_, ?_, ?_, h.drained⟩
  · have hreceived : s'.received = (ts.map fun t => t.frame.number).reverse ++ y.received := h.received
    rw [hreceived, (receive_frame hf).2.2.1]
    simp
  · have hhandled : s.host.turns (y.queued ++ y.waiting) (s.host.handleText f.text s.state).2 = (ts, s'.state) :=
      h.handled
    rw [hline, Host.turns]
    dsimp only
    rw [hhandled]
  · intro t ht
    rcases List.mem_cons.mp ht with rfl | ht
    · rw [h.others _ hnew, hcall]
      simp only [if_true]
      exact call?_receive_advance hf _ _
    · rw [h.responded t ht, hcall]
      simp only [if_neg (hnew t ht), Option.map_id']
      exact call?_receive_advance hf _ _
  · intro m hm
    have hmf : m ≠ f.number := fun heq => hm _ List.mem_cons_self heq.symm
    rw [h.others m fun t ht => hm t (List.mem_cons_of_mem _ ht), hcall]
    simp only [if_neg hmf, Option.map_id']
    rcases call?_receive hf m with hy | ⟨hmem, -⟩
    · exact hy
    · refine absurd hmem ?_
      rw [hline, List.map_cons, List.mem_cons, ← hframes, List.map_map]
      rintro (heq | hmem)
      · exact hmf heq
      · obtain ⟨t, ht, heq⟩ := List.mem_map.mp hmem
        exact hm t (List.mem_cons_of_mem _ ht) heq

/-- The loop answers all of a line in which no two envelopes belong to the same call. -/
theorem serveAll_answered (n : Nat) (s : Session σ) (hroom : s.Room)
    (hnodup : ((s.queued ++ s.waiting).map Frame.number).Nodup) (hn : s.queued.length + s.waiting.length ≤ n) :
    Answered s (serveAll n s) (s.host.turns (s.queued ++ s.waiting) s.state).1 := by
  induction n generalizing s with
  | zero =>
    have hq : s.queued = [] := List.eq_nil_of_length_eq_zero (by omega)
    have hw : s.waiting = [] := List.eq_nil_of_length_eq_zero (by omega)
    have hempty := answered_of_empty hq hw
    rwa [hempty.handled]
  | succ n ih =>
    unfold serveAll
    cases hf : s.receive with
    | none =>
      obtain ⟨hq, hw⟩ := receive_eq_none hroom hf
      have hempty := answered_of_empty hq hw
      rwa [hempty.handled]
    | some fy =>
      obtain ⟨f, y⟩ := fy
      have hlen := receive_length hf
      have hline := receive_line hf
      have hroom' : y.Room := by
        obtain ⟨rest, hq, rfl⟩ := receive_eq_some_iff.mp hf
        exact hroom.receive hq
      have hnodup' : ((y.queued ++ y.waiting).map Frame.number).Nodup := by
        rw [hline, List.map_cons] at hnodup
        exact hnodup.of_cons
      have hrest := ih ({ s with toExchange := y }.serveOne f) ⟨hroom'.le, hroom'.full⟩ hnodup' (by
        show y.queued.length + y.waiting.length ≤ n
        omega)
      have hcons := hrest.cons hnodup hf
      rwa [hcons.handled]

/-! ## The end of the loop -/

theorem senders_pos_iff (s : Session σ) : 0 < s.senders ↔ s.bridges ≠ [] ∨ ∃ c ∈ s.calls, c.inFlight = true := by
  rw [senders, Nat.add_pos_iff_pos_or_pos, List.length_pos_iff, List.countP_pos_iff]

theorem answered_settle (hroom : s.Room) (hnodup : ((s.queued ++ s.waiting).map Frame.number).Nodup)
    (hserving : s.endpoint = .serving) : Answered s s.settle (s.host.turns (s.queued ++ s.waiting) s.state).1 := by
  have h := serveAll_answered _ s hroom hnodup (Nat.le_refl _)
  unfold settle
  rw [if_pos hserving]
  dsimp only
  split
  · exact ⟨h.frames, h.received, h.handled, h.responded, h.others, h.drained⟩
  · exact h

/-- When all is answered, the loop goes on if somebody is left who could send. -/
theorem settle_endpoint (hs : s.Sound) (hserving : s.endpoint = .serving) :
    s.settle.endpoint = .serving ↔ 0 < s.settle.senders := by
  obtain ⟨-, hend, -⟩ := serveAll_moves _ s hs hserving (Nat.le_refl _)
  unfold settle
  rw [if_pos hserving]
  dsimp only
  split
  · rename_i hnone
    constructor
    · intro h
      cases h
    · intro h
      have : 0 < (serveAll (s.queued.length + s.waiting.length) s).senders := h
      omega
  · rename_i hsome
    exact ⟨fun _ => Nat.pos_of_ne_zero hsome, fun _ => hend⟩

theorem settle_settle (hs : s.Sound) : s.settle.settle = s.settle := by
  by_cases hserving : s.endpoint = .serving
  · by_cases hstill : s.settle.endpoint = .serving
    · obtain ⟨hq, hw⟩ := rest_settle hs hstill
      have hpos := (settle_endpoint hs hserving).mp hstill
      rw [settle_of_empty hstill hq hw]
      exact if_neg (Nat.ne_of_gt hpos)
    · exact settle_of_ne hstill
  · rw [settle_of_ne hserving, settle_of_ne hserving]

/-! ## Steps -/

/-- The exchange whose endpoint serves. -/
def served (x : Exchange) : Exchange := { x with endpoint := .serving }

/-- The session after what a step does by itself, before the loop moves. -/
def ready (s : Session σ) : Step σ → Session σ
  | .serve => if s.hostHeld ∧ s.endpoint = .held then { s with toExchange := served s.toExchange } else s
  | p => (s.act p).2

theorem ready_moves (hs : s.Sound) (p : Step σ) : Moves s.toExchange (s.ready p).toExchange := by
  cases p with
  | serve =>
    rw [ready]
    split
    · rename_i h
      exact .single (.serve h.2)
    · exact .refl
  | _ => exact act_moves hs _

theorem step_eq_settle (hs : s.Sound) (p : Step σ) : (s.step p).2 = (s.ready p).settle := by
  cases p with
  | serve =>
    show (s.act .serve).2.settle = _
    rw [act, ready]
    split
    · rename_i h
      have hserve : ({ s with endpoint := .serving } : Session σ).Sound := (Move.serve h.2).sound hs
      exact settle_settle hserve
    · rfl
  | _ => rfl

/-- The endpoint is moved by three steps only. -/
theorem act_endpoint_eq (hserve : p ≠ .serve) (hstop : p ≠ .stopServing) (hdrop : p ≠ .dropEndpoint) :
    (s.act p).2.endpoint = s.endpoint := by
  by_cases hquiet : Quiet p
  · rw [act_quiet hquiet]
  cases p with
  | serve => exact absurd rfl hserve
  | stopServing => exact absurd rfl hstop
  | dropEndpoint => exact absurd rfl hdrop
  | take name =>
    rw [act]
    split
    · split
      · rename_i f y hf
        show (y.keep name f).endpoint = s.endpoint
        rw [(keep_line name f y).2.2.2.1, (receive_frame hf).1]
      · rfl
    · rfl
  | respond | discard =>
    rw [act]
    split <;> rfl
  | reply name =>
    rw [act]
    split
    · rfl
    · split <;> rfl
  | ask qs => rw [act_ask, foldl_inquire_endpoint]
  | cancel name =>
    rw [act]
    split
    · rfl
    · rfl
    · exact abandon_endpoint _ _
  | _ => exact absurd trivial hquiet

/-- By itself no step ends the loop but the one that stops it. -/
theorem act_endpoint (hserving : s.endpoint = .serving) (hp : p ≠ .stopServing) (hserve : p ≠ .serve) :
    (s.act p).2.endpoint = .serving := by
  by_cases hdrop : p = .dropEndpoint
  · have hheld : s.endpoint ≠ .held := by
      rw [hserving]
      exact nofun
    rw [hdrop, act, if_neg hheld]
    exact hserving
  · exact (act_endpoint_eq hserve hp hdrop).trans hserving

/-- Nothing but stopping it ends the loop before it has answered all that has come. -/
theorem ready_endpoint (hserving : s.endpoint = .serving) (p : Step σ) :
    (s.ready p).endpoint = .serving ↔ p ≠ .stopServing := by
  have hheld : s.endpoint ≠ .held := by
    rw [hserving]
    exact nofun
  cases p with
  | serve =>
    rw [ready, if_neg fun h => hheld h.2]
    exact ⟨fun _ => by simp, fun _ => hserving⟩
  | stopServing =>
    rw [ready, act, if_pos hserving]
    · refine ⟨fun h => ?_, fun h => absurd rfl h⟩
      have hgone : s.dropEndpoint.endpoint = .serving := h
      rw [dropEndpoint_eq] at hgone
      cases hgone
    · simp
  | _ => exact ⟨fun _ => by simp, fun hp => act_endpoint hserving hp (by simp)⟩

/-- The turns of the loop in one step. -/
def loopTurns (s : Session σ) (p : Step σ) : List Turn :=
  let r := s.ready p
  if r.endpoint = .serving then (r.host.turns (r.queued ++ r.waiting) r.state).1 else []

/-- In a step the loop answers all that stands in the line. -/
theorem answered_step (hs : s.Sound) (hserving : (s.ready p).endpoint = .serving) :
    Answered (s.ready p) (s.step p).2 (s.loopTurns p) := by
  have hready : (s.ready p).Sound := (ready_moves hs p).sound hs
  rw [step_eq_settle hs, loopTurns, if_pos hserving]
  exact answered_settle hready.room hready.inv.ordered.nodup_line hserving

/-- A loop that runs goes on in a step, unless it is stopped, as long as somebody is left who could send. -/
theorem step_endpoint (hs : s.Sound) (hserving : s.endpoint = .serving ∨ (s.ready p).endpoint = .serving) :
    (s.step p).2.endpoint = .serving ↔
      p ≠ .stopServing ∧ ((s.step p).2.bridges ≠ [] ∨ ∃ c ∈ (s.step p).2.calls, c.inFlight = true) := by
  have hs' : (s.ready p).Sound := (ready_moves hs p).sound hs
  rw [← senders_pos_iff, step_eq_settle hs]
  by_cases hready : (s.ready p).endpoint = .serving
  · rw [settle_endpoint hs' hready]
    refine ⟨fun h => ⟨?_, h⟩, fun h => h.2⟩
    rintro rfl
    have hstop : (s.ready .stopServing).endpoint ≠ .serving := by
      by_cases h : s.endpoint = .serving
      · exact fun hend => (ready_endpoint h .stopServing).mp hend rfl
      · rwa [ready, act, if_neg h]
        simp
    exact hstop hready
  · rw [settle_of_ne hready]
    have hrun : s.endpoint = .serving := hserving.resolve_right hready
    refine ⟨fun h => absurd h hready, fun h => absurd ((ready_endpoint hrun p).mpr h.1) hready⟩

/-! ## Runs -/

/-- The turns of the loop in a run. -/
def loopHistory : Session σ → List (Step σ) → List Turn
  | _, [] => []
  | s, p :: ps => s.loopTurns p ++ (s.step p).2.loopHistory ps

/-- What came out of the line in a step, the envelopes that the loop answered last. -/
theorem received_step (hs : s.Sound) (p : Step σ) :
    ∃ l, (s.step p).2.received = l ++ s.received ∧
      ((s.loopTurns p).map fun t => t.frame.number).Sublist l.reverse := by
  obtain ⟨k, hk⟩ := Moves.received (ready_moves hs p)
  by_cases hserving : (s.ready p).endpoint = .serving
  · have hreceived := (answered_step hs hserving).received
    rw [← hk, ← List.append_assoc] at hreceived
    refine ⟨_, hreceived, ?_⟩
    rw [List.reverse_append, List.reverse_reverse]
    exact List.sublist_append_right _ _
  · rw [step_eq_settle hs, settle_of_ne hserving, loopTurns, if_neg hserving]
    exact ⟨k, hk.symm, List.nil_sublist _⟩

theorem received_run (hs : s.Sound) (ps : List (Step σ)) :
    ∃ l, (s.run ps).2.received = l ++ s.received ∧
      ((s.loopHistory ps).map fun t => t.frame.number).Sublist l.reverse := by
  induction ps generalizing s with
  | nil => exact ⟨[], rfl, List.Sublist.refl _⟩
  | cons p ps ih =>
    obtain ⟨l, hl, hturns⟩ := received_step hs p
    obtain ⟨k, hk, hrest⟩ := ih (sound_step hs p)
    refine ⟨k ++ l, ?_, ?_⟩
    · have hrun : (s.run (p :: ps)).2 = ((s.step p).2.run ps).2 := rfl
      rw [hrun, hk, hl, List.append_assoc]
    · rw [loopHistory, List.map_append, List.reverse_append]
      exact hturns.append hrest

theorem carries_of_line (hs : s.Sound) {f : Frame} (hf : f ∈ s.queued ++ s.waiting) : ∃ p, s.Carries f p := by
  rcases List.mem_append.mp hf with hq | hw
  · exact ⟨.queued, hs.inv.placed.carried .queued _ hq⟩
  · exact ⟨.waiting, hs.inv.placed.carried .waiting _ hw⟩

/-- A call whose envelope the loop answered has the reply, unless it was given up. -/
theorem Answered.settled {ts : List Turn} (h : Answered s s' ts) (hs : s.Sound) {t : Turn} (ht : t ∈ ts) :
    ∃ c, s'.call? t.frame.number = some c ∧ (c.stage = .settled (.replied t.reply) ∨ ∃ p, c.stage = .cancelled p) := by
  have hline : t.frame ∈ s.queued ++ s.waiting := h.frames ▸ List.mem_map_of_mem ht
  obtain ⟨p, c, hc, hat, -⟩ := carries_of_line hs hline
  refine ⟨_, by rw [h.responded t ht, hc, Option.map_some], ?_⟩
  rcases hat with hst | ⟨hst, -⟩ | ⟨hst, -⟩
  · exact Or.inl (by simp [Call.advance, hst])
  · exact Or.inr ⟨p, by simp [Call.advance, hst]⟩
  · exact Or.inr ⟨.queued, by simp [Call.advance, hst]⟩

theorem settled_of_loopHistory (hs : s.Sound) (ps : List (Step σ)) {t : Turn} (ht : t ∈ s.loopHistory ps) :
    ∃ c, (s.run ps).2.call? t.frame.number = some c ∧
      (c.stage = .settled (.replied t.reply) ∨ ∃ p, c.stage = .cancelled p) := by
  induction ps generalizing s with
  | nil => exact absurd ht List.not_mem_nil
  | cons p ps ih =>
    rcases List.mem_append.mp ht with ht | ht
    · have hserving : (s.ready p).endpoint = .serving := by
        by_contra hne
        rw [loopTurns, if_neg hne] at ht
        exact absurd ht List.not_mem_nil
      obtain ⟨c, hc, hst⟩ := (answered_step hs hserving).settled ((ready_moves hs p).sound hs) ht
      have hended : c.inFlight = false := by
        rcases hst with hst | ⟨q, hst⟩ <;> rw [Call.inFlight, hst] <;> rfl
      exact ⟨c, (run_moves (sound_step hs p) ps).ended (sound_step hs p) hc hended, hst⟩
    · exact ih (sound_step hs p) ht

/-- Nothing waits for the loop: the line is empty, and every call has ended but those whose envelope is in somebody's
hands. -/
structure Drained (s : Session σ) : Prop where
  /-- Nothing is in the line. -/
  queued : s.queued = []
  /-- Nothing waits for room. -/
  waiting : s.waiting = []
  /-- Calls have ended, or their envelope was taken by hand. -/
  settled : ∀ c ∈ s.calls, (∃ e, c.stage = .settled e) ∨ (∃ p, c.stage = .cancelled p) ∨
    ∃ name f, s.taken.lookup name = some f ∧ f.number = c.number

/-- What the loop does in one step of a session. -/
structure LoopStep (s : Session σ) (p : Step σ) : Prop where
  /-- A loop that runs answers all that stands in the line, be it there before or sent in this step. -/
  answered : (s.ready p).endpoint = .serving → Answered (s.ready p) (s.step p).2 (s.loopTurns p)
  /-- A loop that runs, or begins to, goes on exactly if it is not stopped and somebody is left who could send: a bridge
  or a call in flight. -/
  goes_on : s.endpoint = .serving ∨ (s.ready p).endpoint = .serving →
    ((s.step p).2.endpoint = .serving ↔
      p ≠ .stopServing ∧ ((s.step p).2.bridges ≠ [] ∨ ∃ c ∈ (s.step p).2.calls, c.inFlight = true))

theorem drained_of_rest (hs : s.Sound) (hrest : s.Rest) (hserving : s.endpoint = .serving) : s.Drained := by
  obtain ⟨hq, hw⟩ := hrest hserving
  refine ⟨hq, hw, fun c hc => ?_⟩
  cases hst : c.stage with
  | flying p =>
    have hfly : c.inFlight = true := by rw [Call.inFlight, hst, Stage.inFlight_flying]
    exact Or.inr (Or.inr (taken_of_empty hs hq hw hc hfly))
  | settled e => exact Or.inl ⟨e, rfl⟩
  | cancelled p => exact Or.inr (Or.inl ⟨p, rfl⟩)

/-- However the handlers and the picker of the host behave: when a session at rest is served, nothing waits for the loop.
In every run the loop answers the envelopes that it takes out of the line in their order, and none of them twice; each
call has the reply of its turn, or was given up. And the loop goes on until it is stopped or nobody is left who could
send. -/
theorem serving_host_drains (host : Host σ) (state : σ) (capacity eventCapacity : Nat) (ps : List (Step σ)) :
    let s₀ := start host state capacity eventCapacity
    let s := (s₀.run ps).2
    (s.endpoint = .serving → s.Drained) ∧
    ((s₀.loopHistory ps).map fun t => t.frame.number).Sublist s.received.reverse ∧
    ((s₀.loopHistory ps).map fun t => t.frame.number).Pairwise (· < ·) ∧
    (∀ t ∈ s₀.loopHistory ps, ∃ c, s.call? t.frame.number = some c ∧
      (c.stage = .settled (.replied t.reply) ∨ ∃ p, c.stage = .cancelled p)) ∧
    ∀ p, s.LoopStep p := by
  intro s₀ s
  have hs₀ : s₀.Sound := sound_start host state capacity eventCapacity
  have hs : s.Sound := sound_run host state capacity eventCapacity ps
  have hrest : s.Rest := rest_run host state capacity eventCapacity ps
  obtain ⟨l, hl, hsub⟩ := received_run hs₀ ps
  have hreceived : s.received = l := hl.trans (List.append_nil l)
  have hhistory : ((s₀.loopHistory ps).map fun t => t.frame.number).Sublist s.received.reverse := hreceived ▸ hsub
  have horder : s.received.reverse.Pairwise (· < ·) := (List.pairwise_append.mp hs.inv.ordered.order).1
  exact ⟨drained_of_rest hs hrest, hhistory, horder.sublist hhistory, fun t ht => settled_of_loopHistory hs₀ ps ht,
    fun p => ⟨answered_step hs, step_endpoint hs⟩⟩

/-- A session whose host panics in its handlers, and serves while an envelope is in somebody's hands. -/
def servedByHand : Session Unit :=
  ((start panickingHost () 8 8).run [.ask [⟨"first", "b", .raw "add" .null⟩], .take "e", .serve]).2

/-- The loop answers a further question, and it goes on when the only bridge is gone, since the first call is still in
flight. -/
theorem drained_of_panics :
    let second : Step Unit := .ask [⟨"second", "b", .raw "add" .null⟩]
    servedByHand.queued = [] ∧ (servedByHand.loopTurns second).map (fun t => t.frame.number) = [2] ∧
      (servedByHand.step (.dropBridge "b")).2.endpoint = .serving := by
  intro second
  obtain ⟨hrest, -, -, -, hstep⟩ :=
    serving_host_drains panickingHost () 8 8 [.ask [⟨"first", "b", .raw "add" .null⟩], .take "e", .serve]
  have hserving : servedByHand.endpoint = .serving := by decide +kernel
  have hdrained : servedByHand.Drained := hrest hserving
  have hready : (servedByHand.ready second).endpoint = .serving := by decide +kernel
  have hline : ((servedByHand.ready second).queued ++ (servedByHand.ready second).waiting).map Frame.number = [2] := by
    decide +kernel
  have hsecond : servedByHand.LoopStep second := hstep second
  have hnumbers : (servedByHand.loopTurns second).map (fun t => t.frame.number) = [2] := by
    rw [← hline, ← (hsecond.answered hready).frames, List.map_map]
    rfl
  have hflying : (servedByHand.step (.dropBridge "b")).2.calls.any Call.inFlight = true := by decide +kernel
  have hdrop : servedByHand.LoopStep (.dropBridge "b") := hstep (.dropBridge "b")
  have hgoes : (servedByHand.step (.dropBridge "b")).2.endpoint = .serving :=
    (hdrop.goes_on (Or.inl hserving)).mpr ⟨nofun, Or.inr (List.any_eq_true.mp hflying)⟩
  exact ⟨hdrained.queued, hnumbers, hgoes⟩

end Session

end ShellHost
