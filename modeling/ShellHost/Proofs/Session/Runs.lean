import ShellHost.Proofs.Session.Moves

/-!
# Runs of a session

Every step of a session, and so every run, is a sequence of moves of its exchange (`step_moves`, `run_moves`). What the
moves keep holds in every state that a run comes to (`sound_run`), and after each step a serving host is at rest
(`rest_run`).
-/

namespace ShellHost.Session

open Json Relation Exchange

variable {σ : Type} {s : Session σ}

/-- A serving host has answered all that has come. -/
def Rest (s : Session σ) : Prop := s.endpoint = .serving → s.queued = [] ∧ s.waiting = []

/-! ## The serving host -/

/-- Serving makes moves, keeps the endpoint, and goes on until nothing is left in the line. -/
theorem serveAll_moves (n : Nat) (s : Session σ) (hs : s.Sound) (hserving : s.endpoint = .serving)
    (hn : s.queued.length + s.waiting.length ≤ n) :
    Moves s.toExchange (serveAll n s).toExchange ∧ (serveAll n s).endpoint = .serving ∧
      (serveAll n s).queued = [] ∧ (serveAll n s).waiting = [] := by
  -- each round answers one envelope, and a waiting one takes its room: there is one less of both together
  induction n generalizing s with
  | zero =>
    refine ⟨.refl, hserving, List.eq_nil_of_length_eq_zero ?_, List.eq_nil_of_length_eq_zero ?_⟩ <;>
      simp only [serveAll] <;> omega
  | succ n ih =>
    unfold serveAll
    cases hf : s.receive with
    | none =>
      obtain ⟨hq, hw⟩ := receive_eq_none hs.room hf
      exact ⟨.refl, hserving, hq, hw⟩
    | some fy =>
      obtain ⟨f, y⟩ := fy
      have hmove : Move s.toExchange ({ s with toExchange := y }.serveOne f).toExchange := .answer _ hserving hf
      have hend : y.endpoint = s.endpoint := (receive_frame hf).1
      have hlen := receive_length hf
      obtain ⟨hmoves, h⟩ := ih _ (hmove.sound hs) (hend.trans hserving) (by
        show y.queued.length + y.waiting.length ≤ n
        omega)
      exact ⟨.head hmove hmoves, h⟩

theorem settle_of_ne (h : s.endpoint ≠ .serving) : s.settle = s := if_neg h

/-- With nothing in the line, all that a serving host does is to see whether anybody is left. -/
theorem settle_of_empty (hserving : s.endpoint = .serving) (hq : s.queued = []) (hw : s.waiting = []) :
    s.settle = if s.senders = 0 then { s with endpoint := .gone } else s := by
  have hall : serveAll (s.queued.length + s.waiting.length) s = s := by
    rw [hq, hw]
    rfl
  rw [settle, if_pos hserving]
  simp only [hall]

theorem settle_moves (hs : s.Sound) : Moves s.toExchange s.settle.toExchange := by
  unfold settle
  split
  · rename_i hserving
    obtain ⟨hmoves, hend, hq, hw⟩ := serveAll_moves _ s hs hserving (Nat.le_refl _)
    dsimp only
    split
    · exact hmoves.tail (.close hend hq hw)
    · exact hmoves
  · exact .refl

theorem rest_settle (hs : s.Sound) : s.settle.Rest := by
  unfold settle
  split
  · rename_i hserving
    obtain ⟨-, -, hq, hw⟩ := serveAll_moves _ s hs hserving (Nat.le_refl _)
    dsimp only
    split
    · intro hgone
      cases hgone
    · exact fun _ => ⟨hq, hw⟩
  · rename_i hserving
    exact fun h => absurd h hserving

/-- When the line is empty, the envelope of a call in flight is in somebody's hands. -/
theorem taken_of_empty (hs : s.Sound) (hq : s.queued = []) (hw : s.waiting = []) {c : Call} (hc : c ∈ s.calls)
    (hfly : c.inFlight = true) : ∃ name f, s.taken.lookup name = some f ∧ f.number = c.number := by
  obtain ⟨p, hp⟩ := Stage.inFlight_iff.mp hfly
  have hcall : s.call? c.number = some c := hs.inv.ordered.call?_of_mem hc
  obtain ⟨f, hf, hn⟩ := hs.inv.placed.located p c.number (by rw [stage?, hcall, Option.map_some, hp])
  cases p with
  | waiting =>
    rw [place, hw] at hf
    cases hf
  | queued =>
    rw [place, hq] at hf
    cases hf
  | taken =>
    obtain ⟨⟨name, g⟩, hg, rfl⟩ := List.mem_map.mp hf
    exact ⟨name, g, (lookup_eq_some_iff hs.inv.out.names).mpr hg, hn⟩

/-! ## Steps -/

theorem ask_moves (s : Session σ) (name : String) (q : Question) :
    Moves s.toExchange (s.ask name q).toExchange := by
  unfold ask
  cases hq : q.payload? with
  | none => exact .refl
  | some v => exact .single (.send hq)

theorem inquire_moves (s : Session σ) (i : Inquiry) : Moves s.toExchange (s.inquire i).toExchange := by
  unfold inquire
  split
  · exact s.ask_moves _ _
  · exact .refl

theorem foldl_inquire_moves (qs : List Inquiry) (s : Session σ) :
    Moves s.toExchange (qs.foldl inquire s).toExchange := by
  induction qs generalizing s with
  | nil => exact .refl
  | cons q qs ih => exact (s.inquire_moves q).trans (ih _)

theorem inquire_endpoint (s : Session σ) (q : Inquiry) : (s.inquire q).endpoint = s.endpoint := by
  unfold inquire
  split
  · unfold ask
    split <;> rfl
  · rfl

theorem foldl_inquire_endpoint (qs : List Inquiry) (s : Session σ) : (qs.foldl inquire s).endpoint = s.endpoint := by
  induction qs generalizing s with
  | nil => rfl
  | cons q qs ih => rw [List.foldl_cons, ih, inquire_endpoint]

theorem act_ask (s : Session σ) (qs : List Inquiry) : (s.act (.ask qs)).2 = qs.foldl inquire s := by
  rcases qs with _ | ⟨q, _ | ⟨q', qs⟩⟩
  · rfl
  · rw [act]
    split
    · rfl
    · rename_i hq
      simp only [List.foldl_cons, List.foldl_nil, inquire]
      rw [if_neg hq]
  · rfl

/-- Steps that leave the exchange alone. -/
def Quiet : Step σ → Prop
  | .serve | .stopServing | .take _ | .respond _ _ | .reply _ | .discard _ | .dropEndpoint | .ask _ | .cancel _ => False
  | _ => True

theorem act_quiet {p : Step σ} (hp : Quiet p) : (s.act p).2.toExchange = s.toExchange := by
  cases p with
  | touch | isServing | dropHost | unsubscribe | dropBus => rfl
  | dispatch | dispatchMessage | dispatchTyped | route | handleText | emit | publish | clone | dropBridge | listen
  | subscribe =>
    rw [act]
    split <;> rfl
  | next | receive =>
    rw [act]
    split
    · rfl
    · dsimp only
      split <;> rfl
  | fetch =>
    rw [act]
    split
    · rfl
    · rfl
    · split <;> rfl
  | serve | stopServing | take | respond | reply | discard | dropEndpoint | ask | cancel => exact hp.elim

/-- What one step does, before anything else moves, is a sequence of moves. -/
theorem act_moves (hs : s.Sound) (p : Step σ) : Moves s.toExchange (s.act p).2.toExchange := by
  by_cases hp : Quiet p
  · rw [act_quiet hp]
  cases p with
  | serve =>
    rw [act]
    split
    · rename_i h
      have hmove : Move s.toExchange { s.toExchange with endpoint := .serving } := .serve h.2
      exact .head hmove (settle_moves (s := { s with endpoint := .serving }) (hmove.sound hs))
    · exact .refl
  | stopServing =>
    rw [act]
    dsimp only
    split
    · exact .single .dropEndpoint
    · exact .refl
  | dropEndpoint =>
    rw [act]
    dsimp only
    split
    · exact .single .dropEndpoint
    · exact .refl
  | take name =>
    rw [act]
    split
    · rename_i hheld
      cases hf : s.receive with
      | none => exact .refl
      | some fy => exact .single (.take name hheld hf)
    · exact .refl
  | respond name text =>
    rw [act]
    split
    · exact .refl
    · rename_i f hf
      exact .single (.giveBack name _ hf)
  | reply name =>
    rw [act]
    split
    · exact .refl
    · rename_i f hf
      split
      · exact .single (.giveBack name _ hf)
      · exact .refl
  | discard name =>
    rw [act]
    split
    · exact .refl
    · rename_i f hf
      exact .single (.giveBack name _ hf)
  | ask qs =>
    rcases qs with _ | ⟨q, _ | ⟨q', qs⟩⟩
    · exact .refl
    · rw [act]
      split
      · exact s.inquire_moves q
      · exact .refl
    · exact foldl_inquire_moves _ s
  | cancel name =>
    rw [act]
    split
    · exact .refl
    · exact .refl
    · exact .single (.abandon _)
  | _ => exact absurd trivial hp

theorem step_eq {p : Step σ} {r : Report} {s' : Session σ} (h : s.act p = (r, s')) : s.step p = (r, s'.settle) := by
  rw [step, h]

/-- What one step does is a sequence of moves. -/
theorem step_moves (hs : s.Sound) (p : Step σ) : Moves s.toExchange (s.step p).2.toExchange :=
  (act_moves hs p).trans (settle_moves ((act_moves hs p).sound hs))

theorem sound_step (hs : s.Sound) (p : Step σ) : (s.step p).2.Sound := (step_moves hs p).sound hs

theorem rest_step (hs : s.Sound) (p : Step σ) : (s.step p).2.Rest := rest_settle ((act_moves hs p).sound hs)

/-! ## Runs -/

theorem run_moves (hs : s.Sound) (ps : List (Step σ)) : Moves s.toExchange (s.run ps).2.toExchange := by
  induction ps generalizing s with
  | nil => exact .refl
  | cons p ps ih => exact (step_moves hs p).trans (ih (sound_step hs p))

theorem run_append (s : Session σ) (ps qs : List (Step σ)) : (s.run (ps ++ qs)).2 = ((s.run ps).2.run qs).2 := by
  induction ps generalizing s with
  | nil => rfl
  | cons p ps ih => exact ih _

theorem sound_start (host : Host σ) (state : σ) (capacity eventCapacity : Nat) :
    (start host state capacity eventCapacity).Sound := by
  refine ⟨⟨⟨?_, ?_⟩, ?_, ?_⟩, ⟨Nat.zero_le _, fun h => absurd rfl h⟩⟩
  · intro p f hf
    cases p <;> simp [place, start] at hf
  · intro p n hn
    simp [stage?, call?, start] at hn
  · refine ⟨rfl, rfl, List.Pairwise.nil, fun n hn => ?_, fun n h0 hn => ?_, fun _ => ⟨rfl, rfl⟩⟩
    · simp [history, start] at hn
    · have : n < 1 := hn
      omega
  · exact ⟨List.nodup_nil, List.nodup_nil, fun f hf => by simp [place, start] at hf⟩

/-- In every state that a run comes to, the envelopes are in order. -/
theorem sound_run (host : Host σ) (state : σ) (capacity eventCapacity : Nat) (ps : List (Step σ)) :
    ((start host state capacity eventCapacity).run ps).2.Sound :=
  (run_moves (sound_start host state capacity eventCapacity) ps).sound
    (sound_start host state capacity eventCapacity)

theorem Rest.run (h : s.Rest) (hs : s.Sound) (ps : List (Step σ)) : (s.run ps).2.Rest := by
  induction ps generalizing s with
  | nil => exact h
  | cons p ps ih => exact ih (rest_step hs p) (sound_step hs p)

/-- In every state that a run comes to, a serving host is at rest. -/
theorem rest_run (host : Host σ) (state : σ) (capacity eventCapacity : Nat) (ps : List (Step σ)) :
    ((start host state capacity eventCapacity).run ps).2.Rest := by
  have hrest : (start host state capacity eventCapacity).Rest := by
    intro hserving
    cases hserving
  exact hrest.run (sound_start host state capacity eventCapacity) ps

/-! ## A short run -/

/-- A host whose handlers do nothing but panic. -/
def panickingHost : Host Unit where
  handlers := ⟨fun _ s => (.panicked .other, s)⟩
  picker := .none

/-- A run in which three questions are asked and the first envelope is taken. -/
def askThrice : List (Step Unit) :=
  [.ask [⟨"first", "b", .raw "add" .null⟩, ⟨"second", "b", .raw "add" .null⟩, ⟨"third", "b", .raw "add" .null⟩],
    .take "e"]

end ShellHost.Session
