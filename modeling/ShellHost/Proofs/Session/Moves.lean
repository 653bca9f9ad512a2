import Mathlib.Logic.Relation
import ShellHost.Proofs.Exchange.Preservation
import ShellHost.Session.Step

/-!
# What a session does to its exchange

Whatever the steps of a session are, its exchange only makes the moves of `Move`. Each of them keeps the envelopes in
order (`Sound`) and leaves calls alone that have ended, so every run does. After each step a serving host is at rest:
nothing is left in the line.
-/

namespace ShellHost

open Json Relation

variable {σ : Type}

namespace Exchange

variable {x y : Exchange} {n : Nat} {c : Call}

/-- The invariant between two operations. -/
structure Sound (x : Exchange) : Prop where
  /-- Every envelope is where its call says it is. -/
  inv : x.Inv []
  /-- The line is as long as it may be. -/
  room : x.Room

/-- One move of an exchange. -/
inductive Move : Exchange → Exchange → Prop where
  /-- A question is sent. -/
  | send {x : Exchange} {q : Question} {v : Value} (h : q.payload? = some v) : Move x (x.send q v).2
  /-- An envelope is taken by hand. -/
  | take {x y : Exchange} {f : Frame} (name : String) (hheld : x.endpoint = .held) (h : x.receive = some (f, y)) :
      Move x (y.keep name f)
  /-- The serving host answers an envelope. -/
  | answer {x y : Exchange} {f : Frame} (text : String) (hserving : x.endpoint = .serving)
      (h : x.receive = some (f, y)) : Move x (y.finish f.number (.replied text))
  /-- An envelope that was taken is answered or discarded. -/
  | giveBack {x : Exchange} {f : Frame} (name : String) (e : Ending) (h : x.taken.lookup name = some f) :
      Move x (x.giveBack name f e).2
  /-- A call is given up. -/
  | abandon {x : Exchange} (n : Nat) : Move x (x.abandon n)
  /-- The endpoint is dropped. -/
  | dropEndpoint {x : Exchange} : Move x x.dropEndpoint
  /-- The host begins to serve. -/
  | serve {x : Exchange} (hheld : x.endpoint = .held) : Move x { x with endpoint := .serving }
  /-- The host stops serving. -/
  | close {x : Exchange} (hserving : x.endpoint = .serving) (hq : x.queued = []) (hw : x.waiting = []) :
      Move x { x with endpoint := .gone }

/-- Several moves of an exchange. -/
abbrev Moves : Exchange → Exchange → Prop := ReflTransGen Move

theorem receive_eq_some_iff {f : Frame} :
    x.receive = some (f, y) ↔ ∃ rest, x.queued = f :: rest ∧ y = (x.pull f rest).refill := by
  unfold receive
  cases x.queued with
  | nil => simp
  | cons g rest =>
    simp only [Option.some.injEq, Prod.mk.injEq, List.cons.injEq]
    constructor
    · rintro ⟨rfl, rfl⟩
      exact ⟨rest, ⟨rfl, rfl⟩, rfl⟩
    · rintro ⟨rest, ⟨rfl, rfl⟩, rfl⟩
      exact ⟨rfl, rfl⟩

theorem refill_line (x : Exchange) : x.refill.queued ++ x.refill.waiting = x.queued ++ x.waiting := by
  unfold refill
  split
  · rfl
  · rename_i f rest hw
    split
    · simp [hw]
    · rfl

theorem receive_line {f : Frame} (hf : x.receive = some (f, y)) : x.queued ++ x.waiting = f :: (y.queued ++ y.waiting) := by
  obtain ⟨rest, hq, rfl⟩ := receive_eq_some_iff.mp hf
  rw [refill_line, hq]
  rfl

theorem receive_length {f : Frame} (hf : x.receive = some (f, y)) :
    x.queued.length + x.waiting.length = y.queued.length + y.waiting.length + 1 := by
  have hline := congrArg List.length (receive_line hf)
  simpa only [List.length_append, List.length_cons] using hline

theorem receive_eq_none (hr : x.Room) (hf : x.receive = none) : x.queued = [] ∧ x.waiting = [] := by
  have hq : x.queued = [] := by
    unfold receive at hf
    cases hq : x.queued with
    | nil => rfl
    | cons f rest => simp [hq] at hf
  refine ⟨hq, ?_⟩
  by_contra hne
  have hfull := hr.full hne
  have hpos := x.capacity_pos
  rw [hq, List.length_nil] at hfull
  omega

theorem refill_frame (x : Exchange) :
    x.refill.endpoint = x.endpoint ∧ x.refill.capacity = x.capacity ∧ x.refill.received = x.received ∧
      x.refill.taken = x.taken := by
  unfold refill
  split
  · exact ⟨rfl, rfl, rfl, rfl⟩
  · split <;> exact ⟨rfl, rfl, rfl, rfl⟩

/-- What comes out of the line changes nothing but the line. -/
theorem receive_frame {f : Frame} (h : x.receive = some (f, y)) :
    y.endpoint = x.endpoint ∧ y.capacity = x.capacity ∧ y.received = f.number :: x.received ∧ y.taken = x.taken := by
  obtain ⟨rest, -, rfl⟩ := receive_eq_some_iff.mp h
  exact refill_frame _

theorem keep_line (name : String) (f : Frame) (x : Exchange) :
    (x.keep name f).queued = x.queued ∧ (x.keep name f).waiting = x.waiting ∧
      (x.keep name f).capacity = x.capacity ∧ (x.keep name f).endpoint = x.endpoint ∧
      (x.keep name f).received = x.received := by
  unfold keep
  split <;> exact ⟨rfl, rfl, rfl, rfl, rfl⟩

theorem Inv.receive {hand : List Frame} {f : Frame} (h : x.Inv hand) (hf : x.receive = some (f, y)) :
    y.Inv (f :: hand) := by
  obtain ⟨rest, hq, rfl⟩ := receive_eq_some_iff.mp hf
  exact (h.pull hq).refill

theorem Move.sound (hm : Move x y) (h : x.Sound) : y.Sound := by
  cases hm with
  | send hq => exact ⟨h.inv.send h.room hq, h.room.send _ _⟩
  | take name hheld hf =>
    refine ⟨(h.inv.receive hf).keep name, ?_⟩
    obtain ⟨rest, hq, rfl⟩ := receive_eq_some_iff.mp hf
    obtain ⟨h1, h2, h3, -⟩ := keep_line name _ ((x.pull _ rest).refill)
    exact (h.room.receive hq).congr h1 (Or.inr h2) h3
  | answer text hserving hf =>
    refine ⟨(h.inv.receive hf).finish _, ?_⟩
    obtain ⟨rest, hq, rfl⟩ := receive_eq_some_iff.mp hf
    exact (h.room.receive hq).congr rfl (Or.inr rfl) rfl
  | giveBack name e hf => exact ⟨h.inv.giveBack hf e, h.room.congr rfl (Or.inr rfl) rfl⟩
  | abandon n =>
    refine ⟨h.inv.abandon n, ?_⟩
    unfold Exchange.abandon
    split
    · refine ⟨h.room.le, fun hne => h.room.full fun hw => hne ?_⟩
      rw [setStage_waiting, hw]
      rfl
    · exact h.room
  | dropEndpoint =>
    refine ⟨h.inv.dropEndpoint, ?_⟩
    rw [dropEndpoint_eq]
    exact ⟨Nat.zero_le _, fun hne => absurd rfl hne⟩
  | serve hheld => exact ⟨h.inv.serve hheld, h.room.congr rfl (Or.inr rfl) rfl⟩
  | close _ hq hw => exact ⟨h.inv.close hq hw, h.room.congr rfl (Or.inr rfl) rfl⟩

theorem Moves.sound (hm : Moves x y) (h : x.Sound) : y.Sound := by
  induction hm with
  | refl => exact h
  | tail _ hlast ih => exact hlast.sound ih

/-! ## Calls that have ended -/

theorem setStage_ended {m : Nat} (st : Stage) (hc : x.call? n = some c) (hended : c.inFlight = false) :
    (x.setStage m st).call? n = some c := by
  rw [call?_setStage, hc, Option.map_some, Call.advance_of_ended hended, ite_self]

theorem refill_ended (hc : x.call? n = some c) (hended : c.inFlight = false) : x.refill.call? n = some c := by
  unfold refill
  split
  · exact hc
  · split
    · exact setStage_ended (x := { x with queued := _, waiting := _ }) _ hc hended
    · exact hc

theorem receive_ended {f : Frame} (hf : x.receive = some (f, y)) (hc : x.call? n = some c)
    (hended : c.inFlight = false) : y.call? n = some c := by
  obtain ⟨rest, -, rfl⟩ := receive_eq_some_iff.mp hf
  exact refill_ended (setStage_ended (x := { x with queued := rest, received := f.number :: x.received }) _ hc hended)
    hended

/-- A call that has ended stays as it is. -/
theorem Move.ended (hm : Move x y) (h : x.Sound) (hc : x.call? n = some c) (hended : c.inFlight = false) :
    y.call? n = some c := by
  cases hm with
  | send hq =>
    have hne : n ≠ x.nextNumber := by
      have := (h.inv.ordered.lt_of_call? hc).2
      omega
    rw [call?_send, if_neg hne, hc]
  | take name _ hf =>
    have hy := receive_ended hf hc hended
    unfold keep
    split
    · exact hy
    · exact setStage_ended _ hy hended
  | answer text _ hf => exact setStage_ended _ (receive_ended hf hc hended) hended
  | giveBack name e _ => exact setStage_ended (x := { x with taken := unassign name x.taken }) _ hc hended
  | abandon m =>
    unfold Exchange.abandon
    split
    · exact setStage_ended (x := { x with waiting := _ }) _ hc hended
    · exact hc
  | dropEndpoint =>
    rw [call?_dropEndpoint, hc, Option.map_some, Call.advance_of_ended hended, ite_self]
  | serve _ => exact hc
  | close _ _ _ => exact hc

theorem Moves.ended (hm : Moves x y) (h : x.Sound) (hc : x.call? n = some c) (hended : c.inFlight = false) :
    y.call? n = some c := by
  induction hm with
  | refl => exact hc
  | tail hms hlast ih => exact hlast.ended (Moves.sound hms h) ih hended

end Exchange

end ShellHost
