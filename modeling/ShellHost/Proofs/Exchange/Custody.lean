import Mathlib.Data.List.Nodup
import Mathlib.Data.List.Perm.Basic
import Mathlib.Order.Basic
import ShellHost.Proofs.Exchange.Calls

/-!
# Where the envelopes are

Every envelope that was sent is at one place, and the stage of its call says at which: it waits for room, it is in the
line, or it came out and was not answered yet (`Placed`). The envelopes that came out, those in the line and those that
wait follow each other by the numbers of their calls, and no number is passed over but that of a call that was given up
before there was room (`Ordered`). What came out is answered once (`Out`).

An envelope that came out is kept under a name or is just being answered. The latter are the `hand` of the invariant,
which is empty between two operations.
-/

namespace ShellHost

/-- Where a call may stand whose envelope is at a place: on its way there, or given up when the envelope was there or,
for an envelope that came out, still in the line. -/
def Stage.At (s : Stage) (p : Location) : Prop :=
  s = .flying p ∨ (s = .cancelled p ∧ p ≠ .waiting) ∨ (s = .cancelled .queued ∧ p = .taken)

theorem Stage.flying_at_iff {p q : Location} : (Stage.flying p).At q ↔ p = q := by
  simp [Stage.At]

theorem Stage.at_waiting_iff {s : Stage} : s.At .waiting ↔ s = .flying .waiting := by
  simp [Stage.At]

namespace Exchange

variable {x y : Exchange} {hand hand' : List Frame} {f g : Frame} {p : Location} {n m : Nat}

/-- The envelopes at a place. -/
def place (hand : List Frame) (x : Exchange) : Location → List Frame
  | .waiting => x.waiting
  | .queued => x.queued
  | .taken => hand ++ x.taken.map Prod.snd

/-- The numbers of the envelopes that came out, that are in the line and that wait, in this order. -/
def history (x : Exchange) : List Nat := x.received.reverse ++ (x.queued ++ x.waiting).map Frame.number

/-- The frame is the envelope of its call, and the call knows that it is at this place. -/
def Carries (x : Exchange) (f : Frame) (p : Location) : Prop :=
  ∃ c, x.call? f.number = some c ∧ c.stage.At p ∧ c.envelope?.map Envelope.render = some f.text

/-- Calls know where their envelopes are. -/
structure Placed (hand : List Frame) (x : Exchange) : Prop where
  /-- Each envelope at a place belongs to a call that knows it there. -/
  carried : ∀ p, ∀ f ∈ x.place hand p, x.Carries f p
  /-- The envelope of a call in flight is at the place that the call knows. -/
  located : ∀ p n, x.stage? n = some (.flying p) → ∃ f ∈ x.place hand p, f.number = n

/-- The envelope with this number is not lost: it is in the line or came out, unless its call was given up before there
was room, or the endpoint was dropped first. -/
def Covered (x : Exchange) (n : Nat) : Prop :=
  n ∈ x.history ∨ x.stage? n = some (.cancelled .waiting) ∨ (x.endpoint = .gone ∧ ∀ r ∈ x.received, r < n)

/-- Calls are numbered, and the line is in the order of the numbers. -/
structure Ordered (x : Exchange) : Prop where
  /-- The calls are numbered from one on. -/
  numbers : x.calls.map Call.number = (List.range' 1 x.calls.length).reverse
  /-- The next number is a new one. -/
  next : x.nextNumber = x.calls.length + 1
  /-- The envelopes follow each other by their numbers. -/
  order : x.history.Pairwise (· < ·)
  /-- The envelopes belong to calls. -/
  history_lt : ∀ n ∈ x.history, n < x.nextNumber
  /-- No envelope is lost. -/
  covered : ∀ n, 0 < n → n < x.nextNumber → x.Covered n
  /-- Without an endpoint there is nothing in the line. -/
  gone : x.endpoint = .gone → x.queued = [] ∧ x.waiting = []

/-- What came out of the line is kept for an answer, once. -/
structure Out (hand : List Frame) (x : Exchange) : Prop where
  /-- The names of the envelopes that were taken are distinct. -/
  names : (x.taken.map Prod.fst).Nodup
  /-- No envelope came out twice. -/
  nodup : ((x.place hand .taken).map Frame.number).Nodup
  /-- What is to be answered came out of the line. -/
  received : ∀ f ∈ x.place hand .taken, f.number ∈ x.received

/-- Every envelope is where its call says it is, and the line is in order. -/
structure Inv (hand : List Frame) (x : Exchange) : Prop where
  /-- Calls know where their envelopes are. -/
  placed : x.Placed hand
  /-- The line is in order. -/
  ordered : x.Ordered
  /-- What came out is kept. -/
  out : x.Out hand

/-- The line holds as many envelopes as there is room for, and none waits while there is room. -/
structure Room (x : Exchange) : Prop where
  /-- The line is not too long. -/
  le : x.queued.length ≤ x.capacity
  /-- While an envelope waits, there is no room. -/
  full : x.waiting ≠ [] → x.queued.length = x.capacity

/-! ## What the order says of numbers -/

namespace Ordered

/-- The numbers of calls are those from one to the last. -/
theorem mem_numbers_iff (h : x.Ordered) : n ∈ x.calls.map Call.number ↔ 0 < n ∧ n < x.nextNumber := by
  rw [h.numbers, h.next, List.mem_reverse, List.mem_range'_1]
  omega

theorem nodup_numbers (h : x.Ordered) : (x.calls.map Call.number).Nodup := by
  rw [h.numbers]
  exact List.nodup_reverse.mpr List.nodup_range'

/-- The call with a number is the one in the list. -/
theorem call?_eq_some_iff (h : x.Ordered) {c : Call} : x.call? n = some c ↔ c ∈ x.calls ∧ c.number = n := by
  constructor
  · intro hc
    exact ⟨mem_of_call? hc, number_of_call? hc⟩
  · rintro ⟨hc, rfl⟩
    cases hd : x.call? c.number with
    | none =>
      have := List.find?_eq_none.mp hd c hc
      simp at this
    | some d =>
      have hdc := List.inj_on_of_nodup_map h.nodup_numbers (mem_of_call? hd) hc (number_of_call? hd)
      rw [hdc]

theorem call?_of_mem (h : x.Ordered) {c : Call} (hc : c ∈ x.calls) : x.call? c.number = some c :=
  h.call?_eq_some_iff.mpr ⟨hc, rfl⟩

theorem lt_of_call? (h : x.Ordered) {c : Call} (hc : x.call? n = some c) : 0 < n ∧ n < x.nextNumber := by
  have hmem := List.mem_map_of_mem (f := Call.number) (mem_of_call? hc)
  rw [number_of_call? hc] at hmem
  exact h.mem_numbers_iff.mp hmem

theorem lt_of_stage? (h : x.Ordered) {s : Stage} (hs : x.stage? n = some s) : 0 < n ∧ n < x.nextNumber := by
  obtain ⟨c, hc, -⟩ := Option.map_eq_some_iff.mp hs
  exact h.lt_of_call? hc

theorem nodup_line (h : x.Ordered) : ((x.queued ++ x.waiting).map Frame.number).Nodup :=
  ((List.pairwise_append.mp h.order).2.1).imp fun hlt => Nat.ne_of_lt hlt

/-- What came out has a smaller number than what is still to come. -/
theorem received_lt (h : x.Ordered) (hn : n ∈ x.received) (hf : f ∈ x.queued ++ x.waiting) : n < f.number :=
  (List.pairwise_append.mp h.order).2.2 n (List.mem_reverse.mpr hn) f.number (List.mem_map_of_mem hf)

end Ordered

/-- What came out is no longer in the line. -/
theorem Inv.out_ne_line (h : Inv hand x) (hg : g ∈ x.place hand .taken) (hf : f ∈ x.queued ++ x.waiting) :
    g.number ≠ f.number :=
  Nat.ne_of_lt (h.ordered.received_lt (h.out.received g hg) hf)

/-! ## One call advances -/

/-- An envelope of another call stays where it is. -/
theorem Carries.setStage (h : x.Carries f p) (hf : f.number ≠ n) (st : Stage) : (x.setStage n st).Carries f p := by
  obtain ⟨c, hc, hat, htext⟩ := h
  refine ⟨c, ?_, hat, htext⟩
  rw [call?_setStage, hc]
  simp [hf]

/-- The envelope of the call that advances is where the call is then. -/
theorem Carries.advance {q : Location} {st : Stage} (h : x.Carries f p)
    (hat : ∀ s : Stage, s.At p → (s.advance st).At q) : (x.setStage f.number st).Carries f q := by
  obtain ⟨c, hc, hst, htext⟩ := h
  refine ⟨c.advance st, ?_, hat _ hst, htext⟩
  rw [call?_setStage, hc]
  simp

/-- A call that is in flight after a change was so at the same place, or it is the one that changed. -/
theorem flying_of_setStage {st : Stage} (h : (x.setStage n st).stage? m = some (.flying p)) :
    (m ≠ n ∧ x.stage? m = some (.flying p)) ∨ (m = n ∧ st = .flying p) := by
  rw [stage?_setStage] at h
  obtain ⟨s, hs, hst⟩ := Option.map_eq_some_iff.mp h
  by_cases hm : m = n
  · cases s with
    | flying q => exact Or.inr ⟨hm, by simpa [hm] using hst⟩
    | settled e => simp [hm] at hst
    | cancelled q => simp [hm] at hst
  · exact Or.inl ⟨hm, by simpa [hm, hs] using hst⟩

/-- When one call advances, it is enough to know where its own envelope is then. -/
theorem Placed.setStage {st : Stage} (h : x.Placed hand) (hcalls : y.calls = (x.setStage n st).calls)
    (hother : ∀ p g, g.number ≠ n → (g ∈ y.place hand' p ↔ g ∈ x.place hand p))
    (hthis : ∀ p, ∀ g ∈ y.place hand' p, g.number = n → (x.setStage n st).Carries g p)
    (hst : ∀ p, st = .flying p → ∃ g ∈ y.place hand' p, g.number = n) : y.Placed hand' := by
  have hcall : ∀ m, y.call? m = (x.setStage n st).call? m := fun m => by simp only [call?, hcalls]
  have hstage : ∀ m, y.stage? m = (x.setStage n st).stage? m := fun m => by simp only [stage?, hcall]
  constructor
  · intro p g hg
    have hc : (x.setStage n st).Carries g p := by
      by_cases hn : g.number = n
      · exact hthis p g hg hn
      · exact (h.carried p g ((hother p g hn).mp hg)).setStage hn st
    unfold Carries at hc ⊢
    rwa [hcall]
  · intro p m hm
    rw [hstage] at hm
    rcases flying_of_setStage hm with ⟨hne, hs⟩ | ⟨rfl, hp⟩
    · obtain ⟨g, hg, rfl⟩ := h.located p m hs
      exact ⟨g, (hother p g hne).mpr hg, rfl⟩
    · exact hst p hp

/-- Calls know where their envelopes are, in whatever way these are kept. -/
theorem Placed.congr (h : x.Placed hand) (hcalls : y.calls = x.calls)
    (hmem : ∀ p g, g ∈ y.place hand' p ↔ g ∈ x.place hand p) : y.Placed hand' := by
  have hcall : ∀ m, y.call? m = x.call? m := fun m => by simp only [call?, hcalls]
  constructor
  · intro p g hg
    unfold Carries
    rw [hcall]
    exact h.carried p g ((hmem p g).mp hg)
  · intro p m hm
    have hs : x.stage? m = some (.flying p) := by simpa only [stage?, hcall] using hm
    obtain ⟨g, hg, he⟩ := h.located p m hs
    exact ⟨g, (hmem p g).mpr hg, he⟩

theorem stage?_eq_cancelled {st : Stage} (hcalls : y.calls = (x.setStage n st).calls)
    (h : x.stage? m = some (.cancelled p)) : y.stage? m = some (.cancelled p) := by
  have hy : y.stage? m = (x.setStage n st).stage? m := by simp only [stage?, call?, hcalls]
  rw [hy, stage?_setStage, h]
  by_cases hm : m = n <;> simp [hm]

/-- The order stays when one call advances and the envelopes stay in their sequence. -/
theorem Ordered.setStage {st : Stage} (h : x.Ordered) (hcalls : y.calls = (x.setStage n st).calls)
    (hnext : y.nextNumber = x.nextNumber) (hend : y.endpoint = x.endpoint) (hsub : y.history.Sublist x.history)
    (hcov : ∀ m ∈ x.history, y.Covered m)
    (hgone : x.endpoint = .gone → y.queued = [] ∧ y.waiting = [] ∧ y.received = x.received) : y.Ordered where
  numbers := by rw [hcalls, setStage_numbers, setStage_length]; exact h.numbers
  next := by rw [hnext, hcalls, setStage_length]; exact h.next
  order := h.order.sublist hsub
  history_lt := fun m hm => hnext ▸ h.history_lt m (hsub.subset hm)
  covered := by
    intro m h0 hm
    rcases h.covered m h0 (hnext ▸ hm) with hc | hc | ⟨hg, hr⟩
    · exact hcov m hc
    · exact Or.inr (Or.inl (stage?_eq_cancelled hcalls hc))
    · refine Or.inr (Or.inr ⟨hend ▸ hg, ?_⟩)
      rw [(hgone hg).2.2]
      exact hr
  gone := fun hg => ⟨(hgone (hend ▸ hg)).1, (hgone (hend ▸ hg)).2.1⟩

end Exchange

end ShellHost
