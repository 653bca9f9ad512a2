import ShellHost.Proofs.Session.Bus

/-!
# A ring for the events

The event bus keeps a log of everything and counts how much of it may still be read. A ring of cells does the same with
the room for one window: an event overwrites the one that is a window older. It has the events that can still be read
(`Ring.Holds`), so that whatever is published and received, the listeners get from it what they get from the bus
(`Ring.run_eq`).
-/

namespace ShellHost

/-- What is written to a place of the ring. -/
structure Cell where
  /-- The number of the event. -/
  number : Nat
  /-- The event. -/
  event : Event

/-- So many cells, in which each event takes the place of the one that is a window older. -/
structure Ring (size : Nat) where
  /-- The cells; `none` if nothing was written to one. -/
  cells : Vector (Option Cell) size
  /-- How many events were written. -/
  count : Nat

namespace Ring

/-- Numbers that share a cell are a window apart. -/
theorem eq_of_mod_eq {size i j : Nat} (hle : i ≤ j) (hlt : j < i + size) (h : i % size = j % size) : i = j := by
  have hzero : (j - i) % size = 0 := Nat.sub_mod_eq_zero_of_mod_eq h.symm
  rw [Nat.mod_eq_of_lt (by omega)] at hzero
  omega

variable {size : Nat} [NeZero size]

/-- The cell of an event. -/
def cell (r : Ring size) (number : Nat) : Option Cell := r.cells[Fin.ofNat size number]

/-- A ring to which nothing was written. -/
def blank (size : Nat) : Ring size := ⟨.replicate size none, 0⟩

/-- Writes an event. -/
def publish (r : Ring size) (e : Event) : Ring size :=
  ⟨r.cells.set (r.count % size) (some ⟨r.count, e⟩) (Nat.mod_lt _ (Nat.pos_of_neZero size)), r.count + 1⟩

/-- Gives the listener the event in its cell. If an older event stands there, there is nothing to read yet; if a newer
one does, the listener goes on with the oldest that is left. -/
def receive (r : Ring size) (l : Listener) : Received × Listener :=
  match r.cell l.next with
  | none => (.empty, l)
  | some c =>
    if c.number = l.next then (.event c.event, ⟨l.next + 1⟩)
    else if c.number + size = l.next then (.empty, l)
    else (.lagged (r.count - size - l.next), ⟨r.count - size⟩)

/-- The ring has the events of a bus that can still be read. -/
structure Holds (r : Ring size) (b : EventBus) : Prop where
  /-- The ring has room for one window. -/
  window : b.window = size
  /-- As many events were written as published. -/
  count : r.count = b.count
  /-- Each of the last events is in its cell. -/
  kept : ∀ i, i < b.count → b.count ≤ i + size → ∃ e, b.events[i]? = some e ∧ r.cell i = some ⟨i, e⟩
  /-- Nothing was written to the other cells. -/
  unused : ∀ i, b.count ≤ i → i < size → r.cell i = none

variable {r : Ring size} {b : EventBus} {l : Listener}

theorem cell_publish (r : Ring size) (e : Event) (i : Nat) :
    (r.publish e).cell i = if i % size = r.count % size then some ⟨r.count, e⟩ else r.cell i := by
  unfold publish cell
  rw [Fin.getElem_fin, Fin.getElem_fin, Vector.getElem_set]
  simp only [Fin.val_ofNat, eq_comm]

theorem cell_congr {i j : Nat} (h : i % size = j % size) : r.cell i = r.cell j := by
  have hindex : Fin.ofNat size i = Fin.ofNat size j := Fin.ext h
  simp only [cell, hindex]

theorem holds_blank (hw : b.window = size) (hlog : b.log = []) : (blank size).Holds b where
  window := hw
  count := by rw [EventBus.count, hlog]; rfl
  kept i hi := by
    rw [EventBus.count, hlog] at hi
    exact absurd hi (Nat.not_lt_zero _)
  unused i _ _ := by
    unfold blank cell
    exact Vector.getElem_replicate _

/-- A ring has what is published on the bus. -/
theorem Holds.publish (h : r.Holds b) {n : Nat} (hn : n ≠ 0) (e : Event) : (r.publish e).Holds (b.publish n e) := by
  rw [EventBus.publish_of_ne_zero hn]
  have hcount : EventBus.count { b with log := e :: b.log } = b.count + 1 := rfl
  refine ⟨h.window, congrArg (· + 1) h.count, fun i hi hnear => ?_, fun i hge hlt => ?_⟩
  · rw [hcount] at hi hnear
    rw [EventBus.events_cons, cell_publish, h.count]
    by_cases hlast : i = b.count
    · subst hlast
      refine ⟨e, ?_, if_pos rfl⟩
      rw [← EventBus.length_events, List.getElem?_append_right (Nat.le_refl _), Nat.sub_self]
      rfl
    · -- the cell of the new event is that of an event which is a window older
      have hother : i % size ≠ b.count % size := fun h => hlast (eq_of_mod_eq (by omega) (by omega) h)
      obtain ⟨e', he', hcell⟩ := h.kept i (by omega) (by omega)
      refine ⟨e', ?_, by rw [if_neg hother, hcell]⟩
      rw [List.getElem?_append_left (by rw [EventBus.length_events]; omega), he']
  · rw [hcount] at hge
    have hother : i % size ≠ b.count % size := by
      rw [Nat.mod_eq_of_lt hlt, Nat.mod_eq_of_lt (by omega)]
      omega
    rw [cell_publish, h.count, if_neg hother, h.unused i (by omega) hlt]

/-- A listener gets from the ring what it gets from the bus. -/
theorem Holds.receive_eq (h : r.Holds b) (hl : l.next ≤ b.count) : r.receive l = b.receive l := by
  have hpos : 0 < size := Nat.pos_of_neZero size
  unfold receive EventBus.receive
  by_cases hlag : b.window < b.behind l
  · -- in the cell stands the last of the events that share it, which has not been read
    rw [if_pos hlag]
    rw [h.window, EventBus.behind] at hlag
    obtain ⟨i, hi, hnear, hcell⟩ : ∃ i, i < b.count ∧ b.count ≤ i + size ∧ i % size = l.next % size := by
      refine ⟨b.count - 1 - (b.count - 1 - l.next) % size, by omega, ?_, ?_⟩
      · have := Nat.mod_lt (b.count - 1 - l.next) hpos
        omega
      · have hdiv := Nat.div_add_mod (b.count - 1 - l.next) size
        have hnumber : b.count - 1 - (b.count - 1 - l.next) % size
            = l.next + size * ((b.count - 1 - l.next) / size) := by omega
        rw [hnumber, Nat.add_mul_mod_self_left]
    obtain ⟨e, -, he⟩ := h.kept i hi hnear
    rw [cell_congr hcell.symm, he]
    dsimp only
    rw [if_neg (by omega), if_neg (by omega), h.count, h.window, EventBus.behind, EventBus.catchUp, h.window]
    rw [Nat.max_eq_right (by omega), Nat.sub_right_comm]
  · have hbehind : b.behind l ≤ b.window := Nat.le_of_not_lt hlag
    rw [if_neg hlag, EventBus.unread_eq hl, EventBus.catchUp_of_le hbehind]
    rw [h.window, EventBus.behind] at hbehind
    by_cases hnext : l.next < b.count
    · obtain ⟨e, he, hcell⟩ := h.kept l.next hnext (by omega)
      rw [hcell, List.drop_eq_getElem?_toList_append, he]
      simp
    · have hend : l.next = b.count := by omega
      rw [List.drop_eq_nil_of_le (by rw [EventBus.length_events]; omega)]
      by_cases hroom : b.count < size
      · rw [h.unused l.next (by omega) (by omega)]
      · obtain ⟨e, -, he⟩ := h.kept (b.count - size) (by omega) (by omega)
        have hcell : l.next % size = (b.count - size) % size := by
          rw [hend, ← Nat.mod_eq_sub_mod (Nat.le_of_not_lt hroom)]
        rw [cell_congr hcell, he]
        dsimp only
        rw [if_neg (by omega), if_pos (by omega)]

end Ring

/-! ## In use -/

/-- What is done with a bus. -/
inductive Use where
  /-- Somebody begins to listen. -/
  | subscribe
  /-- An event is published to those who listen. -/
  | publish (e : Event)
  /-- One of them, counted from the first who began, receives. -/
  | receive (k : Nat)

/-- What keeps events for listeners. -/
structure Keeper (β : Type) where
  /-- The position of somebody who begins to listen. -/
  subscribe : β → Listener
  /-- Publishes an event to so many listeners. -/
  publish : β → Nat → Event → β
  /-- Gives a listener what is next for it. -/
  receive : β → Listener → Received × Listener

namespace Keeper

variable {β : Type}

/-- Uses what keeps the events, for these listeners. Gives what one of them got, if one did. -/
def use (K : Keeper β) (b : β) (ls : List Listener) : Use → Option Received × β × List Listener
  | .subscribe => (none, b, ls ++ [K.subscribe b])
  | .publish e => (none, K.publish b ls.length e, ls)
  | .receive k =>
    match ls[k]? with
    | none => (none, b, ls)
    | some l => (some (K.receive b l).1, b, ls.set k (K.receive b l).2)

/-- What the listeners get from one use after another. -/
def run (K : Keeper β) : β → List Listener → List Use → List Received
  | _, _, [] => []
  | b, ls, u :: us => (K.use b ls u).1.toList ++ K.run (K.use b ls u).2.1 (K.use b ls u).2.2 us

end Keeper

/-- The bus keeps events. -/
def EventBus.keeper : Keeper EventBus := ⟨subscribe, publish, receive⟩

namespace Ring

/-- So does a ring. -/
def keeper (size : Nat) [NeZero size] : Keeper (Ring size) where
  subscribe r := ⟨r.count⟩
  publish r n e := if n = 0 then r else r.publish e
  receive := receive

variable {size : Nat} [NeZero size] {r : Ring size} {b : EventBus} {ls : List Listener}

/-- A use gives the same for both, and leaves the ring with the events of the bus. -/
theorem Holds.use (h : r.Holds b) (hls : ∀ l ∈ ls, l.next ≤ b.count) (u : Use) :
    ∃ got r' b' ls', (keeper size).use r ls u = (got, r', ls') ∧ EventBus.keeper.use b ls u = (got, b', ls') ∧
      r'.Holds b' ∧ ∀ l ∈ ls', l.next ≤ b'.count := by
  cases u with
  | subscribe =>
    refine ⟨none, r, b, ls ++ [b.subscribe], ?_, rfl, h, ?_⟩
    · show (none, r, ls ++ [⟨r.count⟩]) = _
      rw [h.count]
      rfl
    · intro l hl
      rcases List.mem_append.mp hl with hl | hl
      · exact hls l hl
      · rw [List.mem_singleton.mp hl]
        exact Nat.le_refl _
  | publish e =>
    by_cases hnone : ls.length = 0
    · have hring : (keeper size).publish r ls.length e = r := if_pos hnone
      have hbus : EventBus.keeper.publish b ls.length e = b := if_pos hnone
      exact ⟨none, r, b, ls, by rw [Keeper.use, hring], by rw [Keeper.use, hbus], h, hls⟩
    · have hring : (keeper size).publish r ls.length e = r.publish e := if_neg hnone
      refine ⟨none, r.publish e, b.publish ls.length e, ls, by rw [Keeper.use, hring], rfl, h.publish hnone e,
        fun l hl => ?_⟩
      rw [EventBus.publish_of_ne_zero hnone]
      exact Nat.le_succ_of_le (hls l hl)
  | receive k =>
    cases hk : ls[k]? with
    | none => exact ⟨none, r, b, ls, by rw [Keeper.use, hk], by rw [Keeper.use, hk], h, hls⟩
    | some l =>
      have hl := hls l (List.mem_of_getElem? hk)
      refine ⟨some (b.receive l).1, r, b, ls.set k (b.receive l).2, ?_, ?_, h, ?_⟩
      · rw [Keeper.use, hk]
        show (some (r.receive l).1, r, ls.set k (r.receive l).2) = _
        rw [h.receive_eq hl]
      · rw [Keeper.use, hk]
        rfl
      · intro l' hl'
        rcases List.mem_or_eq_of_mem_set hl' with hl' | rfl
        · exact hls l' hl'
        · exact EventBus.next_receive_le hl

/-- Whatever is done, the listeners get from the ring what they get from the bus. -/
theorem Holds.run_eq (h : r.Holds b) (hls : ∀ l ∈ ls, l.next ≤ b.count) (us : List Use) :
    (keeper size).run r ls us = EventBus.keeper.run b ls us := by
  induction us generalizing r b ls with
  | nil => rfl
  | cons u us ih =>
    obtain ⟨got, r', b', ls', hring, hbus, h', hls'⟩ := h.use hls u
    rw [Keeper.run, Keeper.run, hring, hbus]
    exact congrArg (got.toList ++ ·) (ih h' hls')

/-- A ring with room for one window is as good as the bus, from the beginning on. -/
theorem run_eq (hwindow : b.window = size) (hblank : b.log = []) (us : List Use) :
    (keeper size).run (blank size) [] us = EventBus.keeper.run b [] us :=
  (holds_blank hwindow hblank).run_eq (fun _ hl => absurd hl List.not_mem_nil) us

end Ring

end ShellHost
