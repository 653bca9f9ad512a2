import Mathlib.Algebra.GroupWithZero.Nat
import Mathlib.Data.List.TakeWhile
import ShellHost.Session.EventBus

/-!
# What a listener gets

A bus numbers its events in the order in which they were published, and a listener reads the events from its position
on. What it gets from one time to the next are some of the events in between, in order (`hear_spec`). To ask for the next
event of a channel is to receive until one comes, past other channels and past a lag (`poll_eq_seek`).
-/

namespace ShellHost

namespace EventBus

variable {b : EventBus} {l : Listener} {channel : String}

/-- The events, the first one first. -/
def events (b : EventBus) : List Event := b.log.reverse

theorem length_events (b : EventBus) : b.events.length = b.count := List.length_reverse

/-! ## Publishing -/

theorem publish_of_ne_zero {n : Nat} (hn : n ≠ 0) (b : EventBus) (e : Event) :
    b.publish n e = { b with log := e :: b.log } := if_neg hn

theorem foldl_publish {n : Nat} (hn : n ≠ 0) (b : EventBus) (es : List Event) :
    es.foldl (fun b e => b.publish n e) b = { b with log := es.reverse ++ b.log } := by
  induction es generalizing b with
  | nil => rfl
  | cons e es ih =>
    rw [List.foldl_cons, ih, publish_of_ne_zero hn, List.reverse_cons, List.append_assoc]
    rfl

theorem window_foldl_publish (n : Nat) (b : EventBus) (es : List Event) :
    (es.foldl (fun b e => b.publish n e) b).window = b.window := by
  induction es generalizing b with
  | nil => rfl
  | cons e es ih =>
    rw [List.foldl_cons, ih, publish]
    split <;> rfl

theorem events_cons (b : EventBus) (e : Event) : events { b with log := e :: b.log } = b.events ++ [e] :=
  List.reverse_cons

/-! ## Receiving -/

theorem unread_eq (hl : l.next ≤ b.count) : b.unread l = b.events.drop (b.catchUp l).next := by
  have hskip : b.log.length - min (b.behind l) b.window = max l.next (b.count - b.window) := by
    unfold behind
    unfold count at *
    omega
  rw [unread, List.reverse_take, hskip]
  rfl

theorem catchUp_of_le (h : b.behind l ≤ b.window) : b.catchUp l = l := by
  unfold catchUp
  unfold behind at h
  rw [Nat.max_eq_left (by omega)]

/-- An event that a listener gets is the one at its position. -/
theorem receive_event {e : Event} {l' : Listener} (hl : l.next ≤ b.count) (h : b.receive l = (.event e, l')) :
    l'.next = l.next + 1 ∧ b.events[l.next]? = some e := by
  unfold receive at h
  split at h
  · cases h
  · rename_i hwindow
    rw [unread_eq hl, catchUp_of_le (Nat.le_of_not_lt hwindow)] at h
    split at h
    · cases h
    · rename_i e' rest hrest
      cases h
      have hhead : (b.events.drop l.next)[0]? = some e := by rw [hrest, List.getElem?_cons_zero]
      exact ⟨rfl, by simpa using hhead⟩

theorem receive_lagged {n : Nat} {l' : Listener} (hl : l.next ≤ b.count) (h : b.receive l = (.lagged n, l')) :
    l.next ≤ l'.next ∧ l'.next ≤ b.count := by
  unfold receive at h
  split at h
  · cases h
    exact ⟨Nat.le_max_left _ _, Nat.max_le.mpr ⟨hl, Nat.sub_le _ _⟩⟩
  · split at h <;> cases h

theorem receive_empty {l' : Listener} (h : b.receive l = (.empty, l')) : l' = l := by
  unfold receive at h
  split at h
  · cases h
  · split at h
    · cases h
      rfl
    · cases h

theorem next_receive_le (hl : l.next ≤ b.count) : (b.receive l).2.next ≤ b.count := by
  rcases hr : b.receive l with ⟨r, l'⟩
  cases r with
  | lagged n => exact (receive_lagged hl hr).2
  | empty => rwa [receive_empty hr]
  | event e =>
    obtain ⟨hl', he⟩ := receive_event hl hr
    obtain ⟨hlt, -⟩ := List.getElem?_eq_some_iff.mp he
    rw [length_events] at hlt
    rw [hl']
    exact hlt

/-- The events that so many receives give a listener, up to where there is nothing to read. A lag is passed over. -/
def hear (b : EventBus) : Nat → Listener → List Event × Listener
  | 0, l => ([], l)
  | n + 1, l =>
    match b.receive l with
    | (.empty, _) => ([], l)
    | (.lagged _, l') => b.hear n l'
    | (.event e, l') => (e :: (b.hear n l').1, (b.hear n l').2)

/-- A listener only moves forward, so what it gets is among what it passes, in order. -/
theorem hear_spec (n : Nat) (hl : l.next ≤ b.count) :
    l.next ≤ (b.hear n l).2.next ∧ (b.hear n l).2.next ≤ b.count ∧
      (b.hear n l).1.Sublist ((b.events.take (b.hear n l).2.next).drop l.next) := by
  induction n generalizing l with
  | zero => exact ⟨Nat.le_refl _, hl, List.nil_sublist _⟩
  | succ n ih =>
    rw [hear]
    rcases hr : b.receive l with ⟨r, l'⟩
    cases r with
    | empty => exact ⟨Nat.le_refl _, hl, List.nil_sublist _⟩
    | lagged k =>
      obtain ⟨hle, hcount⟩ := receive_lagged hl hr
      obtain ⟨hnext, hbound, hsub⟩ := ih hcount
      exact ⟨Nat.le_trans hle hnext, hbound, hsub.trans (List.drop_sublist_drop_left _ hle)⟩
    | event e =>
      obtain ⟨hl', he⟩ := receive_event hl hr
      have hcount : l'.next ≤ b.count := by
        have hle := next_receive_le hl
        rwa [hr] at hle
      obtain ⟨hnext, hbound, hsub⟩ := ih hcount
      refine ⟨by dsimp only; omega, hbound, ?_⟩
      have hhere : (b.events.take (b.hear n l').2.next)[l.next]? = some e := by
        rw [List.getElem?_take_of_lt (by omega), he]
      rw [List.drop_eq_getElem?_toList_append, hhere, ← hl']
      exact hsub.cons_cons e

/-! ## The next event of a channel -/

/-- What is asked for is the first event of the channel that can still be read, and what stands before it is passed
over. -/
theorem poll_cases (channel : String) (hl : l.next ≤ b.count) :
    ∃ passed, (∀ e ∈ passed, e.channel ≠ channel) ∧
      (b.events.drop (b.catchUp l).next = passed ∧
          b.poll channel l = (none, ⟨(b.catchUp l).next + passed.length⟩) ∨
        ∃ e rest, b.events.drop (b.catchUp l).next = passed ++ e :: rest ∧ e.channel = channel ∧
          b.poll channel l = (some e.payload, ⟨(b.catchUp l).next + passed.length + 1⟩)) := by
  set passed := (b.unread l).takeWhile (·.channel != channel) with hpassed
  have hother : ∀ e ∈ passed, e.channel ≠ channel := fun e he => by simpa using List.mem_takeWhile_imp he
  refine ⟨passed, hother, ?_⟩
  have hsplit : passed ++ (b.unread l).dropWhile (·.channel != channel) = b.unread l := List.takeWhile_append_dropWhile
  rw [← unread_eq hl]
  unfold poll
  dsimp only
  rw [← hpassed]
  cases hrest : (b.unread l).dropWhile (·.channel != channel) with
  | nil =>
    rw [hrest, List.append_nil] at hsplit
    rw [← hsplit, List.getElem?_eq_none (Nat.le_refl _)]
    exact .inl ⟨rfl, rfl⟩
  | cons e rest =>
    rw [hrest] at hsplit
    have hnot : e.channel = channel := by
      have hhead := List.head?_dropWhile_not (fun e : Event => e.channel != channel) (b.unread l)
      simpa [hrest] using hhead
    rw [← hsplit, List.getElem?_append_right (Nat.le_refl _), Nat.sub_self, List.getElem?_cons_zero]
    exact .inr ⟨e, rest, rfl, hnot, rfl⟩

/-- Receives until an event of the channel comes or there is nothing to read, at most so often. -/
def seek (b : EventBus) (channel : String) : Nat → Listener → Option Json.Value × Listener
  | 0, l => (none, l)
  | n + 1, l =>
    match b.receive l with
    | (.event e, l') => if e.channel = channel then (some e.payload, l') else b.seek channel n l'
    | (.lagged _, l') => b.seek channel n l'
    | (.empty, l') => (none, l')

theorem poll_lagged (channel : String) (hl : l.next ≤ b.count) (hlag : b.window < b.behind l) :
    b.behind (b.catchUp l) = b.window ∧ b.poll channel (b.catchUp l) = b.poll channel l := by
  have hbehind : b.behind (b.catchUp l) = b.window := by
    unfold behind at *
    unfold catchUp
    dsimp only
    omega
  have hagain : b.catchUp (b.catchUp l) = b.catchUp l := catchUp_of_le (Nat.le_of_eq hbehind)
  have hle : (b.catchUp l).next ≤ b.count := Nat.max_le.mpr ⟨hl, Nat.sub_le _ _⟩
  refine ⟨hbehind, ?_⟩
  unfold poll
  rw [unread_eq hle, unread_eq hl, hagain]

/-- Without a lag an event of another channel is passed over. -/
theorem poll_other {e : Event} {rest : List Event} (hl : l.next ≤ b.count) (hbehind : b.behind l ≤ b.window)
    (hrest : b.unread l = e :: rest) (hother : e.channel ≠ channel) :
    b.poll channel ⟨l.next + 1⟩ = b.poll channel l := by
  have hdrop : b.events.drop l.next = e :: rest := by rw [← hrest, unread_eq hl, catchUp_of_le hbehind]
  have hlt : l.next < b.count := by
    by_contra hge
    rw [List.drop_eq_nil_of_le (by rw [length_events]; omega)] at hdrop
    cases hdrop
  have hcatch : b.catchUp ⟨l.next + 1⟩ = ⟨l.next + 1⟩ := catchUp_of_le (by
    unfold behind at *
    dsimp only
    omega)
  have hnext : b.unread ⟨l.next + 1⟩ = rest := by
    rw [unread_eq hlt, hcatch, ← List.drop_drop, hdrop]
    rfl
  have hskip : (e :: rest).takeWhile (·.channel != channel) = e :: rest.takeWhile (·.channel != channel) :=
    List.takeWhile_cons_of_pos (by simpa using hother)
  unfold poll
  rw [hnext, hrest, hcatch, catchUp_of_le hbehind]
  dsimp only
  rw [hskip, List.length_cons, List.getElem?_cons_succ]
  -- the position is the same, whether the event is counted as read or as passed over
  have hnumber : ∀ k, l.next + 1 + k = l.next + (k + 1) := fun k => by omega
  rw [hnumber]

/-- To ask for the next event of a channel is to receive until it comes. A lag is told at most once, and each further
turn reads an event. -/
theorem poll_eq_seek {n : Nat} (hl : l.next ≤ b.count) (hn : b.behind l + 1 < n) :
    b.poll channel l = b.seek channel n l := by
  -- in a first turn the listener may lag; without a lag each turn brings it nearer to the end
  have hnear : ∀ n (l : Listener), l.next ≤ b.count → b.behind l ≤ b.window → b.behind l < n →
      b.poll channel l = b.seek channel n l := by
    intro n
    induction n with
    | zero => exact fun l _ _ hn => absurd hn (Nat.not_lt_zero _)
    | succ n ih =>
      intro l hl hbehind hn
      have hcatch := catchUp_of_le hbehind
      rw [seek, receive, if_neg (Nat.not_lt_of_le hbehind)]
      cases hrest : b.unread l with
      | nil =>
        unfold poll
        simp [hrest, hcatch]
      | cons e rest =>
        dsimp only
        split
        · rename_i hchannel
          have hskip : (e :: rest).takeWhile (·.channel != channel) = [] :=
            List.takeWhile_cons_of_neg (by simp [hchannel])
          unfold poll
          simp [hrest, hcatch, hskip]
        · rename_i hchannel
          have hlt : l.next < b.count := by
            have hdrop : b.events.drop l.next = e :: rest := by rw [← hrest, unread_eq hl, hcatch]
            by_contra hge
            rw [List.drop_eq_nil_of_le (by rw [length_events]; omega)] at hdrop
            cases hdrop
          rw [← poll_other hl hbehind hrest hchannel]
          unfold behind at hbehind hn
          exact ih _ hlt (by unfold behind; dsimp only; omega) (by unfold behind; dsimp only; omega)
  by_cases hlag : b.window < b.behind l
  · obtain ⟨m, rfl⟩ : ∃ m, n = m + 1 := ⟨n - 1, by omega⟩
    obtain ⟨hbehind, hpoll⟩ := poll_lagged channel hl hlag
    have hle : (b.catchUp l).next ≤ b.count := Nat.max_le.mpr ⟨hl, Nat.sub_le _ _⟩
    rw [seek, receive, if_pos hlag, ← hpoll]
    exact hnear m _ hle (Nat.le_of_eq hbehind) (by omega)
  · exact hnear n l hl (Nat.le_of_not_lt hlag) (by omega)

end EventBus

end ShellHost
