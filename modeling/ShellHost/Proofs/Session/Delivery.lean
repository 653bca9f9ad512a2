import Mathlib.Data.List.DropRight
import Mathlib.Data.List.Infix
import ShellHost.Proofs.Session.Bus
import ShellHost.Proofs.Session.Frames

/-!
# The delivery of events

A listener gets the events of its channel in the order of their publication, each once, but for those that were a
window behind the newest event before the listener had read past them (`Overrun`). The steps of the session decide what
is published (`published`) and what the listener is given (`heard`). One step after another moves the position of the
listener on (`Heard.step`), so what it was given are always the events up to there (`Heard.run`).
-/

namespace ShellHost

open Json

/-- Steps that neither end nor replace the listener of a name. -/
def Step.Keeps {σ : Type} (name : String) : Step σ → Prop
  | .listen _ other _ => other ≠ name
  | .unsubscribe other => other ≠ name
  | _ => True

namespace Session

variable {σ : Type}

/-- The events that a step publishes. -/
def publishes (s : Session σ) : Step σ → List Event
  | .emit es => if s.hostHeld then es else []
  | .publish es => if s.busHeld then es else []
  | _ => []

/-- The events that a run publishes. -/
def published (s : Session σ) : List (Step σ) → List Event
  | [] => []
  | p :: ps => s.publishes p ++ (s.step p).2.published ps

/-- The payload that the listener of a name gets in a step, if it gets one. -/
def hears (name : String) (s : Session σ) (p : Step σ) : List Value :=
  match p, (s.step p).1 with
  | .next other, .payload v => if other = name then [v] else []
  | _, _ => []

/-- The payloads that the listener of a name gets in a run. -/
def heard (name : String) (s : Session σ) : List (Step σ) → List Value
  | [] => []
  | p :: ps => s.hears name p ++ (s.step p).2.heard name ps

/-- How many events the listener of a name has read or passed over. -/
def position (name : String) (s : Session σ) : Nat := ((s.subscriptions.lookup name).map (·.listener.next)).getD 0

/-- At some moment of a run the listener has not read past event `i` of the run, and so many newer ones have been
published. -/
def Overrun (window : Nat) (name : String) (s : Session σ) (qs : List (Step σ)) (i : Nat) : Prop :=
  ∃ ps, ps <+: qs ∧ position name (s.run ps).2 ≤ position name s + i ∧ i + 1 + window ≤ (s.published ps).length

instance (window : Nat) (name : String) (s : Session σ) (qs : List (Step σ)) :
    DecidablePred (Overrun window name s qs) := fun i =>
  decidable_of_iff (∃ ps ∈ qs.inits,
    position name (s.run ps).2 ≤ position name s + i ∧ i + 1 + window ≤ (s.published ps).length)
    (by simp only [List.mem_inits, Overrun])

/-- The payloads of the events of a channel that are not lost. The first event has the number `n`. -/
def audible (channel : String) (lost : Nat → Prop) [DecidablePred lost] (n : Nat) (es : List Event) : List Value :=
  ((es.zipIdx n).filter fun e => e.1.channel = channel ∧ ¬ lost e.2).map (·.1.payload)

/-! ## Events that are not lost -/

section Audible

variable {channel : String} {lost lost' : Nat → Prop} [DecidablePred lost] [DecidablePred lost'] {n : Nat}

theorem audible_append (n : Nat) (es fs : List Event) :
    audible channel lost n (es ++ fs) = audible channel lost n es ++ audible channel lost (n + es.length) fs := by
  rw [audible, List.zipIdx_append, List.filter_append, List.map_append]
  rfl

theorem audible_congr {es : List Event} (h : ∀ i, n ≤ i → i < n + es.length → (lost i ↔ lost' i)) :
    audible channel lost n es = audible channel lost' n es := by
  unfold audible
  congr 1
  refine List.filter_congr fun e he => ?_
  obtain ⟨hle, hlt, -⟩ := List.mem_zipIdx he
  simp only [h e.2 hle hlt]

theorem audible_eq_nil {es : List Event} (h : ∀ e i, (e, i) ∈ es.zipIdx n → e.channel = channel → lost i) :
    audible channel lost n es = [] := by
  unfold audible
  rw [List.map_eq_nil_iff, List.filter_eq_nil_iff]
  rintro ⟨e, i⟩ he
  simpa using h e i he

theorem audible_singleton {e : Event} (hchannel : e.channel = channel) (hkept : ¬ lost n) :
    audible channel lost n [e] = [e.payload] := by
  simp [audible, hchannel, hkept]

/-- If none is lost, all events of the channel are left. -/
theorem audible_kept {es : List Event} (h : ∀ i, n ≤ i → i < n + es.length → ¬ lost i) :
    audible channel lost n es = (es.filter (·.channel = channel)).map (·.payload) := by
  induction es generalizing n with
  | nil => rfl
  | cons e es ih =>
    rw [List.length_cons] at h
    have hrest : audible channel lost (n + 1) es = _ := ih fun i hle hlt => h i (by omega) (by omega)
    have hhead : ¬ lost n := h n (Nat.le_refl _) (by omega)
    rw [← List.singleton_append, audible_append, List.filter_append, List.map_append]
    rw [List.length_singleton, hrest]
    congr 1
    by_cases hchannel : e.channel = channel
    · rw [audible_singleton hchannel hhead]
      simp [hchannel]
    · simp [audible, hchannel]

end Audible

/-! ## One step -/

section Steps

variable {s : Session σ} {p : Step σ} {name channel : String}

theorem act_bus (s : Session σ) (p : Step σ) : (s.act p).2.bus = (s.publish (s.publishes p)).2.bus := by
  by_cases hp : AboutEvents p
  · cases p with
    | dropHost | unsubscribe | dropBus => rfl
    | emit | publish =>
      rw [act, publishes]
      split <;> rfl
    | listen | subscribe =>
      rw [act]
      split <;> rfl
    | next | receive =>
      rw [act]
      split
      · rfl
      · dsimp only
        split <;> rfl
    | _ => exact hp.elim
  · rw [(act_sameEvents hp).bus]
    cases p with
    | emit | publish => exact absurd trivial hp
    | _ => rfl

theorem step_bus (s : Session σ) (p : Step σ) : (s.step p).2.bus = (s.publish (s.publishes p)).2.bus :=
  (settle_sameEvents _).bus.trans (act_bus s p)

theorem step_window (s : Session σ) (p : Step σ) : (s.step p).2.bus.window = s.bus.window := by
  rw [step_bus]
  exact EventBus.window_foldl_publish _ _ _

theorem run_window (s : Session σ) (ps : List (Step σ)) : (s.run ps).2.bus.window = s.bus.window := by
  induction ps generalizing s with
  | nil => rfl
  | cons p ps ih => exact (ih _).trans (step_window s p)

/-- As long as somebody listens, all that is published comes onto the bus. -/
theorem step_events {sub : Subscription} (h : s.subscriptions.lookup name = some sub) (p : Step σ) :
    (s.step p).2.bus.events = s.bus.events ++ s.publishes p := by
  have haudience : s.audience ≠ 0 := by
    unfold audience
    cases hsubs : s.subscriptions with
    | nil => simp [hsubs] at h
    | cons e l => simp
  rw [step_bus, publish, EventBus.foldl_publish haudience, EventBus.events, List.reverse_append, List.reverse_reverse]
  rfl

theorem act_lookup (hp : p.Keeps name) (hne : p ≠ .next name) :
    (s.act p).2.subscriptions.lookup name = s.subscriptions.lookup name := by
  by_cases habout : AboutEvents p
  · cases p with
    | dropHost | dropBus => rfl
    | emit | publish | subscribe =>
      rw [act]
      split <;> rfl
    | receive =>
      rw [act]
      split
      · rfl
      · dsimp only
        split <;> rfl
    | unsubscribe other => exact lookup_unassign hp _
    | listen bridge other c =>
      rw [act]
      split
      · exact lookup_assign_of_ne hp _ _
      · rfl
    | next other =>
      have hother : other ≠ name := fun h => hne (h ▸ rfl)
      rw [act]
      split
      · rfl
      · dsimp only
        split <;> exact lookup_assign_of_ne hother _ _
    | _ => exact habout.elim
  · rw [(act_sameEvents habout).subscriptions]

/-- A listener stays where it is until it is asked for its next event. -/
theorem step_lookup (hp : p.Keeps name) (hne : p ≠ .next name) :
    (s.step p).2.subscriptions.lookup name = s.subscriptions.lookup name :=
  (congrArg (List.lookup name) (settle_sameEvents _).subscriptions).trans (act_lookup hp hne)

theorem hears_of_ne (hne : p ≠ .next name) : s.hears name p = [] := by
  cases p with
  | next other =>
    have hother : other ≠ name := fun h => hne (h ▸ rfl)
    unfold hears
    cases (s.step (.next other)).1 with
    | payload v => exact if_neg hother
    | _ => rfl
  | _ => rfl

/-- Whoever begins to listen stands at the end of what was published. -/
theorem step_listen {bridge : String} (hbridge : bridge ∈ s.bridges) (name channel : String) :
    (s.step (.listen bridge name channel)).2.subscriptions.lookup name = some ⟨channel, s.bus.subscribe⟩ ∧
      (s.step (.listen bridge name channel)).2.bus = s.bus := by
  have hact : s.act (.listen bridge name channel)
      = (.done, { s with subscriptions := assign name ⟨channel, s.bus.subscribe⟩ s.subscriptions }) := by
    rw [act, if_pos (List.contains_iff_mem.mpr hbridge)]
  rw [step_eq hact, (settle_sameEvents _).subscriptions, (settle_sameEvents _).bus]
  exact ⟨lookup_assign _ _ _, rfl⟩

/-- The step that asks for the next event of a listener polls the bus for it. -/
theorem step_next {l : Listener} (h : s.subscriptions.lookup name = some ⟨channel, l⟩) :
    s.hears name (.next name) = (s.bus.poll channel l).1.toList ∧
      (s.step (.next name)).2.subscriptions.lookup name = some ⟨channel, (s.bus.poll channel l).2⟩ ∧
      ((s.step (.next name)).1 = .closed → s.busOpen = false ∧ (s.bus.poll channel l).1 = none) := by
  have hsettle : ∀ t : Session σ, t.settle.subscriptions.lookup name = t.subscriptions.lookup name := fun t =>
    congrArg (List.lookup name) (settle_sameEvents t).subscriptions
  cases hpoll : s.bus.poll channel l with
  | mk r l' =>
    cases r with
    | some v =>
      have hact : s.act (.next name) =
          (.payload v, { s with subscriptions := assign name ⟨channel, l'⟩ s.subscriptions }) := by
        simp only [act, h, hpoll]
      refine ⟨?_, ?_, ?_⟩
      · simp [hears, step, hact]
      · rw [step_eq hact, hsettle]
        exact lookup_assign _ _ _
      · rw [step_eq hact]
        exact fun h => by cases h
    | none =>
      have hact : s.act (.next name) =
          (if s.busOpen then .pending else .closed,
            { s with subscriptions := assign name ⟨channel, l'⟩ s.subscriptions }) := by
        simp only [act, h, hpoll]
      refine ⟨?_, ?_, ?_⟩
      · unfold hears
        rw [step_eq hact]
        cases s.busOpen <;> rfl
      · rw [step_eq hact, hsettle]
        exact lookup_assign _ _ _
      · rw [step_eq hact]
        cases s.busOpen with
        | true => exact fun h => by cases h
        | false => exact fun _ => ⟨rfl, rfl⟩

end Steps

/-! ## Runs -/

section Runs

variable {s : Session σ} {p : Step σ} {ps qs : List (Step σ)} {name channel : String} {window read i : Nat}

theorem run_concat (s : Session σ) (qs : List (Step σ)) (q : Step σ) :
    (s.run (qs ++ [q])).2 = ((s.run qs).2.step q).2 := run_append s qs [q]

theorem published_concat (s : Session σ) (qs : List (Step σ)) (q : Step σ) :
    s.published (qs ++ [q]) = s.published qs ++ (s.run qs).2.publishes q := by
  induction qs generalizing s with
  | nil => exact List.append_nil _
  | cons p ps ih =>
    have hrest := ih (s.step p).2
    rw [List.cons_append, published, hrest, published, List.append_assoc]
    rfl

theorem heard_concat (name : String) (s : Session σ) (qs : List (Step σ)) (q : Step σ) :
    s.heard name (qs ++ [q]) = s.heard name qs ++ (s.run qs).2.hears name q := by
  induction qs generalizing s with
  | nil => exact List.append_nil _
  | cons p ps ih =>
    have hrest := ih (s.step p).2
    rw [List.cons_append, heard, hrest, heard, List.append_assoc]
    rfl

theorem overrun_concat {q : Step σ} :
    Overrun window name s (qs ++ [q]) i ↔ Overrun window name s qs i ∨
      (position name (s.run (qs ++ [q])).2 ≤ position name s + i ∧
        i + 1 + window ≤ (s.published (qs ++ [q])).length) := by
  constructor
  · rintro ⟨ps, hps, h⟩
    rcases List.prefix_concat_iff.mp hps with rfl | hps
    · exact .inr h
    · exact .inl ⟨ps, hps, h⟩
  · rintro (⟨ps, hps, h⟩ | h)
    · exact ⟨ps, hps.trans (List.prefix_append _ _), h⟩
    · exact ⟨_, List.prefix_rfl, h⟩

theorem position_eq {l : Listener} (h : s.subscriptions.lookup name = some ⟨channel, l⟩) : position name s = l.next := by
  rw [position, h]
  rfl

/-- What the listener of a name has been given since it began to listen, when it has read or passed over so many of the
events that were published. -/
structure Heard (channel name : String) (s : Session σ) (qs : List (Step σ)) (read : Nat) : Prop where
  /-- It has read nothing but what was published. -/
  read_le : read ≤ (s.published qs).length
  /-- Its position is behind what it has read. -/
  listening : (s.run qs).2.subscriptions.lookup name = some ⟨channel, ⟨s.bus.count + read⟩⟩
  /-- What was published is on the bus. -/
  events : (s.run qs).2.bus.events = s.bus.events ++ s.published qs
  /-- It was given what was not lost. -/
  heard : s.heard name qs = audible channel (Overrun s.bus.window name s qs) 0 ((s.published qs).take read)
  /-- Of the events before it, those are lost that are a window behind. -/
  lost : ∀ i, read ≤ i → (Overrun s.bus.window name s qs i ↔ i + 1 + s.bus.window ≤ (s.published qs).length)

theorem heard_start (hs : s.subscriptions.lookup name = some ⟨channel, s.bus.subscribe⟩) :
    Heard channel name s [] 0 where
  read_le := Nat.le_refl _
  listening := hs
  events := (List.append_nil _).symm
  heard := rfl
  lost i _ := by
    constructor
    · rintro ⟨ps, hps, -, hlost⟩
      rwa [List.prefix_nil.mp hps] at hlost
    · exact fun hlost => ⟨[], List.prefix_rfl, Nat.le_add_right _ _, hlost⟩

/-- Nothing between the position of the listener and the oldest event that is kept is left to be heard. -/
theorem Heard.at_oldest (h : Heard channel name s qs read) :
    audible channel (Overrun s.bus.window name s qs) 0
        ((s.published qs).take (max read ((s.published qs).length - s.bus.window)))
      = s.heard name qs := by
  have hread := h.read_le
  have hlost := h.lost
  have hheard := h.heard
  set es := s.published qs
  set oldest := max read (es.length - s.bus.window) with holdest
  have hsplit : es.take oldest = es.take read ++ (es.drop read).take (oldest - read) := by
    rw [← List.take_add, Nat.add_sub_cancel' (Nat.le_max_left _ _)]
  have hpassed : audible channel (Overrun s.bus.window name s qs) read ((es.drop read).take (oldest - read)) = [] := by
    refine audible_eq_nil fun e i he _ => ?_
    obtain ⟨hle, hlt, -⟩ := List.mem_zipIdx he
    rw [List.length_take, List.length_drop] at hlt
    exact (hlost i hle).mpr (by omega)
  have hlen : (es.take read).length = read := List.length_take_of_le hread
  rw [hsplit, audible_append, hlen, Nat.zero_add, hpassed, List.append_nil, hheard]

/-- The last events that the listener has not read are those from the oldest on that is kept. -/
theorem Heard.unread (h : Heard channel name s qs read) :
    ((s.published qs).drop read).rtake s.bus.window
      = (s.published qs).drop (max read ((s.published qs).length - s.bus.window)) := by
  have hle := h.read_le
  rw [List.rtake_eq_reverse_take_reverse, List.reverse_take, List.reverse_reverse, List.length_reverse, List.drop_drop,
    List.length_drop]
  congr 1
  omega

/-- With the events that are still kept, all is heard that is not lost. -/
theorem Heard.whole (h : Heard channel name s qs read) :
    s.heard name qs
        ++ ((((s.published qs).drop read).rtake s.bus.window).filter (·.channel = channel)).map (·.payload)
      = audible channel (Overrun s.bus.window name s qs) 0 (s.published qs) := by
  have hread := h.read_le
  have hlost := h.lost
  rw [h.unread, ← h.at_oldest]
  set es := s.published qs
  set oldest := max read (es.length - s.bus.window) with holdest
  have hlen : (es.take oldest).length = oldest := List.length_take_of_le (by omega)
  have hkept : audible channel (Overrun s.bus.window name s qs) oldest (es.drop oldest) = _ :=
    audible_kept fun i hi hend hi' => by
      have hnewer := (hlost i (by omega)).mp hi'
      rw [List.length_drop] at hend
      omega
  conv_rhs => rw [← List.take_append_drop oldest es]
  rw [audible_append, hlen, Nat.zero_add, hkept]

/-- What the bus gives the listener next is the first event of its channel that is kept, or nothing if there is none. -/
theorem Heard.poll (h : Heard channel name s qs read) :
    ∃ r read', (s.run qs).2.bus.poll channel ⟨s.bus.count + read⟩ = (r, ⟨s.bus.count + read'⟩) ∧
      read ≤ read' ∧ read' ≤ (s.published qs).length ∧
      audible channel (Overrun s.bus.window name s qs) 0 ((s.published qs).take read') = s.heard name qs ++ r.toList ∧
      (r = none → read' = (s.published qs).length ∧
        ∀ e ∈ ((s.published qs).drop read).rtake s.bus.window, e.channel ≠ channel) := by
  have hread := h.read_le
  have hlost := h.lost
  have hbefore := h.at_oldest
  rw [h.unread]
  set es := s.published qs
  set b := (s.run qs).2.bus with hb
  set oldest := max read (es.length - s.bus.window) with holdest
  have hcount : b.count = s.bus.count + es.length := by
    rw [← EventBus.length_events, h.events, List.length_append, EventBus.length_events]
  have hwindow : b.window = s.bus.window := run_window s qs
  have hcatch : (b.catchUp ⟨s.bus.count + read⟩).next = s.bus.count + oldest := by
    rw [EventBus.catchUp, hcount, hwindow]
    dsimp only
    omega
  have hevents : b.events.drop (s.bus.count + oldest) = es.drop oldest := by
    rw [h.events, ← EventBus.length_events, List.drop_length_add_append]
  have hlen : (es.take oldest).length = oldest := List.length_take_of_le (by omega)
  obtain ⟨passed, hother, hpoll⟩ := EventBus.poll_cases (b := b) (l := ⟨s.bus.count + read⟩) channel
    (by rw [hcount]; dsimp only; omega)
  rw [hcatch, hevents] at hpoll
  -- what is passed over belongs to other channels
  have hskip : audible channel (Overrun s.bus.window name s qs) 0 (es.take oldest ++ passed) = s.heard name qs := by
    rw [audible_append, hbefore]
    have hnone : audible channel (Overrun s.bus.window name s qs) (0 + (es.take oldest).length) passed = [] :=
      audible_eq_nil fun e i he hchannel =>
        absurd hchannel (hother e (List.fst_mem_of_mem_zipIdx he))
    rw [hnone, List.append_nil]
  rcases hpoll with ⟨hdrop, hpoll⟩ | ⟨e, rest, hdrop, hchannel, hpoll⟩
  · have hall : es.take oldest ++ passed = es := by rw [← hdrop, List.take_append_drop]
    have hlast : oldest + passed.length = es.length := by rw [← hall, List.length_append, hlen]
    refine ⟨none, oldest + passed.length, by rw [hpoll, Nat.add_assoc], by omega, by omega, ?_, fun _ => ⟨hlast, ?_⟩⟩
    · rw [hlast, List.take_length, ← hall, hskip]
      exact (List.append_nil _).symm
    · rwa [hdrop]
  · have hall : es = es.take oldest ++ passed ++ [e] ++ rest := by
      rw [List.append_assoc, List.append_assoc, List.singleton_append, ← hdrop, List.take_append_drop]
    have hnumber : (es.take oldest ++ passed ++ [e]).length = oldest + passed.length + 1 := by
      rw [List.length_append, List.length_append, hlen]
      rfl
    have hlast : oldest + passed.length + 1 ≤ es.length := by
      rw [← hnumber]
      conv_rhs => rw [hall]
      exact (List.sublist_append_left _ _).length_le
    refine ⟨some e.payload, oldest + passed.length + 1, by rw [hpoll, Nat.add_assoc, Nat.add_assoc, Nat.add_assoc],
      by omega, hlast, ?_, fun h => by cases h⟩
    have htake : es.take (oldest + passed.length + 1) = es.take oldest ++ passed ++ [e] := by
      conv_lhs => rw [hall]
      exact List.take_left' hnumber
    have hkept : ¬ Overrun s.bus.window name s qs (0 + (es.take oldest ++ passed).length) := by
      rw [List.length_append, hlen, Nat.zero_add]
      intro hlast
      have hnewer := (hlost _ (by omega)).mp hlast
      omega
    rw [htake, audible_append, hskip, audible_singleton hchannel hkept]
    rfl

/-- One step: the listener stays where it is, or it is given what the bus has for it. -/
theorem Heard.step (hs : s.subscriptions.lookup name = some ⟨channel, s.bus.subscribe⟩)
    (h : Heard channel name s qs read) {q : Step σ} (hq : q.Keeps name) :
    ∃ read', Heard channel name s (qs ++ [q]) read' := by
  have hstart : position name s = s.bus.count := position_eq hs
  have hpublished := published_concat s qs q
  have hevents : (s.run (qs ++ [q])).2.bus.events = s.bus.events ++ s.published (qs ++ [q]) := by
    rw [run_concat, step_events h.listening, h.events, hpublished, List.append_assoc]
  by_cases hnext : q = .next name
  · subst hnext
    obtain ⟨r, read', hpoll, hle, hbound, haudible, -⟩ := h.poll
    obtain ⟨hhears, hlookup, -⟩ := step_next h.listening
    rw [hpoll] at hhears hlookup
    have hsame : s.published (qs ++ [.next name]) = s.published qs := hpublished.trans (List.append_nil _)
    have hposition : position name (s.run (qs ++ [.next name])).2 = s.bus.count + read' := by
      rw [run_concat, position_eq hlookup]
    -- the listener reads on, so no event is lost that was not lost before
    have hlost : ∀ i, Overrun s.bus.window name s (qs ++ [.next name]) i ↔ Overrun s.bus.window name s qs i := by
      intro i
      rw [overrun_concat, hsame, hposition, hstart]
      constructor
      · rintro (h' | ⟨hi, hnewer⟩)
        · exact h'
        · exact (h.lost i (by omega)).mpr hnewer
      · exact .inl
    refine ⟨read', ⟨hsame ▸ hbound, run_concat s qs _ ▸ hlookup, hevents, ?_, fun i hi => ?_⟩⟩
    · rw [heard_concat, hhears, ← haudible, hsame]
      exact audible_congr fun i _ _ => (hlost i).symm
    · rw [hlost, hsame]
      exact h.lost i (by omega)
  · have hlookup := step_lookup (s := (s.run qs).2) hq hnext
    rw [h.listening] at hlookup
    have hposition : position name (s.run (qs ++ [q])).2 = s.bus.count + read := by
      rw [run_concat, position_eq hlookup]
    have hlength : (s.published qs).length ≤ (s.published (qs ++ [q])).length := by
      rw [hpublished, List.length_append]
      exact Nat.le_add_right _ _
    refine ⟨read, ⟨h.read_le.trans hlength, run_concat s qs _ ▸ hlookup, hevents, ?_, fun i hi => ?_⟩⟩
    · rw [heard_concat, hears_of_ne hnext, List.append_nil, h.heard, hpublished, List.take_append_of_le_length h.read_le]
      -- what has been read cannot be lost any more
      refine audible_congr fun i _ hi => ?_
      rw [List.length_take, Nat.min_eq_left h.read_le] at hi
      rw [overrun_concat, hposition, hstart]
      constructor
      · exact .inl
      · rintro (h' | ⟨hi', -⟩)
        · exact h'
        · omega
    · rw [overrun_concat, hposition, hstart, h.lost i hi]
      omega

/-- As long as nobody ends or replaces it, the listener is given the events of its channel that are not lost. -/
theorem Heard.run (hs : s.subscriptions.lookup name = some ⟨channel, s.bus.subscribe⟩) (hkeeps : ∀ q ∈ qs, q.Keeps name) :
    ∃ read, Heard channel name s qs read := by
  induction qs using List.reverseRecOn with
  | nil => exact ⟨0, heard_start hs⟩
  | append_singleton qs q ih =>
    obtain ⟨read, h⟩ := ih fun q' hq' => hkeeps q' (List.mem_append_left _ hq')
    exact h.step hs (hkeeps q (List.mem_append_right _ List.mem_cons_self))

end Runs

/-! ## Delivery -/

/-- Whoever listens to a channel over a bridge is given, in the order of publication, the payloads of the events that
were published on the channel since then: all that it has read past, and together with those among the last `window`
events that it has not read all there were, but for the ones that were overrun. It is told that the bus is closed only
when this is so and it has read everything. -/
theorem events_delivered (host : Host σ) (state : σ) (capacity eventCapacity : Nat) (ps qs : List (Step σ))
    {bridge : String} (hbridge : bridge ∈ ((start host state capacity eventCapacity).run ps).2.bridges)
    (name channel : String) (hkeeps : ∀ q ∈ qs, q.Keeps name) :
    let window := (max 1 eventCapacity).nextPowerOfTwo
    let s := (((start host state capacity eventCapacity).run ps).2.step (.listen bridge name channel)).2
    let t := (s.run qs).2
    let events := s.published qs
    let lost := Overrun window name s qs
    ∃ read ≤ events.length, position name t = position name s + read ∧
      s.heard name qs = audible channel lost 0 (events.take read) ∧
      s.heard name qs ++ (((events.drop read).rtake window).filter (·.channel = channel)).map (·.payload)
        = audible channel lost 0 events ∧
      ((t.step (.next name)).1 = .closed → t.busOpen = false ∧
        position name (t.step (.next name)).2 = position name s + events.length ∧
        ∀ e ∈ (events.drop read).rtake window, e.channel ≠ channel) := by
  intro window s t events lost
  obtain ⟨hs, hbus⟩ := step_listen hbridge name channel
  rw [← hbus] at hs
  have hwindow : s.bus.window = window := (step_window _ _).trans (run_window _ ps)
  obtain ⟨read, h⟩ := Heard.run hs hkeeps
  have hheard := h.heard
  have hwhole := h.whole
  obtain ⟨r, read', hpoll, -, -, -, hnone⟩ := h.poll
  rw [hwindow] at hheard hwhole hnone
  refine ⟨read, h.read_le, ?_, hheard, hwhole, fun hclosed => ?_⟩
  · rw [position_eq h.listening, position_eq hs]
    rfl
  · obtain ⟨-, hlookup, hend⟩ := step_next h.listening
    obtain ⟨hopen, hempty⟩ := hend hclosed
    rw [hpoll] at hempty hlookup
    obtain ⟨hlast, hothers⟩ := hnone hempty
    refine ⟨hopen, ?_, hothers⟩
    rw [position_eq hlookup, position_eq hs, hlast]
    rfl

/-- A session with a window of two, in which somebody listens. -/
def listening : Session Unit := (((start panickingHost () 1 2).run []).2.step (.listen "b" "l" "a")).2

/-- The first of two events on the channel is overrun before the listener asks. A third one comes behind them. -/
def overrunOnce : List (Step Unit) :=
  [.publish [⟨"a", .string "first"⟩, ⟨"b", .null⟩, ⟨"a", .string "second"⟩], .next "l",
    .emit [⟨"a", .string "third"⟩], .dropHost, .dropBus, .dropBridge "b"]

/-- The second event was heard, and the third one is left. -/
theorem second_heard_third_left :
    "b" ∈ ((start panickingHost () 1 2).run []).2.bridges ∧ (∀ q ∈ overrunOnce, q.Keeps "l") ∧
      listening.heard "l" overrunOnce ++ [.string "third"]
        = audible "a" (Overrun 2 "l" listening overrunOnce) 0 (listening.published overrunOnce) := by
  have hbridge : "b" ∈ ((start panickingHost () 1 2).run []).2.bridges := List.mem_singleton_self _
  have hkeeps : ∀ q ∈ overrunOnce, q.Keeps "l" := by simp [overrunOnce, Step.Keeps]
  refine ⟨hbridge, hkeeps, ?_⟩
  obtain ⟨read, -, hposition, -, hwhole, -⟩ :=
    events_delivered panickingHost () 1 2 [] overrunOnce hbridge "l" "a" hkeeps
  have hstart : position "l" listening = 0 := by decide +kernel
  have hnow : position "l" (listening.run overrunOnce).2 = 3 := by decide +kernel
  have hwindow : (max 1 2).nextPowerOfTwo = 2 := by decide +kernel
  obtain rfl : read = 3 := by
    rw [← Nat.zero_add read, ← hstart, ← hnow]
    exact hposition.symm
  have hleft : ((((listening.published overrunOnce).drop 3).rtake 2).filter (·.channel = "a")).map (·.payload)
      = [.string "third"] := by with_unfolding_all rfl
  rw [hwindow] at hwhole
  rw [← hleft]
  exact hwhole

end Session

end ShellHost
