import Mathlib.Data.List.Basic
import ShellHost.Session.Exchange

/-!
# What becomes of a call

Each operation of an `Exchange`, seen from the call with one number: `call?` after the operation in terms of `call?`
before it. A call that has ended is never touched again.
-/

namespace ShellHost

/-! ## Names -/

/-- With distinct names, what a name stands for is what is listed under it. -/
theorem lookup_eq_some_iff {β : Type} {name : String} {b : β} {l : List (String × β)} (hl : (l.map Prod.fst).Nodup) :
    l.lookup name = some b ↔ (name, b) ∈ l := by
  induction l with
  | nil => simp
  | cons e l ih =>
    obtain ⟨key, b'⟩ := e
    simp only [List.map_cons, List.nodup_cons] at hl
    by_cases hk : name = key
    · subst hk
      have hn : (name, b) ∉ l := fun h => hl.1 (List.mem_map_of_mem h)
      simp [hn, eq_comm]
    · have hne : (name == key) = false := by simpa using hk
      simp [List.lookup_cons, hne, hk, ih hl.2]

theorem lookup_unassign {β : Type} {name other : String} (hne : other ≠ name) (l : List (String × β)) :
    (unassign other l).lookup name = l.lookup name := by
  induction l with
  | nil => rfl
  | cons e l ih =>
    obtain ⟨key, b⟩ := e
    by_cases hk : name = key
    · subst hk
      have hkeep : unassign other ((name, b) :: l) = (name, b) :: unassign other l :=
        List.filter_cons_of_pos (by simpa using Ne.symm hne)
      rw [hkeep, List.lookup_cons_self, List.lookup_cons_self]
    · have hkey : (name == key) = false := by simpa using hk
      rw [List.lookup_cons, hkey, ← ih]
      by_cases ho : key = other
      · rw [unassign, List.filter_cons_of_neg (by simpa using ho)]
        rfl
      · rw [unassign, List.filter_cons_of_pos (by simpa using ho), List.lookup_cons, hkey]
        rfl

theorem lookup_assign {β : Type} (name : String) (b : β) (l : List (String × β)) :
    (assign name b l).lookup name = some b := List.lookup_cons_self

theorem lookup_assign_of_ne {β : Type} {name other : String} (hne : other ≠ name) (b : β) (l : List (String × β)) :
    (assign other b l).lookup name = l.lookup name := by
  have hkey : (name == other) = false := by simpa using Ne.symm hne
  rw [assign, List.lookup_cons, hkey]
  exact lookup_unassign hne l

theorem unassign_eq_self {β : Type} {name : String} {l : List (String × β)} (h : name ∉ l.map Prod.fst) :
    unassign name l = l := by
  refine List.filter_eq_self.mpr fun e he => ?_
  have hne : e.1 ≠ name := fun heq => h (heq ▸ List.mem_map_of_mem he)
  simpa using hne

/-- What stands under a name, and the list without the name. -/
theorem perm_unassign {β : Type} {name : String} {b : β} {l : List (String × β)} (hl : (l.map Prod.fst).Nodup)
    (h : l.lookup name = some b) : l.Perm ((name, b) :: unassign name l) := by
  induction l with
  | nil => simp at h
  | cons e l ih =>
    obtain ⟨key, b'⟩ := e
    simp only [List.map_cons, List.nodup_cons] at hl
    by_cases hk : name = key
    · subst hk
      obtain rfl : b' = b := by simpa using h
      have hkeep : unassign name ((name, b') :: l) = unassign name l := List.filter_cons_of_neg (by simp)
      rw [hkeep, unassign_eq_self hl.1]
    · have hne : (name == key) = false := by simpa using hk
      rw [List.lookup_cons, hne] at h
      have hkey : unassign name ((key, b') :: l) = (key, b') :: unassign name l :=
        List.filter_cons_of_pos (by simpa using Ne.symm hk)
      rw [hkey]
      exact ((ih hl.2 h).cons _).trans (List.Perm.swap _ _ _)

theorem not_mem_unassign {β : Type} (name : String) (l : List (String × β)) :
    name ∉ (unassign name l).map Prod.fst := by
  intro h
  obtain ⟨e, he, hn⟩ := List.mem_map.mp h
  simpa [hn] using (List.mem_filter.mp he).2

namespace Stage

@[simp] theorem inFlight_flying (p : Location) : (flying p).inFlight = true := rfl

@[simp] theorem inFlight_settled (e : Ending) : (settled e).inFlight = false := rfl

@[simp] theorem inFlight_cancelled (p : Location) : (cancelled p).inFlight = false := rfl

@[simp] theorem advance_flying (next : Stage) (p : Location) : (flying p).advance next = next := rfl

@[simp] theorem advance_settled (next : Stage) (e : Ending) : (settled e).advance next = settled e := rfl

@[simp] theorem advance_cancelled (next : Stage) (p : Location) : (cancelled p).advance next = cancelled p := rfl

theorem inFlight_iff {s : Stage} : s.inFlight = true ↔ ∃ p, s = flying p := by
  cases s <;> simp

end Stage

theorem Call.advance_of_ended {c : Call} (h : c.inFlight = false) (next : Stage) : c.advance next = c := by
  obtain ⟨k, q, s⟩ := c
  cases s with
  | flying p => cases h
  | settled e => rfl
  | cancelled p => rfl

namespace Exchange

variable {x : Exchange} {m n : Nat}

/-- How far the call with this number is. -/
def stage? (x : Exchange) (n : Nat) : Option Stage := (x.call? n).map Call.stage

theorem number_of_call? {c : Call} (h : x.call? n = some c) : c.number = n := by
  simpa using List.find?_some h

theorem mem_of_call? {c : Call} (h : x.call? n = some c) : c ∈ x.calls := List.mem_of_find?_eq_some h

/-! ## One call advances -/

theorem call?_setStage (st : Stage) :
    (x.setStage n st).call? m = (x.call? m).map fun c => if m = n then c.advance st else c := by
  unfold call? setStage
  rw [List.find?_map]
  have hp : ((fun c : Call => c.number == m) ∘ fun c => if c.number = n then c.advance st else c)
      = fun c => c.number == m := by
    funext c
    by_cases hc : c.number = n <;> simp [hc, Call.advance]
  rw [hp]
  cases hm : x.calls.find? (fun c => c.number == m) with
  | none => rfl
  | some c =>
    have hc : c.number = m := by simpa using List.find?_some hm
    simp [hc]

theorem stage?_setStage (st : Stage) :
    (x.setStage n st).stage? m = (x.stage? m).map fun s => if m = n then s.advance st else s := by
  unfold stage?
  rw [call?_setStage]
  cases x.call? m with
  | none => rfl
  | some c => by_cases h : m = n <;> simp [h, Call.advance]

@[simp] theorem setStage_endpoint (st : Stage) : (x.setStage n st).endpoint = x.endpoint := rfl

@[simp] theorem setStage_capacity (st : Stage) : (x.setStage n st).capacity = x.capacity := rfl

@[simp] theorem setStage_queued (st : Stage) : (x.setStage n st).queued = x.queued := rfl

@[simp] theorem setStage_waiting (st : Stage) : (x.setStage n st).waiting = x.waiting := rfl

@[simp] theorem setStage_received (st : Stage) : (x.setStage n st).received = x.received := rfl

@[simp] theorem setStage_taken (st : Stage) : (x.setStage n st).taken = x.taken := rfl

@[simp] theorem setStage_numbers (st : Stage) :
    (x.setStage n st).calls.map Call.number = x.calls.map Call.number := by
  unfold setStage
  rw [List.map_map]
  congr 1
  funext c
  by_cases hc : c.number = n <;> simp [hc, Call.advance]

@[simp] theorem setStage_length (st : Stage) : (x.setStage n st).calls.length = x.calls.length := by
  simp [setStage]

/-! ## Several calls end -/

/-- Ending the calls of some envelopes changes nothing but these calls. -/
theorem foldl_finish (fs : List Frame) (e : Ending) (x : Exchange) :
    fs.foldl (fun x f => x.finish f.number e) x
      = { x with calls := (fs.foldl (fun x f => x.finish f.number e) x).calls } := by
  induction fs generalizing x with
  | nil => rfl
  | cons f fs ih =>
    rw [List.foldl_cons, ih]
    rfl

theorem call?_foldl_finish (fs : List Frame) (e : Ending) (x : Exchange) :
    (fs.foldl (fun x f => x.finish f.number e) x).call? m
      = (x.call? m).map fun c => if m ∈ fs.map Frame.number then c.advance (.settled e) else c := by
  induction fs generalizing x with
  | nil => simp
  | cons f fs ih =>
    rw [List.foldl_cons, ih]
    unfold finish
    rw [call?_setStage, Option.map_map]
    congr 1
    funext c
    have hidem : (c.advance (.settled e)).advance (.settled e) = c.advance (.settled e) := by
      refine Call.advance_of_ended ?_ _
      obtain ⟨k, q, s⟩ := c
      cases s <;> rfl
    by_cases hf : m = f.number <;> by_cases hm : m ∈ fs.map Frame.number <;> simp_all

@[simp] theorem foldl_finish_numbers (fs : List Frame) (e : Ending) (x : Exchange) :
    (fs.foldl (fun x f => x.finish f.number e) x).calls.map Call.number = x.calls.map Call.number := by
  induction fs generalizing x with
  | nil => rfl
  | cons f fs ih => rw [List.foldl_cons, ih, finish, setStage_numbers]

/-! ## A new call -/

theorem call?_send (q : Question) (v : Json.Value) :
    (x.send q v).2.call? m = if m = x.nextNumber then some ⟨m, q, x.firstStage⟩ else x.call? m := by
  by_cases hm : m = x.nextNumber
  · subst hm
    simp [send, call?]
  · have hne : (x.nextNumber == m) = false := by simpa using Ne.symm hm
    simp [send, call?, hne, hm]

end Exchange

end ShellHost
