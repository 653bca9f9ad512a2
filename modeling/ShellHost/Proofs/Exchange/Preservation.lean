import ShellHost.Proofs.Exchange.Custody

/-!
# Each operation keeps the envelopes in order

The operations of an `Exchange` keep `Inv` and `Room`. An envelope passes through the `hand` on its way out of the line:
`pull` and `untake` put it there, `put` and `finish` take it from there.
-/

namespace ShellHost.Exchange

open Json

variable {x : Exchange} {hand : List Frame} {f : Frame} {rest : List Frame} {name : String} {p : Location} {n : Nat}

/-! ## Moving on in the line -/

theorem at_queued_of_waiting (s : Stage) (h : s.At .waiting) : (s.advance (.flying .queued)).At .queued := by
  rw [Stage.at_waiting_iff.mp h]
  exact Or.inl rfl

theorem at_taken_of_queued (s : Stage) (h : s.At .queued) : (s.advance (.flying .taken)).At .taken := by
  rcases h with rfl | ⟨rfl, -⟩ | ⟨-, h⟩
  · exact Or.inl rfl
  · exact Or.inr (Or.inr ⟨rfl, rfl⟩)
  · cases h

/-- The first envelope of the line comes out. -/
theorem Inv.pull (h : Inv hand x) (hq : x.queued = f :: rest) : Inv (f :: hand) (x.pull f rest) := by
  have hhist : (x.pull f rest).history = x.history := by simp [history, Exchange.pull, hq]
  have hline : f ∈ x.queued ++ x.waiting := by simp [hq]
  -- no other envelope has the number of the first one
  have hnodup := h.ordered.nodup_line
  rw [hq] at hnodup
  simp only [List.cons_append, List.map_cons, List.nodup_cons] at hnodup
  have hother : ∀ g ∈ rest ++ x.waiting, g.number ≠ f.number := fun g hg he =>
    hnodup.1 (he ▸ List.mem_map_of_mem hg)
  refine ⟨h.placed.setStage rfl ?_ ?_ ?_, h.ordered.setStage rfl rfl rfl ?_ ?_ ?_, h.out.names, ?_, ?_⟩
  · intro p g hg
    have hgf : g ≠ f := fun he => hg (by rw [he])
    cases p with
    | waiting => rfl
    | queued => simp [place, Exchange.pull, hq, hgf]
    | taken => simp [place, Exchange.pull, hgf]
  · intro p g hg hn
    cases p with
    | waiting => exact absurd hn (hother g (List.mem_append_right _ hg))
    | queued => exact absurd hn (hother g (List.mem_append_left _ hg))
    | taken =>
      rcases List.mem_cons.mp hg with rfl | hg
      · exact (h.placed.carried .queued g (by simp [place, hq])).advance at_taken_of_queued
      · exact absurd hn (h.out_ne_line hg hline)
  · intro p hp
    injection hp with hp
    subst hp
    exact ⟨f, List.mem_cons_self, rfl⟩
  · rw [hhist]
  · exact fun m hm => Or.inl (hhist ▸ hm)
  · intro hg
    simpa [hq] using (h.ordered.gone hg).1
  · show ((f :: x.place hand .taken).map Frame.number).Nodup
    rw [List.map_cons, List.nodup_cons]
    refine ⟨fun hm => ?_, h.out.nodup⟩
    obtain ⟨g, hg, he⟩ := List.mem_map.mp hm
    exact h.out_ne_line hg hline he
  · intro g hg
    rcases List.mem_cons.mp hg with rfl | hg
    · exact List.mem_cons_self
    · exact List.mem_cons_of_mem _ (h.out.received g hg)

/-- The first envelope that waits gets the room that became free. -/
theorem Inv.refill (h : Inv hand x) : Inv hand x.refill := by
  unfold Exchange.refill
  split
  · exact h
  rename_i f rest hw
  split
  swap
  · exact h
  have hhist : ({ x with queued := x.queued ++ [f], waiting := rest }.setStage f.number (.flying .queued)).history
      = x.history := by simp [history, hw]
  have hline : f ∈ x.queued ++ x.waiting := by simp [hw]
  -- no other envelope has the number of the one that moves
  have hnodup := h.ordered.nodup_line
  rw [hw, (List.perm_middle.map Frame.number).nodup_iff, List.map_cons, List.nodup_cons] at hnodup
  have hother : ∀ g ∈ x.queued ++ rest, g.number ≠ f.number := fun g hg he =>
    hnodup.1 (he ▸ List.mem_map_of_mem hg)
  refine ⟨h.placed.setStage rfl ?_ ?_ ?_, h.ordered.setStage rfl rfl rfl ?_ ?_ ?_, h.out.names, h.out.nodup,
    h.out.received⟩
  · intro p g hg
    have hgf : g ≠ f := fun he => hg (by rw [he])
    cases p with
    | waiting => simp [place, hw, hgf]
    | queued => simp [place, hgf]
    | taken => rfl
  · intro p g hg hn
    cases p with
    | waiting => exact absurd hn (hother g (List.mem_append_right _ hg))
    | queued =>
      rcases List.mem_append.mp hg with hg | hg
      · exact absurd hn (hother g (List.mem_append_left _ hg))
      · obtain rfl := List.mem_singleton.mp hg
        exact (h.placed.carried .waiting g (by simp [place, hw])).advance at_queued_of_waiting
    | taken => exact absurd hn (h.out_ne_line hg hline)
  · intro p hp
    injection hp with hp
    subst hp
    exact ⟨f, List.mem_append_right _ List.mem_cons_self, rfl⟩
  · rw [hhist]
  · exact fun m hm => Or.inl (hhist ▸ hm)
  · intro hg
    simpa [hw] using (h.ordered.gone hg).2

/-! ## Answering -/

/-- The call of an envelope in the hand ends. -/
theorem Inv.finish (h : Inv (f :: hand) x) (e : Ending) : Inv hand (x.finish f.number e) := by
  have hnodup := h.out.nodup
  simp only [place, List.cons_append, List.map_cons, List.nodup_cons] at hnodup
  have hf : f ∈ x.place (f :: hand) .taken := List.mem_cons_self
  refine ⟨h.placed.setStage rfl ?_ ?_ ?_, h.ordered.setStage rfl rfl rfl (List.Sublist.refl _) ?_ ?_, h.out.names,
    hnodup.2, ?_⟩
  · intro p g hg
    have hgf : g ≠ f := fun he => hg (by rw [he])
    cases p with
    | waiting => rfl
    | queued => rfl
    | taken => simp [place, Exchange.finish, hgf]
  · intro p g hg hn
    cases p with
    | waiting => exact absurd hn.symm (h.out_ne_line hf (List.mem_append_right _ hg))
    | queued => exact absurd hn.symm (h.out_ne_line hf (List.mem_append_left _ hg))
    | taken => exact absurd (hn ▸ List.mem_map_of_mem hg) hnodup.1
  · intro p hp
    cases hp
  · exact fun m hm => Or.inl hm
  · intro hg
    exact ⟨(h.ordered.gone hg).1, (h.ordered.gone hg).2, rfl⟩
  · exact fun g hg => h.out.received g (List.mem_cons_of_mem _ hg)

/-- An envelope is no longer kept under its name. -/
theorem Inv.untake (h : Inv hand x) (hf : x.taken.lookup name = some f) :
    Inv (f :: hand) { x with taken := unassign name x.taken } := by
  have hperm : ((f :: hand) ++ (unassign name x.taken).map Prod.snd).Perm (hand ++ x.taken.map Prod.snd) := by
    have hmap := ((perm_unassign h.out.names hf).map Prod.snd).symm
    exact List.perm_middle.symm.trans (hmap.append_left hand)
  have ho := h.ordered
  refine ⟨h.placed.congr rfl ?_, ⟨ho.numbers, ho.next, ho.order, ho.history_lt, ho.covered, ho.gone⟩, ?_, ?_, ?_⟩
  · intro p g
    cases p with
    | waiting => rfl
    | queued => rfl
    | taken => exact hperm.mem_iff
  · exact h.out.names.sublist (List.filter_sublist.map _)
  · exact (hperm.map Frame.number).nodup_iff.mpr h.out.nodup
  · exact fun g hg => h.out.received g (hperm.mem_iff.mp hg)

/-- An envelope in the hand is kept under a new name. -/
theorem Inv.put (h : Inv (f :: hand) x) (hn : name ∉ x.taken.map Prod.fst) :
    Inv hand { x with taken := (name, f) :: x.taken } := by
  have hperm : (hand ++ f :: x.taken.map Prod.snd).Perm ((f :: hand) ++ x.taken.map Prod.snd) := List.perm_middle
  have ho := h.ordered
  refine ⟨h.placed.congr rfl ?_, ⟨ho.numbers, ho.next, ho.order, ho.history_lt, ho.covered, ho.gone⟩,
    List.nodup_cons.mpr ⟨hn, h.out.names⟩, ?_, ?_⟩
  · intro p g
    cases p with
    | waiting => rfl
    | queued => rfl
    | taken => exact hperm.mem_iff
  · exact (hperm.map Frame.number).nodup_iff.mpr h.out.nodup
  · exact fun g hg => h.out.received g (hperm.mem_iff.mp hg)

/-- An envelope in the hand is kept under a name. -/
theorem Inv.keep (h : Inv [f] x) (name : String) : Inv [] (x.keep name f) := by
  unfold Exchange.keep
  cases hl : x.taken.lookup name with
  | none =>
    have hn : name ∉ x.taken.map Prod.fst := by
      intro hm
      obtain ⟨⟨k, g⟩, hg, rfl⟩ := List.mem_map.mp hm
      have := (lookup_eq_some_iff h.out.names).mpr hg
      simp [hl] at this
    have heq : assign name f x.taken = (name, f) :: x.taken := congrArg (List.cons _) (unassign_eq_self hn)
    simpa only [heq] using h.put hn
  | some old => exact ((h.untake hl).finish .dropped).put (not_mem_unassign name x.taken)

/-- A call ends whose envelope was kept under a name. -/
theorem Inv.giveBack (h : Inv [] x) (hf : x.taken.lookup name = some f) (e : Ending) :
    Inv [] (x.giveBack name f e).2 := (h.untake hf).finish e

/-! ## Giving up -/

/-- A call is given up. Its envelope stays where it is, unless it waits. -/
theorem Inv.abandon (h : Inv hand x) (n : Nat) : Inv hand (x.abandon n) := by
  unfold Exchange.abandon
  split
  swap
  · exact h
  rename_i c k q p hc
  have hcall : x.stage? n = some (.flying p) := by simp [stage?, hc]
  have hsub : (x.waiting.filter (·.number != n)).Sublist x.waiting := List.filter_sublist
  refine ⟨h.placed.setStage rfl ?_ ?_ ?_, h.ordered.setStage rfl rfl rfl ?_ ?_ ?_, h.out.names, h.out.nodup,
    h.out.received⟩
  · intro p' g hg
    cases p' with
    | waiting => simp [place, hg]
    | queued => rfl
    | taken => rfl
  · -- the envelope is in the line or came out: there it stays, and the call that was given up still knows it
    intro p' g hg hn
    subst hn
    have hwait : p' ≠ .waiting := by
      rintro rfl
      simpa using (List.mem_filter.mp hg).2
    have hmem : g ∈ x.place hand p' := by
      cases p' with
      | waiting => exact absurd rfl hwait
      | queued => exact hg
      | taken => exact hg
    obtain ⟨c, hc', hat, htext⟩ := h.placed.carried p' g hmem
    have hst : c.stage = .flying p := by simpa [stage?, hc'] using hcall
    obtain rfl : p = p' := Stage.flying_at_iff.mp (hst ▸ hat)
    refine (h.placed.carried p g hmem).advance fun s hs => ?_
    rcases hs with rfl | ⟨rfl, hp⟩ | ⟨rfl, rfl⟩
    · exact Or.inr (Or.inl ⟨rfl, hwait⟩)
    · exact Or.inr (Or.inl ⟨rfl, hp⟩)
    · exact Or.inr (Or.inr ⟨rfl, rfl⟩)
  · intro p' hp'
    cases hp'
  · exact (List.Sublist.refl _).append ((List.Sublist.append (List.Sublist.refl _) hsub).map _)
  · intro m hm
    rcases List.mem_append.mp hm with hm | hm
    · exact Or.inl (List.mem_append_left _ hm)
    obtain ⟨g, hg, rfl⟩ := List.mem_map.mp hm
    rcases List.mem_append.mp hg with hg | hg
    · exact Or.inl (List.mem_append_right _ (List.mem_map_of_mem (List.mem_append_left _ hg)))
    by_cases hgn : g.number = n
    · -- the envelope that no longer waits belongs to the call that was given up
      obtain ⟨c, hc', hat, -⟩ := h.placed.carried .waiting g hg
      have hst : c.stage = .flying p := by simpa [stage?, hgn ▸ hc'] using hcall
      have hp : p = .waiting := Stage.flying_at_iff.mp (hst ▸ hat)
      refine Or.inr (Or.inl ?_)
      show (x.setStage n (.cancelled p)).stage? g.number = some (.cancelled .waiting)
      rw [stage?_setStage, hgn, hcall, hp]
      simp
    · exact Or.inl (List.mem_append_right _ (List.mem_map_of_mem
        (List.mem_append_right _ (List.mem_filter.mpr ⟨hg, by simpa using hgn⟩))))
  · intro hg
    obtain ⟨h1, h2⟩ := h.ordered.gone hg
    exact ⟨h1, by rw [setStage_waiting, h2]; rfl, rfl⟩

/-! ## Sending -/

/-- The envelope of a question that is sent now. -/
def newFrame (q : Question) (v : Value) (x : Exchange) : Frame :=
  ⟨x.nextNumber, (Envelope.mk x.nextNumber.toUInt64 q.channel v).render⟩

theorem stage?_send (q : Question) (v : Value) :
    (x.send q v).2.stage? n = if n = x.nextNumber then some x.firstStage else x.stage? n := by
  unfold stage?
  rw [call?_send]
  split <;> rfl

theorem mem_place_send (q : Question) (v : Value) (g : Frame) :
    g ∈ (x.send q v).2.place hand p ↔
      g ∈ x.place hand p ∨ (x.firstStage = .flying p ∧ g = x.newFrame q v) := by
  cases p with
  | waiting => by_cases h : x.firstStage = .flying .waiting <;> simp [place, send, newFrame, h]
  | queued => by_cases h : x.firstStage = .flying .queued <;> simp [place, send, newFrame, h]
  | taken =>
    have h : x.firstStage ≠ .flying .taken := by
      unfold firstStage
      split_ifs <;> simp
    simp [place, send, h]

/-- The new envelope is the last one, unless there is no endpoint. -/
theorem history_send (hr : x.Room) (q : Question) (v : Value) :
    (x.send q v).2.history = x.history ++ if x.endpoint = .gone then [] else [x.nextNumber] := by
  by_cases hg : x.endpoint = .gone
  · have hst : x.firstStage = .settled .dropped := by simp [firstStage, hg]
    simp [history, send, hst, hg]
  by_cases hroom : x.queued.length < x.capacity
  · have hst : x.firstStage = .flying .queued := by simp [firstStage, hg, hroom]
    have hw : x.waiting = [] := by
      by_contra hne
      have := hr.full hne
      omega
    simp [history, send, hst, hg, hw]
  · have hst : x.firstStage = .flying .waiting := by simp [firstStage, hg, hroom]
    simp [history, send, hst, hg]

theorem Ordered.send (h : x.Ordered) (hr : x.Room) (q : Question) (v : Value) : (x.send q v).2.Ordered := by
  have hhist := history_send hr q v
  refine
    { numbers := ?_
      next := ?_
      order := ?_
      history_lt := ?_
      covered := ?_
      gone := ?_ }
  · show x.nextNumber :: x.calls.map Call.number = (List.range' 1 (x.calls.length + 1)).reverse
    rw [h.numbers, h.next, List.range'_1_concat, List.reverse_append, List.reverse_singleton,
      List.singleton_append, Nat.add_comm]
  · show x.nextNumber + 1 = x.calls.length + 1 + 1
    rw [h.next]
  · rw [hhist, List.pairwise_append]
    refine ⟨h.order, by split <;> simp, fun a ha b hb => ?_⟩
    split at hb
    · simp at hb
    · rw [List.mem_singleton.mp hb]
      exact h.history_lt a ha
  · intro m hm
    show m < x.nextNumber + 1
    rw [hhist] at hm
    rcases List.mem_append.mp hm with hm | hm
    · have := h.history_lt m hm
      omega
    · split at hm
      · simp at hm
      · rw [List.mem_singleton.mp hm]
        omega
  · intro m h0 hm
    unfold Covered
    rw [hhist]
    by_cases hmn : m = x.nextNumber
    · by_cases hg : x.endpoint = .gone
      · refine Or.inr (Or.inr ⟨hg, fun r hr => ?_⟩)
        rw [hmn]
        exact h.history_lt r (List.mem_append_left _ (List.mem_reverse.mpr hr))
      · exact Or.inl (by simp [hg, hmn])
    · have hlt : m < x.nextNumber := by
        have : m < x.nextNumber + 1 := hm
        omega
      rcases h.covered m h0 hlt with hc | hc | hc
      · exact Or.inl (List.mem_append_left _ hc)
      · exact Or.inr (Or.inl (by rw [stage?_send, if_neg hmn, hc]))
      · exact Or.inr (Or.inr hc)
  · intro hg
    have hst : x.firstStage = .settled .dropped := if_pos hg
    simpa [Exchange.send, hst] using h.gone hg

/-- A question is sent. -/
theorem Inv.send {q : Question} {v : Value} (h : Inv hand x) (hr : x.Room) (hq : q.payload? = some v) :
    Inv hand (x.send q v).2 := by
  refine ⟨⟨?_, ?_⟩, h.ordered.send hr q v, h.out.names, h.out.nodup, h.out.received⟩
  · intro p g hg
    rcases (mem_place_send q v g).mp hg with hg | ⟨hst, rfl⟩
    · obtain ⟨c, hc, hat, htext⟩ := h.placed.carried p g hg
      have hne : g.number ≠ x.nextNumber := by
        have := (h.ordered.lt_of_call? hc).2
        omega
      exact ⟨c, by rw [call?_send, if_neg hne, hc], hat, htext⟩
    · refine ⟨⟨x.nextNumber, q, x.firstStage⟩, by rw [call?_send]; simp [newFrame], Or.inl hst, ?_⟩
      simp [Call.envelope?, hq, Call.id, newFrame]
  · intro p m hm
    rw [stage?_send] at hm
    split at hm
    · rename_i hmn
      exact ⟨x.newFrame q v, (mem_place_send q v _).mpr (Or.inr ⟨by simpa using hm, rfl⟩), hmn.symm⟩
    · obtain ⟨g, hg, he⟩ := h.placed.located p m hm
      exact ⟨g, (mem_place_send q v g).mpr (Or.inl hg), he⟩

/-! ## The endpoint -/

theorem dropEndpoint_eq (x : Exchange) :
    x.dropEndpoint = { x with endpoint := .gone, queued := [], waiting := [], calls := x.dropEndpoint.calls } :=
  foldl_finish _ _ _

theorem call?_dropEndpoint :
    x.dropEndpoint.call? n = (x.call? n).map fun c =>
      if n ∈ (x.queued ++ x.waiting).map Frame.number then c.advance (.settled .dropped) else c :=
  call?_foldl_finish _ _ _

theorem stage?_dropEndpoint :
    x.dropEndpoint.stage? n = (x.stage? n).map fun s =>
      if n ∈ (x.queued ++ x.waiting).map Frame.number then s.advance (.settled .dropped) else s := by
  unfold stage?
  rw [call?_dropEndpoint]
  cases x.call? n with
  | none => rfl
  | some c =>
    simp only [Option.map_some]
    split_ifs <;> rfl

theorem Placed.dropEndpoint (h : Inv hand x) : x.dropEndpoint.Placed hand := by
  have htaken : x.dropEndpoint.place hand .taken = x.place hand .taken := by rw [dropEndpoint_eq]; rfl
  constructor
  · intro p g hg
    cases p with
    | waiting => rw [dropEndpoint_eq] at hg; cases hg
    | queued => rw [dropEndpoint_eq] at hg; cases hg
    | taken =>
      rw [htaken] at hg
      obtain ⟨c, hc, hat, htext⟩ := h.placed.carried .taken g hg
      have hne : g.number ∉ (x.queued ++ x.waiting).map Frame.number := by
        intro hm
        obtain ⟨f, hf, he⟩ := List.mem_map.mp hm
        exact h.out_ne_line hg hf he.symm
      exact ⟨c, by rw [call?_dropEndpoint, hc, Option.map_some, if_neg hne], hat, htext⟩
  · intro p m hm
    rw [stage?_dropEndpoint] at hm
    obtain ⟨s, hs, hst⟩ := Option.map_eq_some_iff.mp hm
    split at hst
    · cases s <;> simp at hst
    · rename_i hline
      obtain ⟨g, hg, rfl⟩ := h.placed.located p m (hst ▸ hs)
      cases p with
      | waiting => exact absurd (List.mem_map_of_mem (List.mem_append_right _ hg)) hline
      | queued => exact absurd (List.mem_map_of_mem (List.mem_append_left _ hg)) hline
      | taken => exact ⟨g, htaken ▸ hg, rfl⟩

theorem Ordered.dropEndpoint (h : x.Ordered) : x.dropEndpoint.Ordered := by
  have hnumbers : x.dropEndpoint.calls.map Call.number = x.calls.map Call.number := foldl_finish_numbers _ _ _
  have hlength : x.dropEndpoint.calls.length = x.calls.length := by
    simpa using congrArg List.length hnumbers
  have hhist : x.dropEndpoint.history = x.received.reverse := by
    rw [dropEndpoint_eq]
    simp [history]
  have hsub : x.received.reverse.Sublist x.history := List.sublist_append_left _ _
  have hnext : x.dropEndpoint.nextNumber = x.nextNumber := by rw [dropEndpoint_eq]
  have hreceived : x.dropEndpoint.received = x.received := by rw [dropEndpoint_eq]
  have hgone : x.dropEndpoint.endpoint = .gone := by rw [dropEndpoint_eq]
  refine
    { numbers := by rw [hnumbers, hlength]; exact h.numbers
      next := by rw [hnext, hlength]; exact h.next
      order := by rw [hhist]; exact h.order.sublist hsub
      history_lt := fun m hm => hnext ▸ h.history_lt m (hsub.subset (hhist ▸ hm))
      covered := ?_
      gone := fun _ => by rw [dropEndpoint_eq]; exact ⟨rfl, rfl⟩ }
  intro m h0 hm
  unfold Covered
  rw [hhist, hreceived]
  rcases h.covered m h0 (hnext ▸ hm) with hc | hc | ⟨-, hr⟩
  · rcases List.mem_append.mp hc with hc | hc
    · exact Or.inl hc
    · obtain ⟨f, hf, rfl⟩ := List.mem_map.mp hc
      exact Or.inr (Or.inr ⟨hgone, fun r hr => h.received_lt hr hf⟩)
  · refine Or.inr (Or.inl ?_)
    rw [stage?_dropEndpoint, hc, Option.map_some]
    split_ifs <;> rfl
  · exact Or.inr (Or.inr ⟨hgone, hr⟩)

/-- What came out stays, and the calls of the rest end. -/
theorem Inv.dropEndpoint (h : Inv hand x) : Inv hand x.dropEndpoint := by
  have htaken : x.dropEndpoint.taken = x.taken := by rw [dropEndpoint_eq]
  have hout : x.dropEndpoint.place hand .taken = x.place hand .taken := by rw [place, place, htaken]
  have hreceived : x.dropEndpoint.received = x.received := by rw [dropEndpoint_eq]
  refine ⟨Placed.dropEndpoint h, h.ordered.dropEndpoint, ?_, ?_, ?_⟩
  · rw [htaken]
    exact h.out.names
  · rw [hout]
    exact h.out.nodup
  · rw [hout, hreceived]
    exact h.out.received

/-- The host begins to serve. -/
theorem Inv.serve (h : Inv hand x) (hheld : x.endpoint = .held) : Inv hand { x with endpoint := .serving } := by
  have ho := h.ordered
  refine ⟨h.placed.congr rfl fun p g => Iff.rfl, ⟨ho.numbers, ho.next, ho.order, ho.history_lt, ?_, nofun⟩,
    h.out.names, h.out.nodup, h.out.received⟩
  intro m h0 hm
  rcases ho.covered m h0 hm with hc | hc | ⟨hg, -⟩
  · exact Or.inl hc
  · exact Or.inr (Or.inl hc)
  · simp [hheld] at hg

/-- The host stops serving when nothing is left in the line. -/
theorem Inv.close (h : Inv hand x) (hq : x.queued = []) (hw : x.waiting = []) :
    Inv hand { x with endpoint := .gone } := by
  have ho := h.ordered
  refine ⟨h.placed.congr rfl fun p g => Iff.rfl,
    ⟨ho.numbers, ho.next, ho.order, ho.history_lt, ?_, fun _ => ⟨hq, hw⟩⟩, h.out.names, h.out.nodup, h.out.received⟩
  intro m h0 hm
  rcases ho.covered m h0 hm with hc | hc | ⟨-, hr⟩
  · exact Or.inl hc
  · exact Or.inr (Or.inl hc)
  · exact Or.inr (Or.inr ⟨rfl, hr⟩)

/-! ## Room -/

/-- The room depends on the line alone. -/
theorem Room.congr {y : Exchange} (h : x.Room) (hq : y.queued = x.queued) (hw : y.waiting = [] ∨ y.waiting = x.waiting)
    (hc : y.capacity = x.capacity) : y.Room := by
  refine ⟨by rw [hq, hc]; exact h.le, fun hne => ?_⟩
  rcases hw with hw | hw
  · exact absurd hw hne
  · rw [hq, hc]
    exact h.full (hw ▸ hne)

theorem Room.send (h : x.Room) (q : Question) (v : Value) : (x.send q v).2.Room := by
  have hle := h.le
  have hcap : (x.send q v).2.capacity = x.capacity := rfl
  by_cases hg : x.endpoint = .gone
  · have hst : x.firstStage = .settled .dropped := if_pos hg
    refine h.congr ?_ (Or.inr ?_) rfl <;> simp [Exchange.send, hst]
  by_cases hroom : x.queued.length < x.capacity
  · have hst : x.firstStage = .flying .queued := by simp [firstStage, hg, hroom]
    have hq : (x.send q v).2.queued = x.queued ++ [x.newFrame q v] := by simp [Exchange.send, hst, newFrame]
    have hw : (x.send q v).2.waiting = [] := by
      by_contra hne
      have := h.full (by simpa [Exchange.send, hst] using hne)
      omega
    refine ⟨?_, fun hne => absurd hw hne⟩
    rw [hq, hcap, List.length_append, List.length_singleton]
    omega
  · have hst : x.firstStage = .flying .waiting := by simp [firstStage, hg, hroom]
    have hq : (x.send q v).2.queued = x.queued := by simp [Exchange.send, hst]
    constructor
    · rw [hq, hcap]
      exact hle
    · intro _
      rw [hq, hcap]
      omega

/-- An envelope that came out leaves room for the first one that waits. -/
theorem Room.receive (h : x.Room) (hq : x.queued = f :: rest) : (x.pull f rest).refill.Room := by
  have hle := h.le
  have hfull := h.full
  rw [hq, List.length_cons] at hle hfull
  unfold Exchange.refill
  cases hw : x.waiting with
  | nil =>
    have hw' : (x.pull f rest).waiting = [] := hw
    simp only [hw']
    exact ⟨by show rest.length ≤ x.capacity; omega, fun hne => absurd hw' hne⟩
  | cons g more =>
    have hw' : (x.pull f rest).waiting = g :: more := hw
    have hlen := hfull (by simp [hw])
    have hroom : (x.pull f rest).queued.length < (x.pull f rest).capacity := by
      show rest.length < x.capacity
      omega
    simp only [hw', if_pos hroom]
    constructor
    · show (rest ++ [g]).length ≤ x.capacity
      simp only [List.length_append, List.length_singleton]
      omega
    · intro _
      show (rest ++ [g]).length = x.capacity
      simp only [List.length_append, List.length_singleton]
      omega

end ShellHost.Exchange
