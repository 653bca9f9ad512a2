import Mathlib.Data.List.Induction
import ShellHost.Proofs.Session.Conservation

/-!
# When a call is disconnected

A call ends without a reply in three ways: it is sent when the endpoint is gone, its envelope is in the line or waits
when the endpoint is dropped, or its envelope is taken by hand and discarded. `Lost` says which step of a session does
this to which call, and `disconnected_iff_lost` that nothing else does. So no call is left hanging when the endpoint is
gone, but for those whose envelope somebody still holds in his hands.
-/

namespace ShellHost

open Json Relation

variable {σ : Type}

namespace Exchange

variable {x y : Exchange} {f : Frame} {n m : Nat}

/-- The call with this number ended without a reply. -/
def Dropped (x : Exchange) (n : Nat) : Prop := x.stage? n = some (.settled .dropped)

/-- The call with this number ended without a reply, or it was given up. -/
def Given (x : Exchange) (n : Nat) : Prop := x.Dropped n ∨ ∃ p, x.stage? n = some (.cancelled p)

/-! ## Where a call is dropped -/

/-- A call that is dropped after it advanced was so before, or this is how it ended. -/
theorem dropped_of_setStage {st : Stage} (h : (x.setStage m st).Dropped n) :
    x.Dropped n ∨ (n = m ∧ st = .settled .dropped) := by
  unfold Dropped at h
  rw [stage?_setStage] at h
  obtain ⟨s, hs, hst⟩ := Option.map_eq_some_iff.mp h
  by_cases hn : n = m
  · rw [if_pos hn] at hst
    cases s with
    | flying p => exact Or.inr ⟨hn, by simpa using hst⟩
    | settled e => exact Or.inl (by rw [Dropped, hs]; simpa using hst)
    | cancelled p => simp at hst
  · rw [if_neg hn] at hst
    exact Or.inl (by rw [Dropped, hs, hst])

theorem dropped_of_refill (h : x.refill.Dropped n) : x.Dropped n := by
  unfold refill at h
  split at h
  · exact h
  · split at h
    · rcases dropped_of_setStage h with h | ⟨-, h⟩
      · exact h
      · cases h
    · exact h

theorem dropped_of_receive (hf : x.receive = some (f, y)) (h : y.Dropped n) : x.Dropped n := by
  obtain ⟨rest, -, rfl⟩ := receive_eq_some_iff.mp hf
  rcases dropped_of_setStage (dropped_of_refill h) with h | ⟨-, h⟩
  · exact h
  · cases h

theorem dropped_of_keep {name : String} (h : (x.keep name f).Dropped n) :
    x.Dropped n ∨ ∃ g, x.taken.lookup name = some g ∧ g.number = n := by
  unfold keep at h
  dsimp only at h
  split at h
  · exact Or.inl h
  · rename_i g hg
    rcases dropped_of_setStage h with h | ⟨hn, -⟩
    · exact Or.inl h
    · exact Or.inr ⟨g, hg, hn.symm⟩

theorem dropped_of_abandon (h : (x.abandon m).Dropped n) : x.Dropped n := by
  unfold abandon at h
  split at h
  · rcases dropped_of_setStage h with h | ⟨-, h⟩
    · exact h
    · cases h
  · exact h

theorem dropped_of_dropEndpoint (h : x.dropEndpoint.Dropped n) :
    x.Dropped n ∨ ∃ f ∈ x.queued ++ x.waiting, f.number = n := by
  unfold Dropped at h
  rw [stage?_dropEndpoint] at h
  obtain ⟨s, hs, hst⟩ := Option.map_eq_some_iff.mp h
  split at hst
  · rename_i hn
    exact Or.inr (List.mem_map.mp hn)
  · exact Or.inl (by rw [Dropped, hs, hst])

theorem dropped_of_send {q : Question} {v : Value} (h : (x.send q v).2.Dropped n) :
    x.Dropped n ∨ (x.endpoint = .gone ∧ n = x.nextNumber) := by
  unfold Dropped at h
  rw [stage?_send] at h
  split at h
  · rename_i hn
    refine Or.inr ⟨?_, hn⟩
    by_contra hlive
    rw [firstStage, if_neg hlive] at h
    split at h <;> simp at h
  · exact Or.inl h

/-! ## What becomes of a lost call -/

/-- A call that was in flight or given up is dropped or given up after it is told that no reply will come. -/
theorem given_of_advance {s : Stage} (hx : x.stage? n = some (s.advance (.settled .dropped)))
    (hs : (∃ p, s = .flying p) ∨ ∃ p, s = .cancelled p) : x.Given n := by
  rcases hs with ⟨p, rfl⟩ | ⟨p, rfl⟩
  · exact Or.inl hx
  · exact Or.inr ⟨p, hx⟩

theorem given_of_finish {c : Call} (hc : x.call? n = some c)
    (hst : (∃ p, c.stage = .flying p) ∨ ∃ p, c.stage = .cancelled p) : (x.finish n .dropped).Given n := by
  refine given_of_advance (s := c.stage) ?_ hst
  rw [finish, stage?_setStage, stage?, hc]
  simp

theorem given_of_dropEndpoint (h : x.Inv []) (hf : f ∈ x.queued ++ x.waiting) : x.dropEndpoint.Given f.number := by
  have hcall : ∃ c, x.call? f.number = some c ∧ ((∃ p, c.stage = .flying p) ∨ ∃ p, c.stage = .cancelled p) := by
    rcases List.mem_append.mp hf with hf | hf
    · obtain ⟨c, hc, hat, -⟩ := h.placed.carried .queued f hf
      rcases hat with hst | ⟨hst, -⟩ | ⟨-, hst⟩
      · exact ⟨c, hc, Or.inl ⟨_, hst⟩⟩
      · exact ⟨c, hc, Or.inr ⟨_, hst⟩⟩
      · cases hst
    · obtain ⟨c, hc, hat, -⟩ := h.placed.carried .waiting f hf
      exact ⟨c, hc, Or.inl ⟨_, Stage.at_waiting_iff.mp hat⟩⟩
  obtain ⟨c, hc, hst⟩ := hcall
  refine given_of_advance (s := c.stage) ?_ hst
  rw [stage?_dropEndpoint, stage?, hc, Option.map_some, Option.map_some, if_pos (List.mem_map_of_mem hf)]

/-- A call that ended without a reply or was given up stays so. -/
theorem Given.moves (h : x.Given n) (hs : x.Sound) (hm : Moves x y) : y.Given n := by
  have hkeep : ∀ s : Stage, s.inFlight = false → x.stage? n = some s → y.stage? n = some s := by
    intro s hended hst
    obtain ⟨c, hc, rfl⟩ := Option.map_eq_some_iff.mp hst
    rw [stage?, hm.ended hs hc hended]
    rfl
  rcases h with h | ⟨p, h⟩
  · exact Or.inl (hkeep _ rfl h)
  · exact Or.inr ⟨p, hkeep _ rfl h⟩

end Exchange

namespace Session

open Exchange

variable {s : Session σ} {n : Nat} {p : Step σ}

/-- The step `p` loses the envelope of call `n`: the call is sent too late, its envelope is lost with the endpoint, or
its envelope was taken by hand and is discarded, be it in favour of another one under the same name. -/
inductive Lost (s : Session σ) (n : Nat) : Step σ → Prop where
  /-- The call is sent when the endpoint is gone. -/
  | late {qs : List Inquiry} (hgone : s.endpoint = .gone) (hnew : s.nextNumber ≤ n)
      (hsent : n < (s.step (.ask qs)).2.nextNumber) : Lost s n (.ask qs)
  /-- The endpoint is dropped while the envelope is in the line or waits. -/
  | dropped (hheld : s.endpoint = .held) (hline : ∃ f ∈ s.queued ++ s.waiting, f.number = n) : Lost s n .dropEndpoint
  /-- The host is stopped while the envelope is in the line or waits. -/
  | stopped (hserving : s.endpoint = .serving) (hline : ∃ f ∈ s.queued ++ s.waiting, f.number = n) :
      Lost s n .stopServing
  /-- The envelope was taken, and is discarded. -/
  | discarded {name : String} {f : Frame} (hf : s.taken.lookup name = some f) (hn : f.number = n) :
      Lost s n (.discard name)
  /-- The envelope was taken, and another one is taken under its name. -/
  | replaced {name : String} {f : Frame} (hheld : s.endpoint = .held) (hq : s.queued ≠ [])
      (hf : s.taken.lookup name = some f) (hn : f.number = n) : Lost s n (.take name)

/-! ## Only these steps drop calls -/

theorem dropped_of_serveAll (k : Nat) (s : Session σ) (h : (serveAll k s).Dropped n) : s.Dropped n := by
  induction k generalizing s with
  | zero => exact h
  | succ k ih =>
    unfold serveAll at h
    cases hf : s.receive with
    | none => simpa [hf] using h
    | some fy =>
      rw [hf] at h
      rcases dropped_of_setStage (ih _ h) with h | ⟨-, h⟩
      · exact dropped_of_receive hf h
      · cases h

theorem dropped_of_settle (h : s.settle.Dropped n) : s.Dropped n := by
  unfold settle at h
  split at h
  · dsimp only at h
    split at h
    · exact dropped_of_serveAll _ s h
    · exact dropped_of_serveAll _ s h
  · exact h

theorem inquire_nextNumber (s : Session σ) (q : Inquiry) :
    (s.inquire q).nextNumber = s.nextNumber ∨ (s.inquire q).nextNumber = s.nextNumber + 1 := by
  unfold inquire
  split
  · unfold ask
    split
    · exact Or.inl rfl
    · exact Or.inr rfl
  · exact Or.inl rfl

theorem dropped_of_inquire {q : Inquiry} (h : (s.inquire q).Dropped n) :
    s.Dropped n ∨ (s.endpoint = .gone ∧ n = s.nextNumber) := by
  unfold inquire at h
  split at h
  · unfold ask at h
    split at h
    · exact Or.inl h
    · exact dropped_of_send h
  · exact Or.inl h

theorem dropped_of_foldl_inquire (qs : List Inquiry) (s : Session σ) (h : (qs.foldl inquire s).Dropped n) :
    s.Dropped n ∨ (s.endpoint = .gone ∧ s.nextNumber ≤ n) := by
  induction qs generalizing s with
  | nil => exact Or.inl h
  | cons q qs ih =>
    rcases ih _ h with h | ⟨hgone, hle⟩
    · rcases dropped_of_inquire h with h | ⟨hgone, hn⟩
      · exact Or.inl h
      · exact Or.inr ⟨hgone, Nat.le_of_eq hn.symm⟩
    · refine Or.inr ⟨inquire_endpoint s q ▸ hgone, ?_⟩
      rcases inquire_nextNumber s q with hnext | hnext <;> omega

/-- A call that a step drops was lost by it. -/
theorem lost_of_step (hs : s.Sound) (h : (s.step p).2.Dropped n) : s.Dropped n ∨ Lost s n p := by
  -- settling drops nothing, so the call is dropped by the act itself
  have hlt : n < (s.step p).2.nextNumber := ((sound_step hs p).inv.ordered.lt_of_stage? h).2
  have hact : (s.act p).2.Dropped n := dropped_of_settle h
  by_cases hp : Quiet p
  · rw [act_quiet hp] at hact
    exact Or.inl hact
  cases p with
  | serve =>
    rw [act] at hact
    split at hact
    · exact Or.inl (dropped_of_settle (s := { s with endpoint := .serving }) hact)
    · exact Or.inl hact
  | stopServing =>
    rw [act] at hact
    dsimp only at hact
    split at hact
    · rename_i hserving
      exact (dropped_of_dropEndpoint hact).imp_right (.stopped hserving)
    · exact Or.inl hact
  | dropEndpoint =>
    rw [act] at hact
    dsimp only at hact
    split at hact
    · rename_i hheld
      exact (dropped_of_dropEndpoint hact).imp_right (.dropped hheld)
    · exact Or.inl hact
  | take name =>
    rw [act] at hact
    split at hact
    · rename_i hheld
      cases hf : s.receive with
      | none =>
        rw [hf] at hact
        exact Or.inl hact
      | some fy =>
        obtain ⟨f, y⟩ := fy
        rw [hf] at hact
        rcases dropped_of_keep hact with hy | ⟨g, hg, hn⟩
        · exact Or.inl (dropped_of_receive hf hy)
        · obtain ⟨rest, hq, -⟩ := receive_eq_some_iff.mp hf
          have hne : s.queued ≠ [] := by
            rw [hq]
            exact List.cons_ne_nil _ _
          exact Or.inr (.replaced hheld hne ((receive_frame hf).2.2.2 ▸ hg) hn)
    · exact Or.inl hact
  | respond name text =>
    rw [act] at hact
    split at hact
    · exact Or.inl hact
    · rcases dropped_of_setStage hact with h | ⟨-, h⟩
      · exact Or.inl h
      · cases h
  | reply name =>
    rw [act] at hact
    split at hact
    · exact Or.inl hact
    · split at hact
      · rcases dropped_of_setStage hact with h | ⟨-, h⟩
        · exact Or.inl h
        · cases h
      · exact Or.inl hact
  | discard name =>
    rw [act] at hact
    split at hact
    · exact Or.inl hact
    · rename_i f hf
      rcases dropped_of_setStage hact with h | ⟨hn, -⟩
      · exact Or.inl h
      · exact Or.inr (.discarded hf hn.symm)
  | ask qs =>
    rw [act_ask] at hact
    rcases dropped_of_foldl_inquire qs s hact with h | ⟨hgone, hnew⟩
    · exact Or.inl h
    · exact Or.inr (.late hgone hnew hlt)
  | cancel name =>
    rw [act] at hact
    split at hact
    · exact Or.inl hact
    · exact Or.inl hact
    · exact Or.inl (dropped_of_abandon hact)
  | _ => exact absurd trivial hp

/-! ## A lost call is not answered -/

/-- A question that is asked when the endpoint is gone is dropped at once. -/
theorem dropped_of_inquire_gone {q : Inquiry} (hgone : s.endpoint = .gone) (hnew : s.nextNumber ≤ n)
    (hsent : n < (s.inquire q).nextNumber) : (s.inquire q).Dropped n := by
  unfold inquire at hsent ⊢
  split_ifs at hsent ⊢
  · unfold ask at hsent ⊢
    cases hq : q.question.payload? with
    | none =>
      simp only [hq] at hsent
      omega
    | some v =>
      simp only [hq] at hsent ⊢
      have hn : n = s.nextNumber := by
        have : n < s.nextNumber + 1 := hsent
        omega
      show (s.send q.question v).2.stage? n = _
      rw [stage?_send, if_pos hn, firstStage, if_pos hgone]
  · omega

theorem given_of_foldl_inquire (qs : List Inquiry) (s : Session σ) (hs : s.Sound) (hgone : s.endpoint = .gone)
    (hnew : s.nextNumber ≤ n) (hsent : n < (qs.foldl inquire s).nextNumber) : (qs.foldl inquire s).Given n := by
  induction qs generalizing s with
  | nil =>
    have : n < s.nextNumber := hsent
    omega
  | cons q qs ih =>
    have hs' : (s.inquire q).Sound := (s.inquire_moves q).sound hs
    by_cases hn : n < (s.inquire q).nextNumber
    · exact Given.moves (Or.inl (dropped_of_inquire_gone hgone hnew hn)) hs' (foldl_inquire_moves qs _)
    · exact ih _ hs' ((inquire_endpoint s q).trans hgone) (Nat.le_of_not_lt hn) hsent

/-- A call whose envelope a step loses gets no reply. -/
theorem given_of_lost (hs : s.Sound) (h : Lost s n p) : (s.step p).2.Given n := by
  -- a call that gets no reply by the act itself gets none when the session settles
  have hs' : (s.act p).2.Sound := (act_moves hs p).sound hs
  suffices hact : (s.act p).2.Given n from hact.moves hs' (settle_moves hs')
  cases h with
  | @late qs hgone hnew hsent =>
    rw [act_ask]
    refine given_of_foldl_inquire qs s hs hgone hnew ?_
    have hsettle : (s.step (.ask qs)).2 = qs.foldl inquire s := by
      show (s.act (.ask qs)).2.settle = _
      rw [act_ask, settle_of_ne]
      rw [foldl_inquire_endpoint, hgone]
      exact nofun
    rwa [hsettle] at hsent
  | dropped hheld hline =>
    obtain ⟨f, hf, rfl⟩ := hline
    rw [act, if_pos hheld]
    exact given_of_dropEndpoint hs.inv hf
  | stopped hserving hline =>
    obtain ⟨f, hf, rfl⟩ := hline
    rw [act, if_pos hserving]
    exact given_of_dropEndpoint hs.inv hf
  | @discarded name f hf hn =>
    subst hn
    obtain ⟨c, hc, hst⟩ := hs.inv.call_of_taken hf
    rw [act, hf]
    have hx : { s.toExchange with taken := unassign name s.taken }.call? f.number = some c := hc
    exact given_of_finish hx (hst.imp_left fun hfly => ⟨_, hfly⟩)
  | @replaced name f hheld hq hf hn =>
    subst hn
    obtain ⟨g, rest, hline⟩ := List.exists_cons_of_ne_nil hq
    have hg : s.receive = some (g, (s.pull g rest).refill) := receive_eq_some_iff.mpr ⟨rest, hline, rfl⟩
    have hlookup : (s.pull g rest).refill.taken.lookup name = some f := by rwa [(receive_frame hg).2.2.2]
    obtain ⟨c, hc, hst⟩ := (hs.inv.receive hg).call_of_taken hlookup
    rw [act, if_pos hheld, hg]
    have hkeep : ((s.pull g rest).refill.keep name g).stage? f.number
        = ((s.pull g rest).refill.finish f.number .dropped).stage? f.number := by
      unfold keep
      rw [hlookup]
      rfl
    have hgiven := given_of_finish hc (hst.imp_left fun hfly => ⟨_, hfly⟩)
    unfold Given Dropped at hgiven ⊢
    rwa [hkeep]

/-! ## Runs -/

/-- In every run, a call that was dropped was lost by one of the steps. -/
theorem lost_of_run (hs : s.Sound) (ps : List (Step σ)) (h : (s.run ps).2.Dropped n) :
    s.Dropped n ∨ ∃ ps₁ p ps₂, ps = ps₁ ++ p :: ps₂ ∧ Lost (s.run ps₁).2 n p := by
  induction ps generalizing s with
  | nil => exact Or.inl h
  | cons p ps ih =>
    rcases ih (sound_step hs p) h with h | ⟨ps₁, p', ps₂, rfl, hlost⟩
    · exact (lost_of_step hs h).imp_right fun hlost => ⟨[], p, ps, rfl, hlost⟩
    · exact Or.inr ⟨p :: ps₁, p', ps₂, rfl, hlost⟩

/-- In every run, a call that was lost by one of the steps gets no reply. -/
theorem given_of_run (hs : s.Sound) {ps₁ : List (Step σ)} (ps₂ : List (Step σ)) (h : Lost (s.run ps₁).2 n p) :
    (s.run (ps₁ ++ p :: ps₂)).2.Given n := by
  rw [run_append]
  have hs₁ : (s.run ps₁).2.Sound := (run_moves hs ps₁).sound hs
  exact (given_of_lost hs₁ h).moves (sound_step hs₁ p) (run_moves (sound_step hs₁ p) ps₂)

/-- When the endpoint is gone, the envelope of a call in flight is in somebody's hands. -/
theorem taken_of_gone (hs : s.Sound) (hgone : s.endpoint = .gone) {c : Call} (hc : c ∈ s.calls)
    (hfly : c.inFlight = true) : ∃ name f, s.taken.lookup name = some f ∧ f.number = c.number := by
  obtain ⟨hq, hw⟩ := hs.inv.ordered.gone hgone
  exact taken_of_empty hs hq hw hc hfly

/-- In every run, a call that was not given up is disconnected, without a text that came back, exactly if one of the
steps lost its envelope. When the endpoint is gone, only those calls are in flight whose envelope was taken and neither
answered nor discarded, and they can still be answered. -/
theorem disconnected_iff_lost (host : Host σ) (state : σ) (capacity eventCapacity : Nat) (ps : List (Step σ)) :
    let s₀ := start host state capacity eventCapacity
    let s := (s₀.run ps).2
    (∀ c ∈ s.calls, (∀ p, c.stage ≠ .cancelled p) →
      (c.stage = .settled .dropped ∧ c.answer? = some (c.question.failed .disconnected) ↔
        ∃ ps₁ p ps₂, ps = ps₁ ++ p :: ps₂ ∧ Lost (s₀.run ps₁).2 c.number p)) ∧
    (s.endpoint = .gone → ∀ c ∈ s.calls, c.inFlight = true →
      ∃ name f, s.taken.lookup name = some f ∧ f.number = c.number ∧
        ∀ text, (s.step (.respond name text)).1 = .responded true ∧
          (s.step (.respond name text)).2.call? c.number = some { c with stage := .settled (.replied text) }) := by
  intro s₀ s
  have hs₀ : s₀.Sound := sound_start host state capacity eventCapacity
  have hs : s.Sound := sound_run host state capacity eventCapacity ps
  have hrest : s.Rest := rest_run host state capacity eventCapacity ps
  refine ⟨fun c hc hkept => ?_, fun hgone c hc hfly => ?_⟩
  · have hcall : s.call? c.number = some c := hs.inv.ordered.call?_of_mem hc
    constructor
    · rintro ⟨hdropped, -⟩
      have hd : s.Dropped c.number := by rw [Dropped, stage?, hcall, Option.map_some, hdropped]
      rcases lost_of_run hs₀ ps hd with h | h
      · cases h
      · exact h
    · rintro ⟨ps₁, p, ps₂, hps, hlost⟩
      have hgiven : s.Given c.number := by
        have h := given_of_run hs₀ ps₂ hlost
        rwa [← hps] at h
      unfold Given Dropped at hgiven
      rw [stage?, hcall, Option.map_some] at hgiven
      rcases hgiven with hst | ⟨p, hst⟩
      · have hdropped : c.stage = .settled .dropped := Option.some.inj hst
        exact ⟨hdropped, by rw [Call.answer?, hdropped]⟩
      · exact absurd (Option.some.inj hst) (hkept p)
  · obtain ⟨name, f, hf, hn⟩ := taken_of_gone hs hgone hc hfly
    have hcall : s.call? f.number = some c := hs.inv.ordered.call?_eq_some_iff.mpr ⟨hc, hn.symm⟩
    exact ⟨name, f, hf, hn, fun text => hn ▸ respond_in_flight hrest hf hcall hfly text⟩

/-- The endpoint is dropped while one envelope is taken and another one is in the line. -/
theorem disconnected_of_dropEndpoint :
    let s := ((start panickingHost () 1 8).run (askThrice ++ [.dropEndpoint])).2
    (∃ c ∈ s.calls, c.number = 2 ∧ c.answer? = some (c.question.failed .disconnected)) ∧
      ∃ name, (s.step (.respond name "no reply")).1 = .responded true := by
  intro s
  obtain ⟨hlost, htaken⟩ := disconnected_iff_lost panickingHost () 1 8 (askThrice ++ [.dropEndpoint])
  have hsecond : ⟨2, .raw "add" .null, .settled .dropped⟩ ∈ s.calls := List.mem_cons_of_mem _ List.mem_cons_self
  have hfirst : ⟨1, .raw "add" .null, .flying .taken⟩ ∈ s.calls :=
    List.mem_cons_of_mem _ (List.mem_cons_of_mem _ List.mem_cons_self)
  obtain ⟨-, hanswer⟩ := (hlost _ hsecond nofun).mpr
    ⟨askThrice, .dropEndpoint, [], rfl, .dropped rfl ⟨⟨2, _⟩, List.mem_cons_self, rfl⟩⟩
  obtain ⟨name, f, -, -, hrespond⟩ := htaken rfl _ hfirst rfl
  exact ⟨⟨_, hsecond, rfl, hanswer⟩, name, (hrespond "no reply").1⟩

end Session

end ShellHost
