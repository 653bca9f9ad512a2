import ShellHost.Proofs.Host.Crossing
import ShellHost.Proofs.Session.Correlation
import ShellHost.Proofs.Session.Frames
import ShellHost.Proofs.Session.Serving

/-!
# The line as a detour

A question that goes over the line to a serving host is answered as the host's handlers answer when they are asked
directly in the same state, unless what is said nests too deep (`Crossed`). This holds of every envelope that the loop
takes, be it alone in the line or behind others (`crossed_turn`), and so of a question that is asked of a session at rest
(`crossed_ask`).
-/

namespace ShellHost

open Json

variable {σ : Type}

/-- Each turn of a host begins in the state that the turns before it left. -/
theorem Host.turns_getElem? (h : Host σ) {fs : List Frame} {i : Nat} {f : Frame} (hf : fs[i]? = some f) (s : σ) :
    (h.turns fs s).1[i]? = some ⟨f, (h.handleText f.text (h.turns (fs.take i) s).2).1⟩ ∧
      (h.turns (fs.take (i + 1)) s).2 = (h.handleText f.text (h.turns (fs.take i) s).2).2 := by
  induction fs generalizing i s with
  | nil => cases hf
  | cons g fs ih =>
    cases i with
    | zero =>
      cases hf
      exact ⟨rfl, rfl⟩
    | succ i => exact ih hf (h.handleText g.text s).2

namespace Session

open Exchange

variable {s : Session σ} {p : Step σ}

/-! ## What serving leaves alone -/

theorem serveAll_handles (n : Nat) (s : Session σ) : (serveAll n s).handles = s.handles := by
  induction n generalizing s with
  | zero => rfl
  | succ n ih =>
    unfold serveAll
    split
    · rfl
    · exact ih _

theorem settle_handles (s : Session σ) : s.settle.handles = s.handles := by
  have h := serveAll_handles (s.queued.length + s.waiting.length) s
  unfold settle
  split
  · dsimp only
    split <;> exact h
  · rfl

theorem ready_host (s : Session σ) (p : Step σ) : (s.ready p).host = s.host := by
  cases p with
  | serve =>
    rw [ready]
    split <;> rfl
  | _ => exact s.act_host _

theorem run_host (s : Session σ) (ps : List (Step σ)) : (s.run ps).2.host = s.host := by
  induction ps generalizing s with
  | nil => rfl
  | cons p ps ih =>
    have hstep : (s.step p).2.host = s.host := (settle_host _).trans (s.act_host p)
    exact (ih _).trans hstep

/-! ## Turns -/

/-- The state that the host has come to before turn `i` of a step. -/
def stateBefore (s : Session σ) (p : Step σ) (i : Nat) : σ :=
  (s.host.turns (((s.ready p).queued ++ (s.ready p).waiting).take i) (s.ready p).state).2

theorem state_step (hs : s.Sound) (hserving : (s.ready p).endpoint = .serving) :
    (s.step p).2.state = s.stateBefore p ((s.ready p).queued ++ (s.ready p).waiting).length := by
  have hhandled := (answered_step hs hserving).handled
  rw [ready_host] at hhandled
  rw [stateBefore, List.take_length, hhandled]

/-- The envelope that stands at a place of the line has its turn, and the reply of the turn goes to its call. -/
theorem replied_turn (hs : s.Sound) (hserving : (s.ready p).endpoint = .serving) {i : Nat} {f : Frame}
    (hf : ((s.ready p).queued ++ (s.ready p).waiting)[i]? = some f) {c : Call}
    (hc : (s.ready p).call? f.number = some c) (hfly : c.inFlight = true) :
    ((s.step p).2.call? f.number).bind Call.answer?
        = some (c.question.readReply c.id (s.host.handleText f.text (s.stateBefore p i)).1) ∧
      s.stateBefore p (i + 1) = (s.host.handleText f.text (s.stateBefore p i)).2 := by
  have h := answered_step hs hserving
  obtain ⟨hturn, hnext⟩ := s.host.turns_getElem? hf (s.ready p).state
  have hhandled := h.handled
  rw [ready_host] at hhandled
  rw [hhandled] at hturn
  have hreply := h.responded _ (List.mem_of_getElem? hturn)
  obtain ⟨q, hq⟩ := Stage.inFlight_iff.mp hfly
  refine ⟨?_, hnext⟩
  rw [hreply, hc]
  simp [Call.advance, hq, Call.answer?, Call.id, stateBefore]

/-- The envelope in the line is that of its call. -/
theorem envelope_of_line (hs : s.Sound) {f : Frame} (hf : f ∈ s.queued ++ s.waiting) {c : Call}
    (hc : s.call? f.number = some c) :
    ∃ v, c.question.payload? = some v ∧ f.text = (Envelope.mk c.id c.question.channel v).render := by
  obtain ⟨q, c', hc', -, htext⟩ := carries_of_line hs hf
  obtain rfl : c = c' := Option.some.inj (hc.symm.trans hc')
  obtain ⟨e, he, hrender⟩ := Option.map_eq_some_iff.mp htext
  obtain ⟨v, hv, rfl⟩ := Option.map_eq_some_iff.mp he
  exact ⟨v, hv, hrender.symm⟩

/-- In each turn the call of the envelope is answered as over the line. -/
theorem crossed_turn (hs : s.Sound) (hserving : (s.ready p).endpoint = .serving) {i : Nat} {f : Frame}
    (hf : ((s.ready p).queued ++ (s.ready p).waiting)[i]? = some f) {c : Call}
    (hc : (s.ready p).call? f.number = some c) (hfly : c.inFlight = true) :
    ∃ a, ((s.step p).2.call? f.number).bind Call.answer? = some a ∧
      Crossed s.host.handlers (s.stateBefore p i) c.question a (s.stateBefore p (i + 1)) := by
  have hready : (s.ready p).Sound := (ready_moves hs p).sound hs
  obtain ⟨v, hv, htext⟩ := envelope_of_line hready (List.mem_of_getElem? hf) hc
  obtain ⟨hanswer, hnext⟩ := replied_turn hs hserving hf hc hfly
  refine ⟨_, hanswer, ?_⟩
  rw [hnext, htext]
  exact crossed_handleText s.host c.id _ c.question hv

/-! ## One question at rest -/

theorem ready_ask {i : Inquiry} (hbridge : i.bridge ∈ s.bridges) : s.ready (.ask [i]) = s.ask i.name i.question := by
  have hlisted : s.bridges.contains i.bridge = true := List.contains_iff_mem.mpr hbridge
  rw [ready, act_ask, List.foldl_cons, List.foldl_nil, inquire, if_pos hlisted]
  simp

/-- A question that is asked of a session with an empty line stands alone in it. -/
theorem ask_alone (hq : s.queued = []) (hw : s.waiting = []) (hend : s.endpoint ≠ .gone) {q : Question} {v : Value}
    (hv : q.payload? = some v) (name : String) :
    (s.ask name q).queued ++ (s.ask name q).waiting
        = [⟨s.nextNumber, (Envelope.mk s.nextNumber.toUInt64 q.channel v).render⟩] ∧
      (s.ask name q).call? s.nextNumber = some ⟨s.nextNumber, q, .flying .queued⟩ ∧
      (s.ask name q).handles = assign name (.call s.nextNumber) s.handles := by
  have hstage : s.firstStage = .flying .queued := by
    rw [firstStage, if_neg hend, hq]
    exact if_pos s.capacity_pos
  have hcall : (s.send q v).2.call? s.nextNumber = some ⟨s.nextNumber, q, .flying .queued⟩ := by
    rw [call?_send, if_pos rfl, hstage]
  rw [ask, hv]
  exact ⟨by simp [send, hstage, hq, hw], hcall, rfl⟩

/-- The answer of a call that has ended is fetched, and the host does not notice. -/
theorem step_fetch (hrest : s.Rest) {name : String} {n : Nat} (hhandle : s.handles.lookup name = some (.call n))
    {a : Answer} (ha : (s.call? n).bind Call.answer? = some a) :
    (s.step (.fetch name)).1 = .answer a ∧ (s.step (.fetch name)).2.state = s.state := by
  have hact : s.act (.fetch name) = (.answer a, { s with handles := unassign name s.handles }) := by
    rw [act, hhandle]
    dsimp only
    rw [ha]
  have hrest' : Rest { s with handles := unassign name s.handles } := hrest
  rw [step_eq hact]
  refine ⟨rfl, ?_⟩
  rcases settle_of_rest hrest' with h | h <;> rw [h]

/-- Who asks a session at rest can fetch at once what the host replies to the envelope. -/
theorem replied_ask (hs : s.Sound) (hrest : s.Rest) (hserving : s.endpoint = .serving) {i : Inquiry}
    (hbridge : i.bridge ∈ s.bridges) {v : Value} (hv : i.question.payload? = some v) :
    let id := s.nextNumber.toUInt64
    let reply := s.host.handleText (Envelope.mk id i.question.channel v).render s.state
    (s.run [.ask [i], .fetch i.name]).1 = [.done, .answer (i.question.readReply id reply.1)] ∧
      (s.run [.ask [i], .fetch i.name]).2.state = reply.2 := by
  intro id reply
  obtain ⟨hq, hw⟩ := hrest hserving
  have hend : s.endpoint ≠ .gone := by
    rw [hserving]
    exact nofun
  obtain ⟨hline, hcall, hhandles⟩ := ask_alone hq hw hend hv i.name
  rw [← ready_ask hbridge] at hline hcall hhandles
  have hserves : (s.ready (.ask [i])).endpoint = .serving := (ready_endpoint hserving _).mpr nofun
  -- the envelope of the question is the first one and the last one
  have hfirst : ((s.ready (.ask [i])).queued ++ (s.ready (.ask [i])).waiting)[0]?
      = some ⟨s.nextNumber, (Envelope.mk id i.question.channel v).render⟩ := by
    rw [hline]
    rfl
  obtain ⟨hanswer, hnext⟩ := replied_turn hs hserves hfirst hcall rfl
  have hbefore : s.stateBefore (.ask [i]) 0 = s.state := by
    show (s.ready (.ask [i])).state = s.state
    rw [ready_ask hbridge, ask, hv]
  have hafter : s.stateBefore (.ask [i]) 1 = (s.step (.ask [i])).2.state := by
    rw [state_step hs hserves, hline]
    rfl
  rw [hafter, hbefore] at hnext
  rw [hbefore] at hanswer
  have hlookup : (s.step (.ask [i])).2.handles.lookup i.name = some (.call s.nextNumber) := by
    rw [step_eq_settle hs, settle_handles, hhandles]
    simp [assign]
  have hdone : (s.step (.ask [i])).1 = .done := by
    rw [step, act, if_pos (List.contains_iff_mem.mpr hbridge)]
  obtain ⟨hfetched, hkept⟩ := step_fetch (rest_step hs _) hlookup hanswer
  have hrun : s.run [.ask [i], .fetch i.name]
      = ([(s.step (.ask [i])).1, ((s.step (.ask [i])).2.step (.fetch i.name)).1],
        ((s.step (.ask [i])).2.step (.fetch i.name)).2) := rfl
  rw [hrun, hdone, hfetched, hkept, hnext]
  exact ⟨rfl, rfl⟩

/-- Who asks a session at rest can fetch the answer at once. -/
theorem crossed_ask (hs : s.Sound) (hrest : s.Rest) (hserving : s.endpoint = .serving) {i : Inquiry}
    (hbridge : i.bridge ∈ s.bridges) {v : Value} (hv : i.question.payload? = some v) :
    ∃ a, (s.run [.ask [i], .fetch i.name]).1 = [.done, .answer a] ∧
      Crossed s.host.handlers s.state i.question a (s.run [.ask [i], .fetch i.name]).2.state := by
  obtain ⟨hanswer, hstate⟩ := replied_ask hs hrest hserving hbridge hv
  refine ⟨_, hanswer, ?_⟩
  rw [hstate]
  exact crossed_handleText s.host _ s.state i.question hv

/-- In every run, who asks a serving host over a bridge gets what its handlers answer when they are asked directly in the
same state, and the host is in the same state afterwards (`Crossed`), unless the request or the result nests more than
125 deep. This holds of a question that is asked alone, and of each envelope that the loop takes out of the line in a
step. -/
theorem bridge_transparent (host : Host σ) (state : σ) (capacity eventCapacity : Nat) (ps : List (Step σ)) :
    let s := ((start host state capacity eventCapacity).run ps).2
    (s.endpoint = .serving → ∀ i : Inquiry, i.bridge ∈ s.bridges → ∀ v, i.question.payload? = some v →
      ∃ a, (s.run [.ask [i], .fetch i.name]).1 = [.done, .answer a] ∧
        Crossed host.handlers s.state i.question a (s.run [.ask [i], .fetch i.name]).2.state) ∧
    ∀ p, (s.ready p).endpoint = .serving →
      ∀ n f, ((s.ready p).queued ++ (s.ready p).waiting)[n]? = some f →
        ∀ c, (s.ready p).call? f.number = some c → c.inFlight = true →
          ∃ a, ((s.step p).2.call? f.number).bind Call.answer? = some a ∧
            Crossed host.handlers (s.stateBefore p n) c.question a (s.stateBefore p (n + 1)) := by
  intro s
  have hs : s.Sound := sound_run host state capacity eventCapacity ps
  have hrest : s.Rest := rest_run host state capacity eventCapacity ps
  have hhost : s.host = host := run_host _ ps
  rw [← hhost]
  exact ⟨fun hserving i hbridge v hv => crossed_ask hs hrest hserving hbridge hv,
    fun p hserving n f hf c hc hfly => crossed_turn hs hserving hf hc hfly⟩

/-! ## The settings -/

/-- Settings that the shell reads from its file come over a bridge unless they nest 126 or 127 deep, and deeper ones are
not read at all. -/
theorem settings_cross (file : SettingsFile) (disk : Disk) (capacity eventCapacity : Nat) (ps : List (Step Disk)) :
    let s := ((start (.shell file) disk capacity eventCapacity).run ps).2
    s.endpoint = .serving → ∀ name, ∀ bridge ∈ s.bridges, ∀ v,
      ((Handlers.shell file).dispatchTyped .loadConfig s.state).1 = .ok v → v.FloatFree →
        v.depth ≤ nestingLimit ∧
        ∃ a, (s.run [.ask [⟨name, bridge, .typed .loadConfig⟩], .fetch name]).1 = [.done, .answer a] ∧
          (v.depth ≤ crossingDepth → a = .value (.ok v)) ∧ (crossingDepth < v.depth → a.Malformed) := by
  intro s hserving name bridge hbridge v hv hfree
  have hs : s.Sound := sound_run _ disk capacity eventCapacity ps
  have hrest : s.Rest := rest_run _ disk capacity eventCapacity ps
  have hhost : s.host = .shell file := run_host _ ps
  obtain ⟨a, ha, hcrossed⟩ :=
    crossed_ask hs hrest hserving (i := ⟨name, bridge, .typed .loadConfig⟩) hbridge rfl
  rw [hhost] at hcrossed
  obtain ⟨hlimit, hsame, hdeep⟩ := hcrossed.settings hv hfree
  exact ⟨hlimit, a, ha, hsame, hdeep⟩

/-- Settings that nest one level deeper than `n`. -/
def nestedSettings (n : Nat) : Value := .object [("nested", nest n)]

/-- A disk that holds nothing but settings. -/
def settingsDisk (v : Value) : Disk := ⟨[(["config.json"], .file (Utf8.encodeString v.render))], []⟩

/-- A shell that serves with these settings. -/
def settingsServed (v : Value) : Session Disk :=
  ((start (.shell (.inDirectory "/")) (settingsDisk v) 8 8).run [.serve]).2

/-- A shell that is asked for a new project and for these settings before it serves. -/
def settingsAsked (v : Value) : Session Disk :=
  ((start (.shell (.inDirectory "/")) (settingsDisk v) 8 8).run
    [.ask [⟨"p", "b", .typed .addNewProject⟩, ⟨"c", "b", .typed .loadConfig⟩]]).2

theorem nestedSettings_plain (n : Nat) : (nestedSettings n).Plain :=
  ⟨⟨floatFree_nest n, trivial⟩, ⟨List.pairwise_singleton _ _, sorted_nest n, trivial⟩⟩

theorem depth_nestedSettings (n : Nat) : (nestedSettings n).depth = n + 1 := by
  simp [nestedSettings, Value.depth, membersDepth, depth_nest]

theorem settings_read {v : Value} (hplain : v.Plain) (hdepth : v.depth ≤ nestingLimit) :
    ((Handlers.shell (.inDirectory "/")).dispatchTyped .loadConfig (settingsDisk v)).1 = .ok v := by
  have hexists : (settingsDisk v).exists? (SettingsFile.inDirectory "/").path = true := by rfl
  have hread : (settingsDisk v).read (SettingsFile.inDirectory "/").path = .ok (Utf8.encodeString v.render) := by rfl
  have hparse : Value.parse v.render = .ok v := (reads_value hplain.floatFree hplain.sorted).parse hdepth
  have hload : (SettingsFile.inDirectory "/").loadOrCreateValue (settingsDisk v) = (.ok v, settingsDisk v) :=
    SettingsFile.loadOrCreateValue_of_text hexists hread hparse
  rw [Handlers.shell_loadConfig, hload]
  rfl

/-- Settings that nest 125 deep arrive, be it that they are asked for alone or behind another question. -/
theorem settings_at_limit :
    ((settingsServed (nestedSettings 124)).run [.ask [⟨"c", "b", .typed .loadConfig⟩], .fetch "c"]).1
        = [.done, .answer (.value (.ok (nestedSettings 124)))] ∧
      (((settingsAsked (nestedSettings 124)).step .serve).2.call? 2).bind Call.answer?
        = some (.value (.ok (nestedSettings 124))) := by
  have hplain := nestedSettings_plain 124
  have hdepth : (nestedSettings 124).depth ≤ crossingDepth := by
    rw [depth_nestedSettings]
    decide
  have hread := settings_read hplain (hdepth.trans (by decide))
  have harrives : ∀ {d a d'}, Crossed (.shell (.inDirectory "/")) d (.typed .loadConfig) a d' →
      d = settingsDisk (nestedSettings 124) → a = .value (.ok (nestedSettings 124)) := by
    rintro d a d' hcrossed rfl
    exact (hcrossed.settings hread hplain.floatFree).2.1 hdepth
  refine ⟨?_, ?_⟩
  · obtain ⟨hask, -⟩ := bridge_transparent (.shell (.inDirectory "/")) (settingsDisk (nestedSettings 124)) 8 8 [.serve]
    obtain ⟨a, ha, hcrossed⟩ := hask rfl ⟨"c", "b", .typed .loadConfig⟩ (List.mem_singleton.mpr rfl) _ rfl
    obtain rfl := harrives hcrossed rfl
    exact ha
  · obtain ⟨-, hturns⟩ := bridge_transparent (.shell (.inDirectory "/")) (settingsDisk (nestedSettings 124)) 8 8
      [.ask [⟨"p", "b", .typed .addNewProject⟩, ⟨"c", "b", .typed .loadConfig⟩]]
    obtain ⟨_, -, hfirst⟩ := hturns .serve rfl 0 ⟨1, _⟩ rfl _ rfl rfl
    obtain ⟨a, ha, hsecond⟩ := hturns .serve rfl 1 ⟨2, _⟩ rfl _ rfl rfl
    have hstate := (hfirst.typed .addNewProject rfl).1
    obtain rfl := harrives hsecond hstate
    exact ha

/-- Settings that nest 126 deep are read by the shell, and do not arrive. -/
theorem settings_lost :
    ((Handlers.shell (.inDirectory "/")).dispatchTyped .loadConfig (settingsServed (nestedSettings 125)).state).1
        = .ok (nestedSettings 125) ∧
      ∃ a, ((settingsServed (nestedSettings 125)).run [.ask [⟨"c", "b", .typed .loadConfig⟩], .fetch "c"]).1
          = [.done, .answer a] ∧ a ≠ .value (.ok (nestedSettings 125)) := by
  have hplain := nestedSettings_plain 125
  have hdepth : (nestedSettings 125).depth ≤ nestingLimit := by
    rw [depth_nestedSettings]
    decide
  have hdeep : crossingDepth < (nestedSettings 125).depth := by
    rw [depth_nestedSettings]
    decide
  have hread := settings_read hplain hdepth
  obtain ⟨-, a, ha, -, hlost⟩ := settings_cross (.inDirectory "/") (settingsDisk (nestedSettings 125)) 8 8 [.serve] rfl
    "c" "b" (List.mem_singleton.mpr rfl) _ hread hplain.floatFree
  obtain ⟨reason, rfl⟩ := hlost hdeep
  exact ⟨hread, _, ha, nofun⟩

end Session

end ShellHost
