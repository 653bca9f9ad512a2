import ShellHost.Proofs.Host.Dialogs
import ShellHost.Proofs.Host.Noting
import ShellHost.Proofs.Session.Transparency

/-!
# Dialogs over a bridge

Who asks a serving host for a dialog has it opened once, as it was asked for, and gets what the picker answers
(`dialogs_answered`). The host notes what it does, so that its notes tell that the picker was called, what for, and that
nothing else was done. A request that cannot be written is answered at once, and nothing but the answer is left of it
(`unsent_ask`).
-/

namespace ShellHost.Session

open Json

variable {σ : Type} {s : Session σ} {p : Step σ}

/-! ## Requests that cannot be written -/

theorem settle_of_bridge (hrest : s.Rest) {bridge : String} (hbridge : bridge ∈ s.bridges) : s.settle = s := by
  by_cases hserving : s.endpoint = .serving
  · obtain ⟨hq, hw⟩ := hrest hserving
    have hsenders : 0 < s.senders := s.senders_pos_iff.mpr (.inl (List.ne_nil_of_mem hbridge))
    rw [settle_of_empty hserving hq hw]
    exact if_neg (Nat.ne_of_gt hsenders)
  · exact settle_of_ne hserving

theorem unassign_assign {β : Type} (name : String) (b : β) (l : List (String × β)) :
    unassign name (assign name b l) = unassign name l := by
  simp [unassign, assign]

/-- A question that cannot be written is answered at once, and afterwards the session is what it was, but for the name
that the answer had. -/
theorem unsent_ask (hrest : s.Rest) {i : Inquiry} (hbridge : i.bridge ∈ s.bridges) (hnone : i.question.payload? = none) :
    s.run [.ask [i], .fetch i.name]
      = ([.done, .answer (i.question.failed (.malformedMessage DialogRequest.unwritable))],
        { s with handles := unassign i.name s.handles }) := by
  let a := i.question.failed (.malformedMessage DialogRequest.unwritable)
  let asked : Session σ := { s with handles := assign i.name (.unsent a) s.handles }
  let fetched : Session σ := { s with handles := unassign i.name s.handles }
  have hlisted : s.bridges.contains i.bridge = true := List.contains_iff_mem.mpr hbridge
  have hask : s.act (.ask [i]) = (.done, asked) := by
    rw [act, if_pos hlisted, inquire, if_pos hlisted, ask, hnone]
  have hfetch : asked.act (.fetch i.name) = (.answer a, fetched) := by
    have hlookup : asked.handles.lookup i.name = some (.unsent a) := by simp [asked, assign]
    have hnames : unassign i.name asked.handles = unassign i.name s.handles := unassign_assign _ _ _
    rw [act, hlookup]
    show (Report.answer a, { asked with handles := unassign i.name asked.handles }) = _
    rw [hnames]
  have hasked : s.step (.ask [i]) = (.done, asked) := by
    rw [step_eq hask, settle_of_bridge (s := asked) hrest hbridge]
  have hfetched : asked.step (.fetch i.name) = (.answer a, fetched) := by
    rw [step_eq hfetch, settle_of_bridge (s := fetched) hrest hbridge]
  rw [run, hasked]
  dsimp only
  rw [run, hfetched]
  rfl

/-! ## Requests that are sent -/

/-- The host asks the picker for the dialog that was asked for, and its result is the answer. -/
theorem replied_dialog (host : Host σ) {r : DialogRequest} {v : Value} (hv : (Question.dialog r).payload? = some v)
    (id : UInt64) (state : σ) :
    let reply := host.handleText (Envelope.mk id (Question.dialog r).channel v).render state
    (Question.dialog r).readReply id reply.1 = .paths (dialogResult (host.picker.pick r state).1) ∧
      reply.2 = (host.picker.pick r state).2 := by
  intro reply
  have hreply : reply = ((Reply.mk id (Host.dialogOutcome (host.picker.pick r state).1)).render,
      (host.picker.pick r state).2) := host.handleText_dialog hv id state
  rw [hreply]
  exact ⟨Question.readReply_dialog r id _, rfl⟩

theorem dialog_ask (hs : s.Sound) (hrest : s.Rest) (hserving : s.endpoint = .serving) {r : DialogRequest}
    (hwritable : r.Writable) (name : String) {bridge : String} (hbridge : bridge ∈ s.bridges) :
    let asked := s.run [.ask [⟨name, bridge, .dialog r⟩], .fetch name]
    asked.1 = [.done, .answer (.paths (dialogResult (s.host.picker.pick r s.state).1))] ∧
      asked.2.state = (s.host.picker.pick r s.state).2 := by
  intro asked
  obtain ⟨path, hpath⟩ := DialogRequest.writable_iff.mp hwritable
  have hv := Question.payload?_dialog hpath
  obtain ⟨hanswer, hstate⟩ := replied_ask hs hrest hserving (i := ⟨name, bridge, .dialog r⟩) hbridge hv
  obtain ⟨hresult, hpicked⟩ := replied_dialog s.host hv s.nextNumber.toUInt64 s.state
  rw [hresult] at hanswer
  exact ⟨hanswer, hstate.trans hpicked⟩

theorem dialog_turn (hs : s.Sound) (hserving : (s.ready p).endpoint = .serving) {n : Nat} {f : Frame}
    (hf : ((s.ready p).queued ++ (s.ready p).waiting)[n]? = some f) {c : Call}
    (hc : (s.ready p).call? f.number = some c) (hfly : c.inFlight = true) {r : DialogRequest}
    (hr : c.question = .dialog r) :
    ((s.step p).2.call? f.number).bind Call.answer?
        = some (.paths (dialogResult (s.host.picker.pick r (s.stateBefore p n)).1)) ∧
      s.stateBefore p (n + 1) = (s.host.picker.pick r (s.stateBefore p n)).2 := by
  have hready : (s.ready p).Sound := (ready_moves hs p).sound hs
  obtain ⟨v, hv, htext⟩ := envelope_of_line hready (List.mem_of_getElem? hf) hc
  obtain ⟨hanswer, hnext⟩ := replied_turn hs hserving hf hc hfly
  rw [hr] at hv htext hanswer
  obtain ⟨hresult, hpicked⟩ := replied_dialog s.host hv c.id (s.stateBefore p n)
  rw [htext] at hanswer hnext
  rw [hresult] at hanswer
  exact ⟨hanswer, hnext.trans hpicked⟩

/-! ## Every run -/

/-- In every run, a dialog that a serving host is asked for is opened by the picker once, as it was asked for, nothing
else is done for it, and the one who asked gets what the picker answers (`dialogResult`): this holds of a dialog that is
asked for alone, and of each that the loop takes out of the line in a step. A dialog whose path is no text is refused at
once, and the session stays as it was. -/
theorem dialogs_answered (host : Host σ) (state : σ) (capacity eventCapacity : Nat) (ps : List (Step (List Work × σ))) :
    let s := ((start host.noted ([], state) capacity eventCapacity).run ps).2
    ∀ r : DialogRequest,
      (r.Writable → s.endpoint = .serving → ∀ name, ∀ bridge ∈ s.bridges,
        let asked := s.run [.ask [⟨name, bridge, .dialog r⟩], .fetch name]
        let picked := host.picker.pick r s.state.2
        asked.1 = [.done, .answer (.paths (dialogResult picked.1))] ∧
          asked.2.state = (.dialog r :: s.state.1, picked.2)) ∧
      (∀ p, (s.ready p).endpoint = .serving →
        ∀ n f, ((s.ready p).queued ++ (s.ready p).waiting)[n]? = some f →
          ∀ c, (s.ready p).call? f.number = some c → c.inFlight = true → c.question = .dialog r →
            let picked := host.picker.pick r (s.stateBefore p n).2
            ((s.step p).2.call? f.number).bind Call.answer? = some (.paths (dialogResult picked.1)) ∧
              s.stateBefore p (n + 1) = (.dialog r :: (s.stateBefore p n).1, picked.2)) ∧
      (¬ r.Writable → ∀ name, ∀ bridge ∈ s.bridges,
        s.run [.ask [⟨name, bridge, .dialog r⟩], .fetch name]
          = ([.done, .answer (.paths (.error (.malformedMessage DialogRequest.unwritable)))],
            { s with handles := unassign name s.handles })) := by
  intro s r
  have hs : s.Sound := sound_run host.noted ([], state) capacity eventCapacity ps
  have hrest : s.Rest := rest_run host.noted ([], state) capacity eventCapacity ps
  have hhost : s.host = host.noted := run_host _ ps
  refine ⟨?_, ?_, ?_⟩
  · intro hwritable hserving name bridge hbridge
    have h := dialog_ask hs hrest hserving hwritable name hbridge
    rw [hhost] at h
    exact h
  · intro p hserving n f hf c hc hfly hr
    have h := dialog_turn hs hserving hf hc hfly hr
    rw [hhost] at h
    exact h
  · intro hnot name bridge hbridge
    have hnone := Question.payload?_dialog_of_not_writable hnot
    exact unsent_ask (i := ⟨name, bridge, .dialog r⟩) hrest hbridge hnone

/-! ## A picker -/

/-- A host of no actions, whose picker gives these paths. -/
def pickingHost (paths : List RawPath) : Host Unit where
  handlers := ⟨fun _ s => (.failed (.failed "no actions"), s)⟩
  picker := ⟨fun _ s => (.returned paths, s)⟩

/-- A dialog for texts that is opened at a path. -/
def textDialog (path : RawPath) : DialogRequest :=
  ⟨some "Open", some path, [.openFile, .multiSelections], [⟨"Text", ["txt", "md"]⟩]⟩

/-- A session whose picker gives a path that is a text and one that is none, after these steps. -/
def dialogSession (ps : List (Step (List Work × Unit))) : Session (List Work × Unit) :=
  ((start (pickingHost [[0x2F, 0x68], [0x2F, 0xFF]]).noted ([], ()) 8 8).run ps).2

def askDialog (path : RawPath) : Step (List Work × Unit) := .ask [⟨"d", "b", .dialog (textDialog path)⟩]

/-- Both paths arrive, be it that the dialog is asked for alone or before the host serves. A dialog that is to be opened
at a path that is no text is refused. -/
theorem dialog_of_two_paths :
    (((dialogSession [.serve]).run [askDialog [0x2F], .fetch "d"]).1
          = [.done, .answer (.paths (.ok [[0x2F, 0x68], [0x2F, 0xEF, 0xBF, 0xBD]]))] ∧
        ((dialogSession [.serve]).run [askDialog [0x2F], .fetch "d"]).2.state = ([.dialog (textDialog [0x2F])], ())) ∧
      (((dialogSession [askDialog [0x2F]]).step .serve).2.call? 1).bind Call.answer?
        = some (.paths (.ok [[0x2F, 0x68], [0x2F, 0xEF, 0xBF, 0xBD]])) ∧
      ((dialogSession [.serve]).run [askDialog [0xFF], .fetch "d"]).1
        = [.done, .answer (.paths (.error (.malformedMessage "path contains invalid UTF-8 characters")))] := by
  have hserved := dialogs_answered (pickingHost [[0x2F, 0x68], [0x2F, 0xFF]]) () 8 8 [.serve]
  have hshown : dialogResult (.returned [[0x2F, 0x68], [0x2F, 0xFF]])
      = .ok [[0x2F, 0x68], [0x2F, 0xEF, 0xBF, 0xBD]] := rfl
  unfold dialogSession askDialog
  refine ⟨?_, ?_, ?_⟩
  · have hwritable : (textDialog [0x2F]).Writable := by
      rintro bytes ⟨⟩
      exact ⟨['/'], rfl⟩
    obtain ⟨hanswer, hstate⟩ := (hserved (textDialog [0x2F])).1 hwritable rfl "d" "b" (List.mem_singleton.mpr rfl)
    refine ⟨?_, hstate⟩
    rw [← hshown]
    exact hanswer
  · obtain ⟨-, hturns, -⟩ := dialogs_answered (pickingHost [[0x2F, 0x68], [0x2F, 0xFF]]) () 8 8 [askDialog [0x2F]]
      (textDialog [0x2F])
    obtain ⟨hanswer, -⟩ := hturns .serve rfl 0 ⟨1, _⟩ rfl _ rfl rfl rfl
    rw [← hshown]
    exact hanswer
  · have hbroken : ¬ (textDialog [0xFF]).Writable := by
      intro h
      obtain ⟨cs, hcs⟩ := h _ rfl
      have herror : Utf8.decode [0xFF] = .error ⟨0, some 1⟩ := rfl
      rw [herror] at hcs
      cases hcs
    obtain ⟨-, -, hrefused⟩ := hserved (textDialog [0xFF])
    exact congrArg Prod.fst (hrefused hbroken "d" "b" (List.mem_singleton.mpr rfl))

end ShellHost.Session
