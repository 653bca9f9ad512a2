import ShellHost.Host.Shell
import ShellHost.Proofs.Message.RoundTrip
import ShellHost.Proofs.Settings.Reading
import ShellHost.Session.Call

/-!
# Questions that cross the line

A question is written as an envelope, read by the host, answered by a handler, and the answer is written as a reply and
read again. The envelope adds two levels to a request and the reply two levels to a result, so what nests no more than
125 deep crosses, and the caller gets what the handler would have answered directly (`Crossed`). A deeper request never
reaches its handler, and of a deeper result the caller only hears that the reply is malformed.
-/

namespace ShellHost

open Json

variable {σ : Type}

/-- The greatest depth of a value that crosses the line in both directions. -/
def crossingDepth : Nat := 125

/-! ## Envelopes -/

namespace Host

variable (h : Host σ)

theorem replyTo_render {e : Envelope} (hplain : e.payload.Plain) (hdepth : e.payload.depth ≤ 126) (s : σ) :
    h.replyTo e.render s = h.route e s := by
  have hfit : e.toValue.depth ≤ nestingLimit := by
    rw [e.depth_toValue]
    exact Nat.succ_le_succ hdepth
  have hparse : Envelope.parse e.render = .ok e := (Envelope.reads hplain.floatFree hplain.sorted).parse hfit
  rw [replyTo, hparse]

/-- A text that is too deep has no number that could be made out, and changes nothing. -/
theorem replyTo_deep {e : Envelope} (hdeep : 126 < e.payload.depth) (s : σ) :
    ∃ reason, h.replyTo e.render s = (⟨0, .error (.malformedMessage reason)⟩, s) := by
  have hlimit : nestingLimit < e.toValue.depth := by
    rw [e.depth_toValue]
    exact Nat.succ_lt_succ hdeep
  obtain ⟨err, hparse⟩ := e.ends.refuses hlimit
  obtain ⟨err', hvalue⟩ := (ends_value e.toValue).refuses hlimit
  have hparse' : Envelope.parse e.render = .error err := hparse
  have hvalue' : Value.parse e.render = .error err' := hvalue
  have hnumber : salvageId e.render = 0 := by rw [salvageId, hvalue']
  rw [replyTo, hparse']
  exact ⟨err.message, by rw [hnumber]⟩

def actionEnvelope (id : UInt64) (action : String) (request : Value) : Envelope :=
  ⟨id, messageChannel, .array [.string action, request]⟩

theorem depth_actionEnvelope (id : UInt64) (action : String) (request : Value) :
    (actionEnvelope id action request).payload.depth = request.depth + 1 := by
  simp [actionEnvelope, Value.depth, itemsDepth]

theorem plain_actionEnvelope {request : Value} (hplain : request.Plain) (id : UInt64) (action : String) :
    (actionEnvelope id action request).payload.Plain :=
  ⟨⟨trivial, hplain.floatFree, trivial⟩, ⟨trivial, hplain.sorted, trivial⟩⟩

/-- An action that crosses is dispatched as it was asked for. -/
theorem handleText_action {request : Value} (hplain : request.Plain) (hdepth : request.depth ≤ crossingDepth)
    (id : UInt64) (action : String) (s : σ) :
    h.handleText (actionEnvelope id action request).render s
      = ((Reply.mk id (h.handlers.dispatch action request s).1).render, (h.handlers.dispatch action request s).2) := by
  have hfit : (actionEnvelope id action request).payload.depth ≤ 126 := by
    rw [depth_actionEnvelope]
    exact Nat.succ_le_succ hdepth
  rw [handleText, h.replyTo_render (plain_actionEnvelope hplain id action) hfit]
  rfl

theorem handleText_deep {request : Value} (hdeep : crossingDepth < request.depth) (id : UInt64) (action : String)
    (s : σ) : ∃ reason, h.handleText (actionEnvelope id action request).render s
      = ((Reply.mk 0 (.error (.malformedMessage reason))).render, s) := by
  have hlimit : 126 < (actionEnvelope id action request).payload.depth := by
    rw [depth_actionEnvelope]
    exact Nat.succ_lt_succ hdeep
  obtain ⟨reason, hreply⟩ := h.replyTo_deep hlimit s
  exact ⟨reason, by rw [handleText, hreply]⟩

end Host

/-! ## Replies -/

theorem Reply.parse_render {r : Reply} (hr : ∀ v, r.payload = .ok v → v.Plain ∧ v.depth ≤ crossingDepth) :
    Reply.parse r.render = .ok r := by
  have hdepth : r.toValue.depth ≤ nestingLimit := by
    obtain ⟨id, o⟩ := r
    cases o with
    | ok v =>
      rw [Reply.depth_toValue_ok]
      exact Nat.add_le_add_right (hr v rfl).2 2
    | error e =>
      rw [Reply.depth_toValue_error]
      decide
  exact (Reply.reads (fun v hv => (hr v hv).1.floatFree) fun v hv => (hr v hv).1.sorted).parse hdepth

namespace Question

theorem replyOutcome_render {id : UInt64} {o : Outcome}
    (ho : ∀ v, o = .ok v → v.Plain ∧ v.depth ≤ crossingDepth) : replyOutcome id (Reply.mk id o).render = o := by
  have hparse : Reply.parse (Reply.mk id o).render = .ok ⟨id, o⟩ := Reply.parse_render ho
  rw [replyOutcome, hparse]
  exact if_pos rfl

/-- A reply that is too deep to be read is malformed for the caller. -/
theorem replyOutcome_deep (id id' : UInt64) {v : Value} (hdeep : crossingDepth < v.depth) :
    ∃ reason, replyOutcome id (Reply.mk id' (.ok v)).render = .error (.malformedMessage reason) := by
  have hlimit : nestingLimit < (Reply.toValue ⟨id', .ok v⟩).depth := by
    rw [Reply.depth_toValue_ok]
    exact Nat.add_lt_add_right hdeep 2
  obtain ⟨err, hparse⟩ := (Reply.ends ⟨id', .ok v⟩).refuses hlimit
  have hparse' : Reply.parse (Reply.mk id' (.ok v)).render = .error err := hparse
  exact ⟨err.message, by rw [replyOutcome, hparse']⟩

/-- A reply that says that a message was malformed says so to every caller. -/
theorem replyOutcome_malformed (id id' : UInt64) (reason : String) :
    ∃ reason', replyOutcome id (Reply.mk id' (.error (.malformedMessage reason))).render
      = .error (.malformedMessage reason') := by
  have hparse : Reply.parse (Reply.mk id' (.error (.malformedMessage reason))).render
      = .ok ⟨id', .error (.malformedMessage reason)⟩ := Reply.parse_render nofun
  rw [replyOutcome, hparse]
  dsimp only
  split_ifs
  · exact ⟨reason, rfl⟩
  · exact ⟨_, rfl⟩

end Question

/-! ## Typed actions -/

namespace Action

theorem ofName_name (a : Action) : ofName a.name = .ok a := by
  cases a <;> rfl

theorem plain_requestValue (a : Action) : a.requestValue.Plain :=
  ⟨trivial, List.Pairwise.nil, trivial⟩

theorem depth_requestValue (a : Action) : a.requestValue.depth = 1 := rfl

theorem convert_responseValue (a : Action) (r : a.Response) : a.response.convert (a.responseValue r) = .ok r := by
  cases a <;> rfl

end Action

namespace Handlers

variable (h : Handlers σ)

/-- What an action answers, if anything, is the form of an answer of the action. -/
theorem invoke_cases (a : Action) (request : Value) (s : σ) :
    (∃ e, (h.invoke a request s).1 = .error e) ∨ ∃ r, (h.invoke a request s).1 = .ok (a.responseValue r) := by
  unfold invoke
  cases checkRequest a request with
  | error e => exact .inl ⟨e, rfl⟩
  | ok _ =>
    dsimp only
    cases (h.run a s).1 with
    | returned r => exact .inr ⟨r, rfl⟩
    | failed e => exact .inl ⟨_, rfl⟩
    | panicked p => exact .inl ⟨_, rfl⟩

theorem dispatchTyped_eq (a : Action) (s : σ) :
    ((h.dispatchTyped a s).1.map a.responseValue, (h.dispatchTyped a s).2)
      = ((h.dispatch a.name a.requestValue s).1.toExcept, (h.dispatch a.name a.requestValue s).2) := by
  have hcases := h.invoke_cases a a.requestValue s
  rw [dispatchTyped, dispatch, a.ofName_name]
  dsimp only
  generalize h.invoke a a.requestValue s = os at hcases ⊢
  obtain ⟨o, s'⟩ := os
  rcases hcases with ⟨e, he⟩ | ⟨r, hr⟩
  · obtain rfl : o = .error e := he
    rfl
  · obtain rfl : o = .ok (a.responseValue r) := hr
    dsimp only
    rw [a.convert_responseValue]
    rfl

theorem checkRequest_error {a : Action} {request : Value} {e : CallError} (he : checkRequest a request = .error e) :
    ∃ reason, e = .invalidRequest a.name reason := by
  unfold checkRequest at he
  split at he
  · rename_i members
    cases hconvert : a.request.convert (.object members) with
    | error err =>
      rw [hconvert] at he
      cases he
      exact ⟨err.message, rfl⟩
    | ok _ =>
      rw [hconvert] at he
      cases he
  · cases he
    exact ⟨_, rfl⟩

/-- Who asks directly never hears that a message was malformed. -/
theorem dispatch_ne_malformed (action : String) (request : Value) (s : σ) (reason : String) :
    (h.dispatch action request s).1 ≠ .error (.malformedMessage reason) := by
  rw [dispatch, Action.ofName]
  cases Action.all.find? (·.name == action) with
  | none => exact nofun
  | some a =>
    dsimp only
    rw [invoke]
    cases hcheck : checkRequest a request with
    | error e =>
      obtain ⟨reason', rfl⟩ := checkRequest_error hcheck
      exact nofun
    | ok _ =>
      dsimp only
      cases (h.run a s).1 with
      | returned r => exact nofun
      | failed e => exact nofun
      | panicked p => exact nofun

end Handlers

/-! ## Questions -/

/-- The caller hears that a message was malformed. -/
def Answer.Malformed (a : Answer) : Prop := ∃ reason, a = .value (.error (.malformedMessage reason))

/-- The answer is the result `r`, if `r` is an error or a value that crosses; and it says that a message was malformed if
`r` is too deep. -/
structure Answer.Brings (a : Answer) (r : Except CallError Value) : Prop where
  /-- Errors and values that are not too deep arrive as they are. -/
  same : (∀ v, r = .ok v → v.Plain ∧ v.depth ≤ crossingDepth) → a = .value r
  /-- A value that is too deep does not arrive. -/
  deep : ∀ v, r = .ok v → crossingDepth < v.depth → a.Malformed

/-- What a question for an action is answered over the line, when the host is in state `s` before and `s'` after. -/
structure Crossed (h : Handlers σ) (s : σ) (q : Question) (a : Answer) (s' : σ) : Prop where
  /-- A request that is not too deep is dispatched. -/
  raw : ∀ action request, q = .raw action request → request.Plain → request.depth ≤ crossingDepth →
    s' = (h.dispatch action request s).2 ∧ a.Brings (h.dispatch action request s).1.toExcept
  /-- A request that is too deep changes nothing. -/
  deep : ∀ action request, q = .raw action request → crossingDepth < request.depth → s' = s ∧ a.Malformed
  /-- An action by itself is dispatched. -/
  typed : ∀ act, q = .typed act →
    s' = (h.dispatchTyped act s).2 ∧ a.Brings ((h.dispatchTyped act s).1.map act.responseValue)

/-- A question for an action is answered as if the action had been asked for directly exactly if neither the request nor
the result is too deep. -/
theorem Crossed.same_iff {h : Handlers σ} {s s' : σ} {action : String} {request : Value} {a : Answer}
    (hcrossed : Crossed h s (.raw action request) a s') (hplain : request.Plain)
    (hresult : ∀ v, (h.dispatch action request s).1.toExcept = .ok v → v.Plain) :
    a = .value (h.dispatch action request s).1.toExcept ↔
      request.depth ≤ crossingDepth ∧
        ∀ v, (h.dispatch action request s).1.toExcept = .ok v → v.depth ≤ crossingDepth := by
  constructor
  · rintro rfl
    have hdepth : request.depth ≤ crossingDepth := by
      by_contra hdeep
      obtain ⟨-, reason, hmalformed⟩ := hcrossed.deep action request rfl (not_le.mp hdeep)
      have hnever := h.dispatch_ne_malformed action request s reason
      cases hoc : (h.dispatch action request s).1 with
      | ok v =>
        rw [hoc] at hmalformed
        cases hmalformed
      | error e =>
        rw [hoc] at hmalformed hnever
        cases hmalformed
        exact hnever rfl
    refine ⟨hdepth, fun v hv => ?_⟩
    by_contra hdeep
    obtain ⟨-, hbrings⟩ := hcrossed.raw action request rfl hplain hdepth
    obtain ⟨reason, hmalformed⟩ := hbrings.deep v hv (not_le.mp hdeep)
    rw [hv] at hmalformed
    cases hmalformed
  · rintro ⟨hdepth, hfit⟩
    obtain ⟨-, hbrings⟩ := hcrossed.raw action request rfl hplain hdepth
    exact hbrings.same fun v hv => ⟨hresult v hv, hfit v hv⟩

namespace Question

/-- A reply brings its outcome to a question that takes every value for what it is. -/
theorem readReply_brings {q : Question} {o : Outcome} (hok : ∀ v, o = .ok v → q.ofOutcome (.ok v) = .value (.ok v))
    (hfailed : ∀ e, q.failed e = .value (.error e)) (id : UInt64) :
    (q.readReply id (Reply.mk id o).render).Brings o.toExcept where
  same := by
    intro hfit
    have ho : ∀ v, o = .ok v → v.Plain ∧ v.depth ≤ crossingDepth := by
      rintro v rfl
      exact hfit v rfl
    rw [readReply, replyOutcome_render ho]
    cases o with
    | ok v => exact hok v rfl
    | error e => exact hfailed e
  deep := by
    intro v hv hdeep
    cases o with
    | ok w =>
      cases hv
      obtain ⟨reason, hreason⟩ := replyOutcome_deep id id hdeep
      rw [readReply, hreason]
      exact ⟨reason, hfailed _⟩
    | error e => cases hv

end Question

section

variable (h : Host σ) (id : UInt64) (s : σ)

theorem crossed_raw (action : String) (request : Value) :
    Crossed h.handlers s (.raw action request)
      ((Question.raw action request).readReply id (h.handleText (Host.actionEnvelope id action request).render s).1)
      (h.handleText (Host.actionEnvelope id action request).render s).2 := by
  refine ⟨?_, ?_, nofun⟩
  · rintro _ _ ⟨⟩ hplain hdepth
    rw [h.handleText_action hplain hdepth]
    exact ⟨rfl, Question.readReply_brings (fun _ _ => rfl) (fun _ => rfl) id⟩
  · rintro _ _ ⟨⟩ hdeep
    obtain ⟨reason, hreply⟩ := h.handleText_deep hdeep id action s
    obtain ⟨reason', hread⟩ := Question.replyOutcome_malformed id 0 reason
    rw [hreply]
    refine ⟨rfl, reason', ?_⟩
    rw [Question.readReply, hread]
    rfl

theorem crossed_typed (act : Action) :
    Crossed h.handlers s (.typed act)
      ((Question.typed act).readReply id
        (h.handleText (Host.actionEnvelope id act.name act.requestValue).render s).1)
      (h.handleText (Host.actionEnvelope id act.name act.requestValue).render s).2 := by
  have hfit : act.requestValue.depth ≤ crossingDepth := by
    rw [act.depth_requestValue]
    decide
  have htyped := h.handlers.dispatchTyped_eq act s
  rw [Prod.mk.injEq] at htyped
  rw [h.handleText_action act.plain_requestValue hfit]
  refine ⟨nofun, nofun, ?_⟩
  rintro _ ⟨⟩
  rw [htyped.1, htyped.2]
  refine ⟨rfl, Question.readReply_brings ?_ (fun _ => rfl) id⟩
  -- a value that the action answers is of the form that is asked for
  intro v hv
  have hcases := h.handlers.invoke_cases act act.requestValue s
  rw [Handlers.dispatch, act.ofName_name] at hv
  dsimp only at hv
  rcases hcases with ⟨e, he⟩ | ⟨r, hr⟩
  · rw [he] at hv
    cases hv
  · rw [hr] at hv
    cases hv
    simp only [Question.ofOutcome, act.convert_responseValue]

theorem crossed_handleText (q : Question) {v : Value} (hv : q.payload? = some v) :
    Crossed h.handlers s q (q.readReply id (h.handleText (Envelope.mk id q.channel v).render s).1)
      (h.handleText (Envelope.mk id q.channel v).render s).2 := by
  cases q with
  | raw action request =>
    cases hv
    exact crossed_raw h id s action request
  | typed act =>
    cases hv
    exact crossed_typed h id s act
  | dialog r => exact ⟨nofun, nofun, nofun⟩

end

/-! ## Settings -/

namespace SettingsFile

variable {f : SettingsFile} {d : Disk} {v : Value}

/-- A file that is there is read as it is. -/
theorem loadOrCreateValue_of_text {text : String} (hexists : d.exists? f.path = true)
    (hread : d.read f.path = .ok (Utf8.encodeString text)) (hparse : Value.parse text = .ok v) :
    f.loadOrCreateValue d = (.ok v, d) := by
  rw [loadOrCreateValue, ensureExists, if_pos hexists]
  dsimp only
  rw [readValue_of_text hread hparse]

/-- Settings that were read are in order and nest no deeper than the reader allows. -/
theorem bounded_of_loadOrCreateValue (h : (f.loadOrCreateValue d).1 = .ok v) : v.Bounded nestingLimit := by
  rw [loadOrCreateValue] at h
  split at h
  · cases h
  · exact bounded_of_readValue h

end SettingsFile

theorem Handlers.shell_loadConfig (file : SettingsFile) (d : Disk) :
    (Handlers.shell file).dispatchTyped .loadConfig d
      = ((file.loadOrCreateValue d).1.mapError fun e => .handlerFailure "loadConfig" e.message,
        (file.loadOrCreateValue d).2) := by
  have hcheck : checkRequest .loadConfig Action.loadConfig.requestValue = .ok () := rfl
  rw [dispatchTyped, invoke, hcheck]
  dsimp only [shell]
  rcases file.loadOrCreateValue d with ⟨e | v, d'⟩
  · rfl
  · rfl

/-- Settings that are read directly come over the line if they nest no more than 125 deep. -/
theorem Crossed.settings {file : SettingsFile} {d d' : Disk} {a : Answer} {v : Value}
    (h : Crossed (.shell file) d (.typed .loadConfig) a d')
    (hv : ((Handlers.shell file).dispatchTyped .loadConfig d).1 = .ok v) (hfree : v.FloatFree) :
    v.depth ≤ nestingLimit ∧ (v.depth ≤ crossingDepth → a = .value (.ok v)) ∧
      (crossingDepth < v.depth → a.Malformed) := by
  have hload : (file.loadOrCreateValue d).1 = .ok v := by
    rw [Handlers.shell_loadConfig] at hv
    cases hload : (file.loadOrCreateValue d).1 with
    | error e =>
      rw [hload] at hv
      cases hv
    | ok w =>
      rw [hload] at hv
      cases hv
      rfl
  have hbounded := SettingsFile.bounded_of_loadOrCreateValue hload
  obtain ⟨-, hbrings⟩ := h.typed .loadConfig rfl
  rw [hv] at hbrings
  refine ⟨hbounded.depth_le, fun hdepth => hbrings.same ?_, hbrings.deep v rfl⟩
  rintro w ⟨⟩
  exact ⟨⟨hfree, hbounded.sorted⟩, hdepth⟩

end ShellHost
