import ShellHost.Proofs.Host.Crossing
import ShellHost.Proofs.Host.Noting

/-!
# What a message can come to

A message is refused for its form, for the name of its action or for its request, in this order, and a message that is
refused reaches no handler. Any other message reaches the handler of its action, once, and comes to what the handler
returned or to why it did not (`Dispatched`). There are no other ways, and for each message there is one
(`every_message_dispatched`).
-/

namespace ShellHost

open Json

variable {σ : Type}

theorem Action.ofName_of_ne {name : String} (h : ∀ a : Action, a.name ≠ name) :
    ofName name = .error (.unknownAction name) := by
  have hnone : all.find? (·.name == name) = none := by
    apply List.find?_eq_none.mpr
    intro a ha heq
    exact h a (eq_of_beq heq)
  rw [ofName, hnone]

namespace Handlers

theorem checkRequest_empty (a : Action) : checkRequest a (.object []) = .ok () := by
  cases a <;> rfl

/-- Of the members of a request the first one is objected to. -/
theorem checkRequest_member (a : Action) (key : String) (v : Value) (rest : List (String × Value)) :
    checkRequest a (.object ((key, v) :: rest)) = .error (.invalidRequest a.name (Mismatch.unknownField key).message) := by
  cases a <;> rfl

theorem checkRequest_of_ne (a : Action) {request : Value} (h : ∀ members, request ≠ .object members) :
    checkRequest a request = .error (.invalidRequest a.name s!"expected an object, got {request.kind}") := by
  cases request with
  | object members => exact absurd rfl (h members)
  | _ => rfl

/-- What a payload comes to in a state `s`: the outcome, the actions whose handlers run, in order, and the state after. -/
inductive Dispatched (h : Handlers σ) (s : σ) : Value → Outcome → List Action → σ → Prop where
  /-- It is no array of two items. -/
  | notPair {payload : Value} (hshape : ∀ first second, payload ≠ .array [first, second]) :
      Dispatched h s payload (.error (.malformedMessage "payload must be a two-element [action, request] array")) [] s
  /-- The first item is no text. -/
  | notNamed {first request : Value} (hfirst : ∀ name, first ≠ .string name) :
      Dispatched h s (.array [first, request]) (.error (.malformedMessage "action must be a string")) [] s
  /-- No action has the name, whatever the request is. -/
  | unknown {name : String} {request : Value} (hname : ∀ a : Action, a.name ≠ name) :
      Dispatched h s (.array [.string name, request]) (.error (.unknownAction name)) [] s
  /-- The request of the action is no object. -/
  | notObject {a : Action} {request : Value} (hrequest : ∀ members, request ≠ .object members) :
      Dispatched h s (.array [.string a.name, request])
        (.error (.invalidRequest a.name s!"expected an object, got {request.kind}")) [] s
  /-- The request of the action is an object with a member. -/
  | notEmpty {a : Action} {key : String} {v : Value} {rest : List (String × Value)} :
      Dispatched h s (.array [.string a.name, .object ((key, v) :: rest)])
        (.error (.invalidRequest a.name s!"unknown field `{key}`, there are no fields")) [] s
  /-- The handler runs and returns. -/
  | returned {a : Action} {r : a.Response} {s' : σ} (hrun : h.run a s = (.returned r, s')) :
      Dispatched h s (.array [.string a.name, .object []]) (.ok (a.responseValue r)) [a] s'
  /-- The handler runs and fails. -/
  | failed {a : Action} {e : HandlerError} {s' : σ} (hrun : h.run a s = (.failed e, s')) :
      Dispatched h s (.array [.string a.name, .object []]) (.error (.handlerFailure a.name e.message)) [a] s'
  /-- The handler runs and panics with a text. -/
  | panicked {a : Action} {text : String} {s' : σ} (hrun : h.run a s = (.panicked (.text text), s')) :
      Dispatched h s (.array [.string a.name, .object []]) (.error (.handlerFailure a.name ("panicked: " ++ text))) [a] s'
  /-- The handler runs and panics with anything else. -/
  | panickedOther {a : Action} {s' : σ} (hrun : h.run a s = (.panicked .other, s')) :
      Dispatched h s (.array [.string a.name, .object []])
        (.error (.handlerFailure a.name "panicked: unknown panic")) [a] s'

variable {h : Handlers σ} {s s' : σ} {payload : Value} {o : Outcome} {ran : List Action}

/-- One of the ways is taken. -/
theorem exists_dispatched (h : Handlers σ) (s : σ) (payload : Value) : ∃ o ran s', Dispatched h s payload o ran s' := by
  by_cases hshape : ∃ first request, payload = .array [first, request]
  swap
  · push Not at hshape
    exact ⟨_, _, _, .notPair hshape⟩
  obtain ⟨first, request, rfl⟩ := hshape
  by_cases hfirst : ∃ name, first = .string name
  swap
  · push Not at hfirst
    exact ⟨_, _, _, .notNamed hfirst⟩
  obtain ⟨name, rfl⟩ := hfirst
  by_cases hname : ∃ a : Action, a.name = name
  swap
  · push Not at hname
    exact ⟨_, _, _, .unknown hname⟩
  obtain ⟨a, rfl⟩ := hname
  by_cases hrequest : ∃ members, request = .object members
  swap
  · push Not at hrequest
    exact ⟨_, _, _, .notObject hrequest⟩
  obtain ⟨members, rfl⟩ := hrequest
  cases members with
  | cons m rest => exact ⟨_, _, _, .notEmpty⟩
  | nil =>
    rcases hrun : h.run a s with ⟨r | e | (text | _), s'⟩
    · exact ⟨_, _, _, .returned hrun⟩
    · exact ⟨_, _, _, .failed hrun⟩
    · exact ⟨_, _, _, .panicked hrun⟩
    · exact ⟨_, _, _, .panickedOther hrun⟩

/-- The handler of an action that is asked for rightly runs, and is noted. -/
theorem noted_run {a : Action} {r : Handled HandlerError a.Response} (hrun : h.run a s = (r, s')) (before : List Work) :
    h.noted.dispatchMessage (.array [.string a.name, .object []]) (before, s)
      = (.ofExcept (outcome a r), (.action a :: before, s')) := by
  show h.noted.dispatch a.name (.object []) (before, s) = _
  rw [dispatch, a.ofName_name]
  dsimp only
  rw [invoke, checkRequest_empty]
  dsimp only [noted]
  rw [hrun]

theorem Dispatched.noted (hd : Dispatched h s payload o ran s') (before : List Work) :
    h.noted.dispatchMessage payload (before, s) = (o, (ran.map .action ++ before, s')) := by
  cases hd with
  | notPair hshape =>
    unfold dispatchMessage
    split
    · exact absurd rfl (hshape _ _)
    · exact absurd rfl (hshape _ _)
    · rfl
  | @notNamed first request hfirst =>
    cases first with
    | string name => exact absurd rfl (hfirst name)
    | _ => rfl
  | @unknown name request hname =>
    show h.noted.dispatch name request (before, s) = _
    rw [dispatch, Action.ofName_of_ne hname]
    rfl
  | @notObject a request hrequest =>
    show h.noted.dispatch a.name request (before, s) = _
    rw [dispatch, a.ofName_name]
    dsimp only
    rw [invoke, checkRequest_of_ne a hrequest]
    rfl
  | @notEmpty a key v rest =>
    show h.noted.dispatch a.name _ (before, s) = _
    rw [dispatch, a.ofName_name]
    dsimp only
    rw [invoke, checkRequest_member]
    rfl
  | returned hrun => exact noted_run hrun before
  | failed hrun => exact noted_run hrun before
  | panicked hrun => exact noted_run hrun before
  | panickedOther hrun => exact noted_run hrun before

/-- Every payload comes to something, whatever the handlers do, and to one thing only. That is what is answered, and the
handlers that run are those that are noted: none if the payload is refused, and otherwise one, once. -/
theorem every_message_dispatched (h : Handlers σ) (payload : Value) (s : σ) :
    ∃ o ran s', Dispatched h s payload o ran s' ∧
      (∀ o' ran' s'', Dispatched h s payload o' ran' s'' → o' = o ∧ ran' = ran ∧ s'' = s') ∧
      h.dispatchMessage payload s = (o, s') ∧
      ∀ before, h.noted.dispatchMessage payload (before, s) = (o, (ran.map .action ++ before, s')) := by
  obtain ⟨o, ran, s', hd⟩ := exists_dispatched h s payload
  refine ⟨o, ran, s', hd, ?_, ?_, hd.noted⟩
  · intro o' ran' s'' hd'
    -- both are what is noted when nothing has been noted before
    have hboth := (hd'.noted []).symm.trans (hd.noted [])
    rw [Prod.mk.injEq, Prod.mk.injEq, List.append_nil, List.append_nil] at hboth
    obtain ⟨ho, hran, hs⟩ := hboth
    have hinjective : Function.Injective Work.action := fun _ _ heq => Work.action.inj heq
    exact ⟨ho, hinjective.list_map hran, hs⟩
  · obtain ⟨added, hadded⟩ := h.noted_dispatchMessage payload s
    have hsame := (hadded []).symm.trans (hd.noted [])
    rw [Prod.mk.injEq, Prod.mk.injEq] at hsame
    obtain ⟨ho, -, hs⟩ := hsame
    exact Prod.ext ho hs

end Handlers

end ShellHost
