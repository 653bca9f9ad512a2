import ShellHost.Host.Script
import ShellHost.Proofs.Host.Classification

/-!
# Three ways to an action

A message, the name of an action and the action itself lead to the same handler, and what the handler did comes back on each
of the ways (`entrances_agree`). Who starts from the action itself is spared the errors that are due to the form of a request
or of an answer: the request is written as it is asked for, and every answer can be read as it was written.
-/

namespace ShellHost

open Json

variable {σ : Type}

/-- What somebody who asks for an action makes of an outcome: a value is read as an answer of the action. -/
def Action.readBack (a : Action) : Outcome → Except CallError a.Response
  | .ok v => (a.response.convert v).mapError fun e => .malformedMessage e.message
  | .error e => .error e

namespace Handlers

variable (h : Handlers σ) (a : Action) (s : σ)

theorem invoke_requestValue : h.invoke a a.requestValue s = (outcome a (h.run a s).1, (h.run a s).2) := by
  have hcheck : checkRequest a a.requestValue = .ok () := checkRequest_empty a
  rw [invoke, hcheck]

theorem dispatch_requestValue :
    h.dispatch a.name a.requestValue s = (.ofExcept (outcome a (h.run a s).1), (h.run a s).2) := by
  rw [dispatch, a.ofName_name]
  dsimp only
  rw [h.invoke_requestValue a s]

/-- To ask for an action is to ask for it by its name and to read the outcome. -/
theorem dispatchTyped_readBack :
    h.dispatchTyped a s =
      (a.readBack (h.dispatch a.name a.requestValue s).1, (h.dispatch a.name a.requestValue s).2) := by
  rw [dispatchTyped, dispatch_requestValue, h.invoke_requestValue a s]
  cases outcome a (h.run a s).1 <;> rfl

theorem readBack_returned (r : a.Response) : a.readBack (.ofExcept (outcome a (.returned r))) = .ok r := by
  have hread := a.convert_responseValue r
  rw [outcome, Outcome.ofExcept, Action.readBack, hread]
  rfl

/-- A value that an action comes to is what its handler returned, written down. -/
theorem outcome_eq_ok {r : Handled HandlerError a.Response} {v : Value} (hv : Outcome.ofExcept (outcome a r) = .ok v) :
    ∃ answer, r = .returned answer ∧ v = a.responseValue answer := by
  cases r with
  | returned answer =>
    cases hv
    exact ⟨answer, rfl, rfl⟩
  | failed e => cases hv
  | panicked p => cases hv

/-- The three ways to an action agree, whatever the handlers do. A message of a name and a request comes to what the name
and the request come to. To ask for an action itself is to ask for its name with its request, and to read the answer, which
can always be read. Then what the handler returned comes back as it was, and the only errors are those of the handler: it
failed, or it panicked. -/
theorem entrances_agree :
    (∀ name request, h.dispatchMessage (.array [.string name, request]) s = h.dispatch name request s) ∧
      h.dispatchTyped a s =
        (a.readBack (h.dispatch a.name a.requestValue s).1, (h.dispatch a.name a.requestValue s).2) ∧
      (∀ v, (h.dispatch a.name a.requestValue s).1 = .ok v → ∃ r, a.response.convert v = .ok r) ∧
      (∀ r s', h.run a s = (.returned r, s') → h.dispatchTyped a s = (.ok r, s')) ∧
      (∀ e s', h.run a s = (.failed e, s') → h.dispatchTyped a s = (.error (.handlerFailure a.name e.message), s')) ∧
      (∀ p s', h.run a s = (.panicked p, s') →
        h.dispatchTyped a s = (.error (.handlerFailure a.name ("panicked: " ++ p.message)), s')) ∧
      ∀ e, (h.dispatchTyped a s).1 = .error e → ∃ reason, e = .handlerFailure a.name reason := by
  have htyped := h.dispatchTyped_readBack a s
  refine ⟨fun _ _ => rfl, htyped, ?_, ?_, ?_, ?_, ?_⟩
  · intro v hv
    rw [dispatch_requestValue] at hv
    obtain ⟨r, -, rfl⟩ := outcome_eq_ok a hv
    exact ⟨r, a.convert_responseValue r⟩
  all_goals rw [htyped, dispatch_requestValue]
  · intro r s' hrun
    rw [hrun]
    exact Prod.ext (readBack_returned a r) rfl
  · intro e s' hrun
    rw [hrun]
    rfl
  · intro p s' hrun
    rw [hrun]
    rfl
  · intro e he
    cases hrun : (h.run a s).1 with
    | returned r =>
      rw [hrun, readBack_returned] at he
      cases he
    | failed err =>
      rw [hrun] at he
      cases he
      exact ⟨_, rfl⟩
    | panicked p =>
      rw [hrun] at he
      cases he
      exact ⟨_, rfl⟩

/-- A list is answered to who asks for the settings, and a panic is told to who asks for a new project. -/
theorem answered_by_script :
    let desk : Desk := ⟨⟨[], []⟩, [.panicked (.text "index lost")], [.returned (.array [.null])], [], []⟩
    Desk.handlers.dispatchTyped .loadConfig desk = (.ok (.array [.null]), desk) ∧
      Desk.handlers.dispatchTyped .addNewProject desk
        = (.error (.handlerFailure "addNewProject" "panicked: index lost"), desk) := by
  intro desk
  obtain ⟨-, -, -, hreturned, -⟩ := Desk.handlers.entrances_agree .loadConfig desk
  obtain ⟨-, -, -, -, -, hpanicked, -⟩ := Desk.handlers.entrances_agree .addNewProject desk
  exact ⟨hreturned _ _ rfl, hpanicked _ _ rfl⟩

end Handlers

end ShellHost
