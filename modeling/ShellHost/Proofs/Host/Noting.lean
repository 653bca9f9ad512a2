import ShellHost.Host.Basic

/-!
# Hosts that note what they do

A host that notes keeps, beside its state, a list of what its handlers and its picker were called for, the last call
first. It replies as before (`Host.noted_replyTo`), and what it has added to its notes tells which handlers a reply
took, and what the picker was asked.
-/

namespace ShellHost

open Json

variable {α σ : Type}

/-- A call of a handler, or of the picker. -/
inductive Work where
  /-- The handler of an action runs. -/
  | action (a : Action)
  /-- The picker is asked for a dialog. -/
  | dialog (r : DialogRequest)

/-- `noting` does what `act` does, and only adds to the notes. -/
def Notes (act : σ → α × σ) (noting : List Work × σ → α × (List Work × σ)) : Prop :=
  ∀ s, ∃ added, ∀ before, noting (before, s) = ((act s).1, (added ++ before, (act s).2))

/-- Nothing has to be noted where nothing is done. -/
theorem Notes.of_idle (a : α) : Notes (fun s : σ => (a, s)) fun s => (a, s) := fun _ => ⟨[], fun _ => rfl⟩

theorem Notes.map {β : Type} {act : σ → α × σ} {noting : List Work × σ → α × (List Work × σ)} (h : Notes act noting)
    (g : α → β) : Notes (fun s => (g (act s).1, (act s).2)) fun s => (g (noting s).1, (noting s).2) := by
  intro s
  obtain ⟨added, hadded⟩ := h s
  refine ⟨added, fun before => ?_⟩
  dsimp only
  rw [hadded before]

namespace Handlers

/-- The handlers, each of which notes that it runs. -/
def noted (h : Handlers σ) : Handlers (List Work × σ) where
  run a s := ((h.run a s.2).1, (.action a :: s.1, (h.run a s.2).2))

variable (h : Handlers σ)

theorem noted_dispatch (action : String) (request : Value) :
    Notes (h.dispatch action request) (h.noted.dispatch action request) := by
  unfold dispatch
  cases Action.ofName action with
  | error e => exact .of_idle _
  | ok a =>
    dsimp only
    unfold invoke
    cases checkRequest a request with
    | error e => exact .of_idle _
    | ok _ => exact fun s => ⟨[.action a], fun before => rfl⟩

theorem noted_dispatchMessage (payload : Value) :
    Notes (h.dispatchMessage payload) (h.noted.dispatchMessage payload) := by
  unfold dispatchMessage
  split
  · exact h.noted_dispatch _ _
  · exact .of_idle _
  · exact .of_idle _

end Handlers

/-- The picker, which notes what it is asked. -/
def Picker.noted (p : Picker σ) : Picker (List Work × σ) where
  pick r s := ((p.pick r s.2).1, (.dialog r :: s.1, (p.pick r s.2).2))

namespace Host

/-- The host that notes what it does. -/
def noted (h : Host σ) : Host (List Work × σ) := ⟨h.handlers.noted, h.picker.noted⟩

variable (h : Host σ)

theorem noted_openDialog (payload : Value) : Notes (h.openDialog payload) (h.noted.openDialog payload) := by
  unfold openDialog
  cases dialogRequest payload with
  | error e => exact .of_idle _
  | ok r => exact fun s => ⟨[.dialog r], fun before => rfl⟩

theorem noted_answer (channel : String) (payload : Value) :
    Notes (h.answer channel payload) (h.noted.answer channel payload) := by
  unfold answer
  by_cases hmessage : channel = messageChannel
  · simp only [if_pos hmessage]
    exact h.handlers.noted_dispatchMessage payload
  by_cases hdialog : channel = dialogChannel
  · simp only [if_neg hmessage, if_pos hdialog]
    exact h.noted_openDialog payload
  · simp only [if_neg hmessage, if_neg hdialog]
    exact .of_idle _

/-- A host that notes what it does replies as it did without. -/
theorem noted_replyTo (text : String) : Notes (h.replyTo text) (h.noted.replyTo text) := by
  unfold replyTo
  cases Envelope.parse text with
  | ok e => exact (h.noted_answer e.channel e.payload).map (Reply.mk e.id)
  | error e => exact .of_idle _

end Host

end ShellHost
