import ShellHost.Proofs.Host.Crossing
import ShellHost.Proofs.Message.Dialog

/-!
# Dialogs that cross the line

A request for a dialog nests only a few levels, and so does what was chosen, so both always cross the line. The picker
is asked for the dialog that was written, and its result comes back (`handleText_dialog`, `readReply_dialog`): what was
chosen, or why nothing was (`dialogResult`). A request whose path is no text is never sent.
-/

namespace ShellHost

open Json

variable {σ : Type}

/-- What the one who asked for a dialog gets of what the picker did. -/
def dialogResult : Handled PickerError (List RawPath) → Except CallError (List RawPath)
  | .returned paths => .ok (paths.map shownPath)
  | .failed e => .error (.handlerFailure "openDialog" e.message)
  | .panicked p => .error (.handlerFailure "openDialog" ("panicked: " ++ p.message))

namespace Question

variable {r : DialogRequest}

/-- A request whose path is no text is not sent. -/
theorem payload?_dialog_of_not_writable (h : ¬ r.Writable) : (dialog r).payload? = none := by
  rw [payload?, DialogRequest.toValue?_of_not_writable h]
  rfl

theorem payload?_dialog {path : Option String} (hpath : r.defaultPath = path.map Utf8.encodeString) :
    (dialog r).payload? = some (.object (r.members path)) := DialogRequest.toValue?_of_path hpath

/-- What is sent of a request are its members. -/
theorem members_of_payload? {v : Value} (hv : (dialog r).payload? = some v) :
    ∃ path : Option String, r.defaultPath = path.map Utf8.encodeString ∧ v = .object (r.members path) := by
  by_cases hwritable : r.Writable
  · obtain ⟨path, hpath⟩ := DialogRequest.writable_iff.mp hwritable
    rw [payload?_dialog hpath] at hv
    exact ⟨path, hpath, (Option.some.inj hv).symm⟩
  · rw [payload?_dialog_of_not_writable hwritable] at hv
    cases hv

end Question

namespace Host

variable (h : Host σ)

theorem openDialog_members {r : DialogRequest} {path : Option String}
    (hpath : r.defaultPath = path.map Utf8.encodeString) (s : σ) :
    h.openDialog (.object (r.members path)) s = (dialogOutcome (h.picker.pick r s).1, (h.picker.pick r s).2) := by
  have hrequest : dialogRequest (.object (r.members path)) = .ok r := DialogRequest.convert_members hpath
  rw [openDialog, hrequest]

/-- A host that gets a request for a dialog asks the picker for it, and does nothing else. -/
theorem handleText_dialog {r : DialogRequest} {v : Value} (hv : (Question.dialog r).payload? = some v) (id : UInt64)
    (s : σ) : h.handleText (Envelope.mk id dialogChannel v).render s
      = ((Reply.mk id (dialogOutcome (h.picker.pick r s).1)).render, (h.picker.pick r s).2) := by
  obtain ⟨path, hpath, rfl⟩ := Question.members_of_payload? hv
  have hfit : (Value.object (r.members path)).depth ≤ 126 := (r.depth_members path).trans (by decide)
  have hroute : h.route ⟨id, dialogChannel, .object (r.members path)⟩ s
      = (⟨id, dialogOutcome (h.picker.pick r s).1⟩, (h.picker.pick r s).2) := by
    have hother : dialogChannel ≠ messageChannel := by decide
    rw [route]
    dsimp only
    rw [answer, if_neg hother, if_pos rfl, h.openDialog_members hpath]
  rw [handleText, h.replyTo_render (r.plain_members path) hfit, hroute]

theorem dialogOutcome_crosses (o : Handled PickerError (List RawPath)) :
    ∀ v, dialogOutcome o = .ok v → v.Plain ∧ v.depth ≤ crossingDepth := by
  intro v hv
  cases o with
  | returned paths =>
    cases hv
    have hdepth : (Value.array (paths.map fun p => .string (String.ofList (Utf8.decodeLossy p)))).depth ≤ 1 :=
      depth_array_map_le (fun _ => Nat.zero_le 0) paths
    exact ⟨plain_array_map (fun _ => plain_string _) paths, hdepth.trans (by decide)⟩
  | failed e => cases hv
  | panicked p => cases hv

end Host

/-- The one who asked gets the result of the picker. -/
theorem Question.readReply_dialog (r : DialogRequest) (id : UInt64) (o : Handled PickerError (List RawPath)) :
    (Question.dialog r).readReply id (Reply.mk id (Host.dialogOutcome o)).render = .paths (dialogResult o) := by
  rw [readReply, replyOutcome_render (Host.dialogOutcome_crosses o)]
  cases o with
  | returned paths =>
    rw [Host.dialogOutcome, ofOutcome, convert_selection]
    rfl
  | failed e => rfl
  | panicked p => rfl

end ShellHost
