import ShellHost.Host.Shell
import ShellHost.Proofs.Lines.Agreement
import ShellHost.Proofs.Settings.Repeating

/-!
# What content can do to the disk

Content may send any texts at all. One of them asks for the settings: an envelope for the action `loadConfig` with an
empty request (`AsksForSettings`). No other text is answered with the help of the disk, and none changes it
(`handleText_diskFree`). What asks for the settings only makes their file; since that happens once at most, content can do
no more to the disk than to have the settings file made (`settings_file_made_once`).
-/

namespace ShellHost

open Json

variable {α β : Type}

/-- What is done neither depends on the disk nor changes it. -/
def DiskFree (act : Disk → α × Disk) : Prop := ∃ a, ∀ d, act d = (a, d)

theorem DiskFree.map {act : Disk → α × Disk} (h : DiskFree act) (g : α → β) :
    DiskFree fun d => (g (act d).1, (act d).2) := by
  obtain ⟨a, ha⟩ := h
  refine ⟨g a, fun d => ?_⟩
  dsimp only
  rw [ha d]

/-- The payload that asks for the settings. -/
def settingsPayload : Value := .array [.string "loadConfig", .object []]

/-- The text is an envelope that asks for the settings. -/
def AsksForSettings (text : String) : Prop :=
  ∃ e, Envelope.parse text = .ok e ∧ e.channel = messageChannel ∧ e.payload = settingsPayload

/-- The text of an envelope asks for the settings if the envelope does. -/
theorem asks_render_iff {e : Envelope} (hfree : e.payload.FloatFree) (hsorted : e.payload.Sorted)
    (hdepth : e.payload.depth < nestingLimit) :
    AsksForSettings e.render ↔ e.channel = messageChannel ∧ e.payload = settingsPayload := by
  have hparse : Envelope.parse e.render = .ok e :=
    (Envelope.reads hfree hsorted).parse (by rw [Envelope.depth_toValue]; exact hdepth)
  constructor
  · rintro ⟨e', hparse', hasks⟩
    rw [hparse] at hparse'
    cases hparse'
    exact hasks
  · exact fun hasks => ⟨e, hparse, hasks⟩

theorem asks_render (id : UInt64) : AsksForSettings (Envelope.mk id messageChannel settingsPayload).render := by
  have hfree : settingsPayload.FloatFree := ⟨trivial, trivial, trivial⟩
  have hsorted : settingsPayload.Sorted := ⟨trivial, ⟨List.Pairwise.nil, trivial⟩, trivial⟩
  have hdepth : settingsPayload.depth < nestingLimit := by decide
  exact (asks_render_iff hfree hsorted hdepth).mpr ⟨rfl, rfl⟩

namespace Handlers

/-- The request of an action is an empty object. -/
theorem checkRequest_eq_ok {a : Action} {request : Value} (h : checkRequest a request = .ok ()) :
    request = .object [] := by
  unfold checkRequest at h
  split at h
  · rename_i members
    cases members with
    | nil => rfl
    | cons m rest =>
      -- the first member is refused
      cases a <;> cases h
  · cases h

variable (f : SettingsFile)

/-- Of all requests only the one for the settings reaches the disk. -/
theorem dispatch_diskFree (action : String) (request : Value) :
    (action = "loadConfig" ∧ request = .object []) ∨ DiskFree ((shell f).dispatch action request) := by
  unfold dispatch
  rcases hname : Action.ofName action with e | a
  · exact .inr ⟨_, fun _ => rfl⟩
  dsimp only
  unfold invoke
  rcases hcheck : checkRequest a request with e | _
  · exact .inr ⟨_, fun _ => rfl⟩
  obtain rfl := checkRequest_eq_ok hcheck
  cases a with
  | addNewProject => exact .inr ⟨_, fun _ => rfl⟩
  | loadConfig =>
    left
    refine ⟨?_, rfl⟩
    unfold Action.ofName at hname
    split at hname
    · rename_i a hfound
      cases hname
      have hequal := List.find?_some hfound
      exact (eq_of_beq hequal).symm
    · cases hname

theorem dispatchMessage_diskFree (payload : Value) :
    payload = settingsPayload ∨ DiskFree ((shell f).dispatchMessage payload) := by
  unfold dispatchMessage
  split
  · rename_i action request
    rcases dispatch_diskFree f action request with ⟨rfl, rfl⟩ | hfree
    · exact .inl rfl
    · exact .inr hfree
  · exact .inr ⟨_, fun _ => rfl⟩
  · exact .inr ⟨_, fun _ => rfl⟩

/-- The request for the settings makes the settings file. -/
theorem dispatchMessage_settings (d : Disk) :
    ((shell f).dispatchMessage settingsPayload d).2 = (f.ensureExists d).2 := by
  have hdispatch : ((shell f).dispatchMessage settingsPayload d).2 = ((shell f).run .loadConfig d).2 := rfl
  rw [hdispatch, ← f.loadOrCreateValue_disk d, shell]
  dsimp only
  rcases f.loadOrCreateValue d with ⟨e | v, d'⟩ <;> rfl

end Handlers

namespace Host

variable (f : SettingsFile)

theorem openDialog_diskFree (payload : Value) : DiskFree ((shell f).openDialog payload) := by
  unfold openDialog
  rcases dialogRequest payload with e | request
  · exact ⟨_, fun _ => rfl⟩
  · exact ⟨_, fun _ => rfl⟩

theorem answer_diskFree (channel : String) (payload : Value) :
    (channel = messageChannel ∧ payload = settingsPayload) ∨ DiskFree ((shell f).answer channel payload) := by
  unfold answer
  by_cases hmessage : channel = messageChannel
  · simp only [if_pos hmessage]
    rcases Handlers.dispatchMessage_diskFree f payload with rfl | hfree
    · exact .inl ⟨hmessage, rfl⟩
    · exact .inr hfree
  · right
    by_cases hdialog : channel = dialogChannel
    · simp only [if_neg hmessage, if_pos hdialog]
      exact openDialog_diskFree f payload
    · simp only [if_neg hmessage, if_neg hdialog]
      exact ⟨_, fun _ => rfl⟩

/-- A text that does not ask for the settings is answered without the disk. -/
theorem handleText_diskFree {text : String} (h : ¬ AsksForSettings text) : DiskFree ((shell f).handleText text) := by
  unfold handleText replyTo
  rcases hparse : Envelope.parse text with err | e
  · exact ⟨_, fun _ => rfl⟩
  · rcases answer_diskFree f e.channel e.payload with ⟨hchannel, hpayload⟩ | hfree
    · exact absurd ⟨e, hparse, hchannel, hpayload⟩ h
    · exact hfree.map fun o => (Reply.mk e.id o).render

/-- A text that asks for the settings does to the disk what making their file does. -/
theorem handleText_settings {text : String} (h : AsksForSettings text) (d : Disk) :
    ((shell f).handleText text d).2 = (f.ensureExists d).2 := by
  obtain ⟨⟨id, channel, payload⟩, hparse, rfl, rfl⟩ := h
  unfold handleText replyTo
  rw [hparse]
  exact Handlers.dispatchMessage_settings f d

/-- Whatever texts content sends, the disk is left as it was if none of them asks for the settings, and otherwise as
making the settings file once would leave it: it does not matter how often and when the settings are asked for, and
whether the file can be made. -/
theorem settings_file_made_once (texts : List String) (d : Disk) :
    let d' := ((shell f).handleTexts texts d).2
    ((∀ text ∈ texts, ¬ AsksForSettings text) → d' = d) ∧
      ((∃ text ∈ texts, AsksForSettings text) → d' = (f.ensureExists d).2) := by
  induction texts generalizing d with
  | nil => exact ⟨fun _ => rfl, by rintro ⟨_, ⟨⟩, _⟩⟩
  | cons text texts ih =>
    obtain ⟨hnone, hsome⟩ := ih ((shell f).handleText text d).2
    have hfirst : ((shell f).handleTexts (text :: texts) d).2
        = ((shell f).handleTexts texts ((shell f).handleText text d).2).2 := rfl
    intro d'
    rw [show d' = _ from hfirst, List.forall_mem_cons, List.exists_mem_cons_iff]
    by_cases hasks : AsksForSettings text
    · refine ⟨fun h => absurd hasks h.1, fun _ => ?_⟩
      rw [handleText_settings f hasks] at hnone hsome ⊢
      by_cases hmore : ∃ text ∈ texts, AsksForSettings text
      · rw [hsome hmore, f.ensureExists_again]
      · exact hnone fun text htext hasks => hmore ⟨text, htext, hasks⟩
    · obtain ⟨reply, hreply⟩ := handleText_diskFree f hasks
      rw [hreply d] at hnone hsome ⊢
      refine ⟨fun h => hnone h.2, fun h => ?_⟩
      exact hsome (h.resolve_left hasks)

/-- Who asks twice has the file made once. -/
theorem file_made_for_two :
    let host := shell (.inDirectory "cfg")
    let ask := (Envelope.mk 1 messageChannel settingsPayload).render
    (host.handleTexts ["", "[]"] ⟨[], []⟩).2.entries = [] ∧
      (host.handleTexts [ask, "", ask] ⟨[], []⟩).2.entries
        = [(["cfg", "config.json"], .file SettingsFile.blankContent), (["cfg"], .directory)] := by
  intro host ask
  have hquiet : ∀ text ∈ ["", "[]"], ¬ AsksForSettings text := by
    rintro text htext ⟨e, hparse, -⟩
    rw [List.mem_pair] at htext
    rcases htext with rfl | rfl <;> cases hparse
  obtain ⟨hnone, -⟩ := settings_file_made_once (.inDirectory "cfg") ["", "[]"] ⟨[], []⟩
  obtain ⟨-, hsome⟩ := settings_file_made_once (.inDirectory "cfg") [ask, "", ask] ⟨[], []⟩
  rw [hnone hquiet, hsome ⟨ask, List.mem_cons_self, asks_render 1⟩]
  decide +kernel

end Host

end ShellHost
