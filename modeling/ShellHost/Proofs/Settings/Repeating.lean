import ShellHost.Proofs.Disk.Repeating
import ShellHost.Proofs.Settings.Keeping

/-!
# Making the settings file again

Whoever has made the settings file, or has failed to, leaves nothing to do for another attempt: the second one finds the
disk as the first one left it, and leaves it so (`ensureExists_again`).
-/

namespace ShellHost.SettingsFile

open Disk

variable {f : SettingsFile} {d d' : Disk} {e : SettingsError}

theorem makeParent_again (h : f.makeParent d = (.ok (), d')) : f.makeParent d' = (.ok (), d') := by
  unfold makeParent at h ⊢
  cases hp : parent? f.path with
  | none => rfl
  | some p =>
    rw [hp] at h
    dsimp only at h ⊢
    rcases hmade : d.makeDirectories p with ⟨e | _, d₁⟩
    · rw [hmade] at h
      cases h
    · rw [hmade] at h
      obtain rfl : d₁ = d' := congrArg Prod.snd h
      rw [makeDirectories_again (trimmed_of_parent? hp) hmade]

theorem makeParent_failed (h : f.makeParent d = (.error e, d')) : ∃ e', f.makeParent d' = (.error e', d') := by
  unfold makeParent at h ⊢
  cases hp : parent? f.path with
  | none =>
    rw [hp] at h
    cases h
  | some p =>
    rw [hp] at h
    dsimp only at h ⊢
    rcases hmade : d.makeDirectories p with ⟨err | _, d₁⟩
    · rw [hmade] at h
      obtain rfl : d₁ = d' := congrArg Prod.snd h
      obtain ⟨err', hagain⟩ := makeDirectories_failed (trimmed_of_parent? hp) hmade
      rw [hagain]
      exact ⟨_, rfl⟩
    · rw [hmade] at h
      cases h

/-- The second attempt to make the file changes nothing, whatever the first one came to. -/
theorem ensureExists_again (f : SettingsFile) (d : Disk) :
    (f.ensureExists (f.ensureExists d).2).2 = (f.ensureExists d).2 := by
  have hfirst := f.ensured d
  generalize f.ensureExists d = r at hfirst
  cases hfirst with
  | there hfound =>
    dsimp only
    rw [ensureExists, if_pos hfound]
  | @noParent e d₁ _ hfailed =>
    -- the path may lead to a file by now; if it does not, the directory cannot be made still
    obtain ⟨e', hagain⟩ := makeParent_failed hfailed
    dsimp only
    rw [ensureExists, hagain]
    split <;> rfl
  | @refused e d₁ _ hmade hrefused =>
    dsimp only
    rw [ensureExists, makeParent_again hmade]
    dsimp only
    rw [hrefused]
    split <;> rfl
  | written _ _ hwritten =>
    dsimp only
    rw [ensureExists, if_pos (read_of_write hwritten).1]

end ShellHost.SettingsFile
