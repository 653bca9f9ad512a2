import ShellHost.Proofs.Disk.Additions
import ShellHost.Proofs.Settings.Repeating

/-!
# Saving in vain

Settings that cannot be saved may be out of range, or the directory of the file cannot be made, or the file cannot be opened
(`Unsaved`). In the first case nothing is done. In the others directories may have been added on the way to the file, and all
else is as it was (`failed_save_harmless`). Nothing is left for a second attempt to add.
-/

namespace ShellHost.SettingsFile

open Disk

variable {f : SettingsFile} {s : Settings} {d d' : Disk} {e : SettingsError} {place : Place} {node : Node}

/-- Why settings are not saved, and the disk that is left. -/
inductive Unsaved (f : SettingsFile) (s : Settings) (d : Disk) : SettingsError → Disk → Prop where
  /-- They are out of range. -/
  | outOfRange {e : SettingsError} (hcheck : s.check = .error e) : Unsaved f s d e d
  /-- The directory of the file cannot be made. -/
  | noParent {e : SettingsError} {d' : Disk} (hcheck : s.check = .ok ()) (hfailed : f.makeParent d = (.error e, d')) :
      Unsaved f s d e d'
  /-- The file cannot be written. -/
  | refused {err : DiskError} {d' : Disk} (hcheck : s.check = .ok ()) (hmade : f.makeParent d = (.ok (), d'))
      (hrefused : d'.write f.path (Utf8.encodeString s.render) = .error err) :
      Unsaved f s d (.unusable s!"failed to write config to {f.path}: {err.message}") d'

theorem save_eq_error_iff : f.save s d = (.error e, d') ↔ f.Unsaved s d e d' := by
  constructor
  · intro h
    rw [save] at h
    split at h
    · rename_i e' hcheck
      cases h
      exact .outOfRange hcheck
    rename_i hcheck
    split at h
    · rename_i e' d₁ hfailed
      cases h
      exact .noParent hcheck hfailed
    rename_i d₁ hmade
    split at h
    · cases h
    · rename_i err hrefused
      cases h
      exact .refused hcheck hmade hrefused
  · intro h
    cases h with
    | outOfRange hcheck => rw [save, hcheck]
    | noParent hcheck hfailed => rw [save, hcheck, hfailed]
    | refused hcheck hmade hrefused =>
      rw [save, hcheck, hmade]
      dsimp only
      rw [hrefused]

/-- What is there at a place that is new: a directory, with nothing in it but more of them, on the way to that of the file. -/
structure Paved (f : SettingsFile) (d : Disk) (place : Place) (node : Node) : Prop where
  /-- It is a directory. -/
  directory : node = .directory
  /-- In it there are only directories. -/
  bare : ∀ rest below, d.node? (place ++ rest) = some below → below = .directory
  /-- The path of the directory of the file, or that of one above, leads to it. -/
  onTheWay : ∃ dir q, parent? f.path = some dir ∧ Above dir q ∧ d.resolve .use q = .ok (place, some .directory)

/-- Only what makes the directory of the file changes the disk. -/
theorem makeParent_disk {r : Except SettingsError Unit} (h : f.makeParent d = (r, d')) :
    d' = d ∨ ∃ dir r', parent? f.path = some dir ∧ d.makeDirectories dir = (r', d') := by
  unfold makeParent at h
  split at h
  · exact .inl (congrArg Prod.snd h).symm
  rename_i dir hdir
  right
  split at h
  · rename_i d₁ hmade
    cases h
    exact ⟨dir, _, hdir, hmade⟩
  · rename_i err d₁ hmade
    cases h
    exact ⟨dir, _, hdir, hmade⟩

theorem makeParent_paves {r : Except SettingsError Unit} (hd : d.WellFormed) (h : f.makeParent d = (r, d'))
    (hnew : d'.node? place = some node) : d.node? place = some node ∨ f.Paved d' place node := by
  have hgrows : Grows d d' := by
    have hgrows := f.makeParent_grows d
    rwa [h] at hgrows
  cases hnode : d.node? place with
  | some node' =>
    rw [hgrows.kept _ _ hnode] at hnew
    exact .inl hnew
  | none =>
    rcases makeParent_disk h with rfl | ⟨dir, r', hdir, hmade⟩
    · rw [hnode] at hnew
      cases hnew
    have hbelow : ∀ rest below, d'.node? (place ++ rest) = some below → below = .directory := by
      intro rest below hbelow
      exact hgrows.directory_of_below hd hnode rest hbelow
    obtain ⟨q, habove, hleads⟩ := makeDirectories_adds (trimmed_of_parent? hdir) hmade hnode hnew
    exact .inr ⟨hbelow [] node (by rwa [List.append_nil]), hbelow, dir, q, hdir, habove, hleads⟩

theorem Unsaved.disk (h : f.Unsaved s d e d') : d' = d ∨ ∃ r, f.makeParent d = (r, d') := by
  cases h with
  | outOfRange => exact .inl rfl
  | noParent _ hfailed => exact .inr ⟨_, hfailed⟩
  | refused _ hmade => exact .inr ⟨_, hmade⟩

theorem Unsaved.grows (h : f.Unsaved s d e d') : Grows d d' := by
  rcases h.disk with rfl | ⟨r, hmade⟩
  · exact .refl _
  · have hgrows := f.makeParent_grows d
    rwa [hmade] at hgrows

/-- The second attempt fails as the first did, and there is nothing left to add. -/
theorem Unsaved.again (h : f.Unsaved s d e d') : ∃ e', f.Unsaved s d' e' d' := by
  cases h with
  | outOfRange hcheck => exact ⟨e, .outOfRange hcheck⟩
  | noParent hcheck hfailed =>
    obtain ⟨e', hagain⟩ := makeParent_failed hfailed
    exact ⟨e', .noParent hcheck hagain⟩
  | refused hcheck hmade hrefused => exact ⟨_, .refused hcheck (makeParent_again hmade) hrefused⟩

theorem Unsaved.invalid {reason : String} (h : f.Unsaved s d (.invalid reason) d') : d' = d := by
  cases h with
  | outOfRange => rfl
  | noParent _ hfailed =>
    unfold makeParent at hfailed
    split at hfailed
    · cases hfailed
    · split at hfailed <;> cases hfailed

/-- Where settings cannot be saved, for whatever reason, every file, directory and link stays as it is, and every file is
read as before. What is new are empty directories on the way to that of the settings. Nothing at all is new if the settings
are out of range. Whoever tries to save them again fails again, and changes nothing. -/
theorem failed_save_harmless (hd : d.WellFormed) (h : f.save s d = (.error e, d')) :
    (∀ place node, d.node? place = some node → d'.node? place = some node) ∧
      (∀ p c, d.read p = .ok c → d'.read p = .ok c) ∧
      (∀ place node, d'.node? place = some node → d.node? place = some node ∨ f.Paved d' place node) ∧
      (∀ reason, e = .invalid reason → d' = d) ∧
      ∃ e', f.save s d' = (.error e', d') := by
  have hunsaved := save_eq_error_iff.mp h
  have hgrows := hunsaved.grows
  refine ⟨hgrows.kept, fun p c => read_of_kept hgrows.home hgrows.kept, fun place node hnode => ?_, ?_, ?_⟩
  · rcases hunsaved.disk with rfl | ⟨r, hmade⟩
    · exact .inl hnode
    · exact makeParent_paves hd hmade hnode
  · rintro reason rfl
    exact hunsaved.invalid
  · obtain ⟨e', hagain⟩ := hunsaved.again
    exact ⟨e', save_eq_error_iff.mpr hagain⟩

/-- A disk with a directory where the settings file should be, and a file beside it. -/
def diskWithoutRoom : Disk :=
  ⟨[(["cfg"], .directory), (["cfg", "config.json"], .directory), (["cfg", "notes"], .file [1])], []⟩

/-- Settings that are to be saved there, through a directory that is not there yet, are not saved. That directory is made,
the file is kept, and the second attempt makes nothing. -/
theorem notes_kept :
    let f := inDirectory "missing/../cfg"
    ∃ e e' d', f.save {} diskWithoutRoom = (.error e, d') ∧ d'.node? ["missing"] = some .directory ∧
      d'.read "cfg/notes" = .ok [1] ∧ f.save {} d' = (.error e', d') := by
  intro f
  have hfacts : (f.makeParent diskWithoutRoom).1 = .ok () ∧ (f.makeParent diskWithoutRoom).2.resolve .writeFile f.path
      = .ok (["cfg", "config.json"], some .directory) ∧
      (f.makeParent diskWithoutRoom).2.node? ["missing"] = some .directory := by decide +kernel
  rcases hmade : f.makeParent diskWithoutRoom with ⟨r, d'⟩
  rw [hmade] at hfacts
  obtain ⟨rfl, hblocked, hnew⟩ := hfacts
  have hrefused : d'.write f.path (Utf8.encodeString ({} : Settings).render) = .error .isDirectory := by
    rw [write, hblocked]
  have hfailed := save_eq_error_iff.mpr (.refused (by decide) hmade hrefused)
  have hd : diskWithoutRoom.WellFormed := by decide
  have hnotes : diskWithoutRoom.read "cfg/notes" = .ok [1] := by decide +kernel
  obtain ⟨-, hread, -, -, e', hagain⟩ := failed_save_harmless hd hfailed
  exact ⟨_, e', d', hfailed, hnew, hread _ _ hnotes, hagain⟩

end ShellHost.SettingsFile
