import ShellHost.Proofs.Disk.Files
import ShellHost.Settings.File

/-!
# Files that are kept

Whoever reads settings may make the file that holds them, and the directories above it, but leaves alone what is on the
disk. There is one exception: whether the file is there is asked before the directories are made. If the path goes up
from a directory that is only then made, it leads to a file that was there all the time, and this one is overwritten
(`Mistaken`).
-/

namespace ShellHost

open Disk

namespace SettingsFile

variable {f : SettingsFile} {d d' : Disk} {place : Place} {dir p : Path}

/-! ## The way to the file -/

/-- The name of the file stands behind the directory, and nothing can be taken off it. -/
theorem parts_inDirectory (dir : Path) :
    Trimmed (inDirectory dir).path ∧ ∃ pre, parts (inDirectory dir).path = pre ++ [fileName.toList] ∧
      ∀ part ∈ pre, part ∈ parts dir := by
  have hslash : '/' ∉ fileName.toList := by decide
  obtain ⟨above, hparts, -, habove⟩ := parts_join dir hslash
  refine ⟨?_, above, hparts, habove⟩
  have hrelative : isAbsolute fileName = false := by decide
  obtain ⟨pre, hpre⟩ := toList_join dir hrelative
  have hlast : fileName.toList.reverse = ['n', 'o', 's', 'j', '.', 'g', 'i', 'f', 'n', 'o', 'c'] := by decide
  unfold Trimmed
  rw [inDirectory, hpre, List.reverse_append, hlast]
  rfl

/-- What makes the directory of the file succeeds without doing anything, or by making it. -/
theorem makeParent_eq_ok (h : f.makeParent d = (.ok (), d')) :
    d' = d ∨ ∃ p, parent? f.path = some p ∧ d.makeDirectories p = (.ok (), d') := by
  unfold makeParent at h
  split at h
  · exact .inl (congrArg Prod.snd h).symm
  · rename_i p hp
    split at h
    · rename_i d₁ hmade
      exact .inr ⟨p, hp, hmade.trans (congrArg (Prod.mk (Except.ok ())) (congrArg Prod.snd h))⟩
    · cases h

theorem makeParent_grows (f : SettingsFile) (d : Disk) : Grows d (f.makeParent d).2 := by
  unfold makeParent
  split
  · exact .refl d
  · rename_i p hp
    have hgrows := makeFirst_grows d (ancestors p.length p)
    split
    · rename_i d₁ hmade
      rw [makeDirectories] at hmade
      rwa [hmade] at hgrows
    · rename_i e d₁ hmade
      rw [makeDirectories] at hmade
      rwa [hmade] at hgrows

/-- The file is missed at first: nothing is found, but when the directories are made, the path leads to a file. -/
structure Mistaken (f : SettingsFile) (d : Disk) (place : Place) : Prop where
  /-- Nothing is found. -/
  missing : d.exists? f.path = false
  /-- The directories can be made. -/
  made : (f.makeParent d).1 = .ok ()
  /-- The path leads to a file. -/
  found : ∃ c, (f.makeParent d).2.resolve .writeFile f.path = .ok (place, some (.file c))

/-- A file is missed only if its directory is. -/
theorem Mistaken.not_isDirectory (h : (inDirectory dir).Mistaken d place) (hp : parent? (inDirectory dir).path = some p) :
    d.isDirectory p = false := by
  by_contra hdir
  rw [Bool.not_eq_false] at hdir
  obtain ⟨c, hfound⟩ := h.found
  obtain ⟨htrimmed, -⟩ := (parts_inDirectory dir).1.parent? hp
  have hsame : (inDirectory dir).makeParent d = (.ok (), d) := by
    unfold makeParent
    rw [hp]
    dsimp only
    rw [makeDirectories_of_isDirectory htrimmed (.inr hdir)]
  rw [hsame] at hfound
  have hmissing := h.missing
  rw [exists?_of_resolve (resolve_use_of_ok hfound (fun _ => nofun))] at hmissing
  cases hmissing

/-- A file is missed only if the path of its directory goes up. -/
theorem Mistaken.goes_up (hd : d.WellFormed) (h : (inDirectory dir).Mistaken d place) : .up ∈ named (parts dir) := by
  by_contra hup
  obtain ⟨c, hfound⟩ := h.found
  obtain ⟨htrimmed, pre, hparts, hpre⟩ := parts_inDirectory dir
  have hname : Component.ofPart? fileName.toList = some (.entry fileName) := by decide
  have hsize : ¬ nameLimit < Utf8.size fileName.toList := by decide
  have hmade : (inDirectory dir).makeParent d = (.ok (), ((inDirectory dir).makeParent d).2) := by rw [← h.made]
  -- had nothing been made, the file would have been found at first
  have hnothing : ((inDirectory dir).makeParent d).2 ≠ d := by
    intro hsame
    rw [hsame] at hfound
    have hmissing := h.missing
    rw [exists?_of_resolve (resolve_use_of_ok hfound (fun _ => nofun))] at hmissing
    cases hmissing
  rcases makeParent_eq_ok hmade with hsame | ⟨p, hp, hmade⟩
  · exact hnothing hsame
  obtain ⟨hptrimmed, rfl | ⟨pre', last, hparts', hnamed, hstart⟩⟩ := htrimmed.parent? hp
  · exact hnothing (congrArg Prod.snd hmade).symm
  obtain ⟨rfl, hlast⟩ := List.append_inj' (hparts.symm.trans hparts') rfl
  obtain rfl : fileName.toList = last := List.head_eq_of_cons_eq hlast
  have hpup : .up ∉ named (parts p) := by
    rw [← hnamed]
    intro hmem
    obtain ⟨part, hpart, hc⟩ := List.mem_filterMap.mp hmem
    exact hup (List.mem_filterMap.mpr ⟨part, hpre part hpart, hc⟩)
  rcases makeFirst_ancestors hd hptrimmed hpup hmade with ⟨hsame, -⟩ | ⟨place', hfresh⟩
  · exact hnothing hsame
  · have hnone := hfresh.resolve_below .writeFile (admissible_of_ok hfound) hparts hnamed hstart hname
    rw [if_neg hsize, hfound] at hnone
    cases hnone

/-! ## Reading and making -/

/-- What making the file may come to. -/
inductive Ensured (f : SettingsFile) (d : Disk) : Except SettingsError Bool × Disk → Prop where
  /-- It is there. -/
  | there (hfound : d.exists? f.path = true) : Ensured f d (.ok false, d)
  /-- Its directory cannot be made. -/
  | noParent {e : SettingsError} {d₁ : Disk} (hmissing : d.exists? f.path = false)
      (hfailed : f.makeParent d = (.error e, d₁)) : Ensured f d (.error e, d₁)
  /-- The file cannot be written. -/
  | refused {e : DiskError} {d₁ : Disk} (hmissing : d.exists? f.path = false) (hmade : f.makeParent d = (.ok (), d₁))
      (hrefused : d₁.write f.path blankContent = .error e) :
      Ensured f d (.error (.unusable s!"failed to write default config to {f.path}: {e.message}"), d₁)
  /-- The file is written. -/
  | written {d₁ d₂ : Disk} (hmissing : d.exists? f.path = false) (hmade : f.makeParent d = (.ok (), d₁))
      (hwritten : d₁.write f.path blankContent = .ok d₂) : Ensured f d (.ok true, d₂)

theorem ensured (f : SettingsFile) (d : Disk) : f.Ensured d (f.ensureExists d) := by
  unfold ensureExists
  split
  · rename_i hfound
    exact .there hfound
  · rename_i hmissing
    rw [Bool.not_eq_true] at hmissing
    split
    · rename_i e d₁ hfailed
      exact .noParent hmissing hfailed
    · rename_i d₁ hmade
      split
      · rename_i d₂ hwritten
        exact .written hmissing hmade hwritten
      · rename_i e hrefused
        exact .refused hmissing hmade hrefused

/-- What makes the file leaves every entry as it is, but for a file that it missed. -/
theorem Ensured.kept {r : Except SettingsError Bool × Disk} (h : f.Ensured d r) :
    r.2.home = d.home ∧ ∀ place node, d.node? place = some node → r.2.node? place = some node ∨ f.Mistaken d place := by
  have hgrows := f.makeParent_grows d
  cases h with
  | there => exact ⟨rfl, fun _ _ hnode => .inl hnode⟩
  | noParent _ hfailed =>
    rw [hfailed] at hgrows
    exact ⟨hgrows.home, fun _ _ hnode => .inl (hgrows.kept _ _ hnode)⟩
  | refused _ hmade =>
    rw [hmade] at hgrows
    exact ⟨hgrows.home, fun _ _ hnode => .inl (hgrows.kept _ _ hnode)⟩
  | written hmissing hmade hwritten =>
    obtain ⟨place, x, hresolve, hx, rfl⟩ := write_eq_ok hwritten
    rw [hmade] at hgrows
    refine ⟨hgrows.home, fun q node hnode => ?_⟩
    have hthere := hgrows.kept _ _ hnode
    have hplace : place ≠ [] := by
      rcases hx with rfl | ⟨c, rfl⟩
      · exact (absent_of_resolve hresolve).1
      · exact (file_of_resolve hresolve).1
    by_cases hq : q = place
    · subst hq
      -- what stands where it was written is a file, and the path leads to it now
      rcases hx with rfl | ⟨c, rfl⟩
      · rw [(absent_of_resolve hresolve).2] at hthere
        cases hthere
      · exact .inr ⟨hmissing, by rw [hmade], c, by rw [hmade]; exact hresolve⟩
    · exact .inl (by rw [node?_put hplace, if_neg hq, hthere])

/-- A file that was missed is overwritten. -/
theorem Mistaken.overwritten (h : f.Mistaken d place) :
    (∃ c, d.node? place = some (.file c)) ∧ (f.ensureExists d).2.node? place = some (.file blankContent) := by
  obtain ⟨c, hfound⟩ := h.found
  obtain ⟨hplace, hfile⟩ := file_of_resolve hfound
  have hmade : f.makeParent d = (.ok (), (f.makeParent d).2) := by rw [← h.made]
  have hwritten : (f.makeParent d).2.write f.path blankContent
      = .ok ((f.makeParent d).2.put place (.file blankContent)) := by
    unfold write
    rw [hfound]
  have hresult : f.ensureExists d = (.ok true, (f.makeParent d).2.put place (.file blankContent)) := by
    unfold ensureExists
    rw [h.missing, if_neg Bool.false_ne_true, hmade]
    dsimp only
    rw [hwritten]
  rw [hresult]
  exact ⟨⟨c, (f.makeParent_grows d).file hfile⟩, (node?_put hplace _ _ _).trans (if_pos rfl)⟩

/-- What asks for settings, and makes their file if it is not found. -/
inductive Opening where
  /-- Only makes the file. -/
  | ensureExists
  /-- Reads the file as JSON. -/
  | loadOrCreateValue
  /-- Reads the settings. -/
  | loadOrCreate

/-- The disk afterwards, whatever the result is. -/
def opened (f : SettingsFile) (d : Disk) : Opening → Disk
  | .ensureExists => (f.ensureExists d).2
  | .loadOrCreateValue => (f.loadOrCreateValue d).2
  | .loadOrCreate => (f.loadOrCreate d).2

theorem loadOrCreateValue_disk (f : SettingsFile) (d : Disk) : (f.loadOrCreateValue d).2 = (f.ensureExists d).2 := by
  rw [loadOrCreateValue]
  rcases f.ensureExists d with ⟨e | b, d'⟩ <;> rfl

/-- Only what makes the file changes the disk. -/
theorem opened_eq (f : SettingsFile) (d : Disk) (o : Opening) : f.opened d o = (f.ensureExists d).2 := by
  cases o with
  | ensureExists => rfl
  | loadOrCreateValue => exact f.loadOrCreateValue_disk d
  | loadOrCreate =>
    rw [← f.loadOrCreateValue_disk d, opened, loadOrCreate]
    rcases f.loadOrCreateValue d with ⟨e | v, d'⟩ <;> rfl

/-- Whoever reads settings, whether it succeeds or not, leaves every file, directory and link as it is, and what could be
read can be read as before. A file is overwritten if and only if it is missed at first; then the directory of the
settings is not there, and its path goes up. -/
theorem files_kept_but_mistaken (dir : Path) {d : Disk} (hd : d.WellFormed) (o : Opening) :
    let f := inDirectory dir
    let d' := f.opened d o
    (∀ place node, d.node? place = some node → d'.node? place = some node ∨ f.Mistaken d place) ∧
      ((∀ place, ¬ f.Mistaken d place) → ∀ p c, d.read p = .ok c → d'.read p = .ok c) ∧
      ∀ place, f.Mistaken d place →
        (∃ c, d.node? place = some (.file c)) ∧ d'.node? place = some (.file blankContent) ∧
          .up ∈ named (parts dir) ∧ ∀ p, parent? f.path = some p → d.isDirectory p = false := by
  intro f d'
  have hdisk : d' = (f.ensureExists d).2 := f.opened_eq d o
  obtain ⟨hhome, hkept⟩ := (f.ensured d).kept
  rw [← hdisk] at hhome hkept
  refine ⟨hkept, fun hnone p c => ?_, fun place hmistaken => ?_⟩
  · exact read_of_kept hhome fun place node hnode => (hkept place node hnode).resolve_right (hnone place)
  · obtain ⟨hfile, hoverwritten⟩ := hmistaken.overwritten
    rw [← hdisk] at hoverwritten
    exact ⟨hfile, hoverwritten, hmistaken.goes_up hd, fun p hp => hmistaken.not_isDirectory hp⟩

/-- A disk with settings in a directory. -/
def diskWithSettings (content : List UInt8) : Disk :=
  ⟨[(["cfg"], .directory), (["cfg", "config.json"], .file content)], []⟩

/-- The settings in `cfg` are left alone by one who looks for them in a directory that is not there. -/
theorem settings_kept_beside : (diskWithSettings [1]).WellFormed ∧ (diskWithSettings [1]).read "cfg/config.json" = .ok [1] ∧
    ((inDirectory "cfg/other").opened (diskWithSettings [1]) .loadOrCreate).read "cfg/config.json" = .ok [1] := by
  have hd : (diskWithSettings [1]).WellFormed := by decide
  have hread : (diskWithSettings [1]).read "cfg/config.json" = .ok [1] := by decide +kernel
  obtain ⟨-, hkept, hmistaken⟩ := files_kept_but_mistaken "cfg/other" hd .loadOrCreate
  refine ⟨hd, hread, hkept (fun place h => ?_) _ _ hread⟩
  have hup := (hmistaken place h).2.2.1
  revert hup
  decide

/-- Somebody looks for them through a directory that is not there yet, and they are gone. -/
theorem settings_overwritten : (diskWithSettings [1]).WellFormed ∧ (diskWithSettings [1]).read "cfg/config.json" = .ok [1] ∧
    ((inDirectory "missing/../cfg").opened (diskWithSettings [1]) .loadOrCreateValue).read "cfg/config.json"
      = .ok blankContent := by
  decide +kernel

end SettingsFile

end ShellHost
