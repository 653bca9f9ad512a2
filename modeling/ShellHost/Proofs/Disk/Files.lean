import Mathlib.Data.List.Basic
import ShellHost.Proofs.Disk.Directories

/-!
# Files

What is written to a path is read from it afterwards (`read_of_write`): the way to the file leads along directories and
links, and these are not changed. Writing it again changes nothing (`write_again`). Where nothing at all is changed, files
are read as before (`read_of_kept`), and a file that can be read can be written, too (`write_of_read`).
-/

namespace ShellHost.Disk

variable {d d' : Disk} {p : Path} {place : Place}

/-- What is written replaces a file or makes one. -/
theorem write_eq_ok {content : List UInt8} (h : d.write p content = .ok d') :
    ∃ place x, d.resolve .writeFile p = .ok (place, x) ∧ (x = none ∨ ∃ c, x = some (.file c)) ∧
      d' = d.put place (.file content) := by
  unfold write at h
  split at h
  · cases h
  · rename_i place hresolve
    exact ⟨place, none, hresolve, .inl rfl, (Except.ok.inj h).symm⟩
  · rename_i place c hresolve
    exact ⟨place, _, hresolve, .inr ⟨c, rfl⟩, (Except.ok.inj h).symm⟩
  · cases h

/-- A file that a path leads to stands at its place. -/
theorem file_of_resolve {purpose : Purpose} {c : List UInt8} (h : d.resolve purpose p = .ok (place, some (.file c))) :
    place ≠ [] ∧ d.node? place = some (.file c) := by
  obtain ⟨-, w, -, harrives⟩ := resolve_use_iff.mp (resolve_use_of_ok h (fun _ => nofun))
  cases harrives with
  | file hpart hsize hnode => exact ⟨by simp, hnode⟩

theorem exists?_of_resolve {node : Node} (h : d.resolve .use p = .ok (place, some node)) : d.exists? p = true := by
  unfold exists? find?
  rw [h]

theorem read_eq_ok_iff {c : List UInt8} :
    d.read p = .ok c ↔ ∃ place, d.resolve .use p = .ok (place, some (.file c)) := by
  unfold read find?
  rcases d.resolve .use p with e | ⟨place, _ | node⟩
  · simp
  · simp
  · cases node <;> simp

/-- Where everything is kept, files are read as before. -/
theorem read_of_kept (hhome : d'.home = d.home)
    (hkept : ∀ place node, d.node? place = some node → d'.node? place = some node) {c : List UInt8}
    (h : d.read p = .ok c) : d'.read p = .ok c := by
  obtain ⟨place, hresolve⟩ := read_eq_ok_iff.mp h
  obtain ⟨hp, w, hmoves, harrives⟩ := resolve_use_iff.mp hresolve
  have hkeeps : KeepsWays d d' := ⟨hhome, fun _ => hkept _ _, fun _ _ => hkept _ _⟩
  have hmoves' : Advances d' (d'.walker p) w := by
    have h := hmoves.mono hkeeps
    rwa [walker, ← hhome] at h
  refine read_eq_ok_iff.mpr ⟨place, resolve_use_iff.mpr ⟨hp, w, hmoves', ?_⟩⟩
  cases harrives with
  | file hpart hsize hnode => exact .file hpart hsize (hkept _ _ hnode)

/-! ## Written and read -/

/-- The path leads to what was written. -/
theorem resolve_of_write {content : List UInt8} (h : d.write p content = .ok d') :
    ∃ place, d' = d.put place (.file content) ∧ d'.resolve .use p = .ok (place, some (.file content)) := by
  obtain ⟨place, x, hresolve, hx, rfl⟩ := write_eq_ok h
  have hlink : ∀ target, x ≠ some (.link target) := by
    rintro target rfl
    rcases hx with hx | ⟨c, hx⟩ <;> cases hx
  obtain ⟨hp, w, hmoves, harrives⟩ := resolve_use_iff.mp (resolve_use_of_ok hresolve hlink)
  have hthere : place ≠ [] ∧ d.node? place = x := by
    rcases hx with rfl | ⟨c, rfl⟩
    · exact absent_of_resolve hresolve
    · exact file_of_resolve hresolve
  obtain ⟨hplace, hnode⟩ := hthere
  -- nothing but the file is changed, and no way leads through it
  have hother : ∀ q node, d.node? q = some node → (∀ c, node ≠ .file c) →
      (d.put place (.file content)).node? q = some node := by
    intro q node hq hfile
    have hne : q ≠ place := by
      rintro rfl
      rw [hnode] at hq
      rcases hx with rfl | ⟨c, rfl⟩
      · cases hq
      · exact hfile c (Option.some.inj hq).symm
    rw [node?_put hplace, if_neg hne, hq]
  have hkeeps : KeepsWays d (d.put place (.file content)) :=
    ⟨rfl, fun q hq => hother q _ hq (fun _ => nofun), fun q _ hq => hother q _ hq (fun _ => nofun)⟩
  have hnew : (d.put place (.file content)).node? place = some (.file content) := by
    rw [node?_put hplace, if_pos rfl]
  refine ⟨place, rfl, resolve_use_iff.mpr ⟨hp, w, hmoves.mono hkeeps, ?_⟩⟩
  cases harrives with
  | here => rcases hx with hx | ⟨c, hx⟩ <;> cases hx
  | missing hpart hsize _ => exact .file hpart hsize hnew
  | file hpart hsize _ => exact .file hpart hsize hnew

/-- What was written is there, and is read. -/
theorem read_of_write {content : List UInt8} (h : d.write p content = .ok d') :
    d'.exists? p = true ∧ d'.read p = .ok content := by
  obtain ⟨place, -, hresolve⟩ := resolve_of_write h
  exact ⟨exists?_of_resolve hresolve, read_eq_ok_iff.mpr ⟨place, hresolve⟩⟩

/-! ## Read and written -/

/-- The last of the parts, if there is one, is empty: the path ends with a slash. -/
def EndsBlank (ps : List (List Char)) : Prop := ∀ part, ps.getLast? = some part → part = []

theorem endsBlank_of_onlySlashes {rest : List (List Char)} (h : onlySlashes rest) (ps : List (List Char)) :
    EndsBlank (ps ++ rest) := by
  obtain ⟨hne, hall⟩ := Bool.and_eq_true_iff.mp h
  have hrest : rest ≠ [] := by simpa using hne
  intro part hpart
  rw [List.getLast?_append_of_ne_nil ps hrest] at hpart
  have hempty := List.all_eq_true.mp hall part (List.mem_of_getLast? hpart)
  exact List.isEmpty_iff.mp hempty

theorem Advance.endsBlank {w w' : Walker} (h : Advance d w w') (hw : EndsBlank w.rest) : EndsBlank w'.rest := by
  have htail : ∀ {part rest}, EndsBlank (part :: rest) → EndsBlank rest := by
    intro part rest hblank last hlast
    apply hblank
    rw [List.getLast?_cons, hlast]
    rfl
  cases h with
  | silent => exact htail hw
  | up => exact htail hw
  | enter => exact htail hw
  | @follow _ _ part rest name target hpart =>
    -- the part is not empty, so it is not the last one
    have hrest : rest ≠ [] := by
      rintro rfl
      obtain rfl := hw part rfl
      cases hpart
    intro last hlast
    rw [List.getLast?_append_of_ne_nil _ hrest] at hlast
    exact htail hw last hlast

/-- A path that ends with a slash does not lead to a file. -/
theorem EndsBlank.not_file {n : Nat} {dir : Place} {ps : List (List Char)} {c : List UInt8} (hps : EndsBlank ps) :
    d.walk .use n dir ps ≠ .ok (place, some (.file c)) := by
  intro h
  obtain ⟨w, hmoves, harrives⟩ := advances_of_walk h
  have hblank : EndsBlank w.rest := by
    clear harrives
    induction hmoves with
    | refl => exact hps
    | tail _ hlast ih => exact hlast.endsBlank ih
  cases harrives with
  | file hpart =>
    obtain rfl := hblank _ rfl
    cases hpart

/-- On the way to a file, it does not matter that the file is to be written. -/
theorem Advance.walkOn_writeFile {w w' : Walker} {c : List UInt8} (h : Advance d w w')
    (hfile : d.walkOn .use w' = .ok (place, some (.file c))) : d.walkOn .writeFile w = d.walkOn .writeFile w' := by
  cases h with
  | silent hpart => exact walk_silent hpart
  | up hpart => exact walk_up hpart
  | @enter _ _ _ rest _ hpart hsize hnode =>
    have hslash : ¬ (Purpose.writeFile = .writeFile ∧ onlySlashes rest) := by
      rintro ⟨-, h⟩
      exact (endsBlank_of_onlySlashes h []).not_file hfile
    simp only [walkOn]
    rw [walk_entry hpart, if_neg hslash, if_neg hsize, hnode]
  | @follow _ _ _ rest _ target hpart hsize hnode =>
    have hslash : ¬ (Purpose.writeFile = .writeFile ∧ onlySlashes rest) := by
      rintro ⟨-, h⟩
      exact (endsBlank_of_onlySlashes h (parts target)).not_file hfile
    simp only [walkOn]
    rw [walk_entry hpart, if_neg hslash, if_neg hsize, hnode]
    dsimp only
    rw [if_neg (by rintro ⟨-, ⟨⟩⟩)]
    rfl

theorem Advances.walkOn_writeFile {w w' : Walker} {c : List UInt8} (h : Advances d w w')
    (harrives : Arrives d w' (place, some (.file c))) : d.walkOn .writeFile w = .ok (place, some (.file c)) := by
  induction h using Relation.ReflTransGen.head_induction_on with
  | refl =>
    cases harrives with
    | file hpart hsize hnode =>
      simp only [walkOn]
      rw [walk_entry hpart, if_neg (by simp [onlySlashes]), if_neg hsize, hnode]
      rfl
  | head hmove hrest ih =>
    have hfile := (Advances.walkOn_use hrest).trans harrives.walkOn_use
    rw [hmove.walkOn_writeFile hfile, ih]

/-- A path that leads to a file leads to it for writing, too. -/
theorem resolve_writeFile_of_file {c : List UInt8} (h : d.resolve .use p = .ok (place, some (.file c))) :
    d.resolve .writeFile p = .ok (place, some (.file c)) := by
  obtain ⟨hp, w, hmoves, harrives⟩ := resolve_use_iff.mp h
  rw [hp.resolve, hmoves.walkOn_writeFile harrives]

/-- A file that can be read can be written. -/
theorem write_of_read {c : List UInt8} (h : d.read p = .ok c) (content : List UInt8) :
    ∃ d', d.write p content = .ok d' := by
  obtain ⟨place, hresolve⟩ := read_eq_ok_iff.mp h
  refine ⟨d.put place (.file content), ?_⟩
  rw [write, resolve_writeFile_of_file hresolve]

theorem put_put (d : Disk) (place : Place) (node : Node) : (d.put place node).put place node = d.put place node := by
  simp [put, List.filter_filter]

/-- To write the same again changes nothing. -/
theorem write_again {content : List UInt8} (h : d.write p content = .ok d') : d'.write p content = .ok d' := by
  obtain ⟨place, hput, hresolve⟩ := resolve_of_write h
  have hsame : d'.put place (.file content) = d' := by
    rw [hput]
    exact put_put d place _
  rw [write, resolve_writeFile_of_file hresolve]
  dsimp only
  rw [hsame]

end ShellHost.Disk
