import Mathlib.Logic.Relation
import ShellHost.Proofs.Disk.Paths

/-!
# Walks along paths

To resolve a path is to walk along its parts, from directory to directory and through links (`Advance`), until the last
part is reached (`Arrives`). A walk needs nothing but the directories and links on its way, so it can be repeated on
every disk that has them (`Advance.mono`), and it does not matter with how many slashes and dots the path is written
(`advance_of_named`). What the path is resolved for matters at its end only (`walk_purpose`).
-/

namespace ShellHost.Disk

open Relation

variable {d d' : Disk} {purpose : Purpose} {n : Nat} {dir place : Place} {part : List Char} {rest ps : List (List Char)}
  {name : String} {p : Path} {t : Target}

/-! ## One part -/

/-- What happens at a link on the way. -/
def followFrom (d : Disk) (purpose : Purpose) : Nat → Place → Path → List (List Char) → Except DiskError Target
  | 0, _, _, _ => .error .tooManyLinks
  | n + 1, dir, target, rest => d.walk purpose n (start dir target) (parts target ++ rest)

theorem walk_eq (d : Disk) (purpose : Purpose) (n : Nat) (dir : Place) (ps : List (List Char)) :
    d.walk purpose n dir ps = d.walkParts purpose (d.followFrom purpose n) dir ps := by
  cases n <;> rfl

theorem walk_nil (d : Disk) (purpose : Purpose) (n : Nat) (dir : Place) :
    d.walk purpose n dir [] = .ok (dir, some .directory) := by
  rw [walk_eq, walkParts]

theorem walk_silent (h : Component.ofPart? part = none) :
    d.walk purpose n dir (part :: rest) = d.walk purpose n dir rest := by
  rw [walk_eq, walkParts, h, walk_eq]

theorem walk_up (h : Component.ofPart? part = some .up) :
    d.walk purpose n dir (part :: rest) = d.walk purpose n dir.dropLast rest := by
  rw [walk_eq, walkParts, h, walk_eq]

theorem walk_entry (h : Component.ofPart? part = some (.entry name)) :
    d.walk purpose n dir (part :: rest) =
      if purpose = .writeFile ∧ onlySlashes rest then .error .isDirectory
      else if nameLimit < Utf8.size part then .error .nameTooLong
      else
        match d.node? (dir ++ [name]) with
        | none => if rest.isEmpty then .ok (dir ++ [name], none) else .error .notFound
        | some .directory => d.walk purpose n (dir ++ [name]) rest
        | some (.file c) => if rest.isEmpty then .ok (dir ++ [name], some (.file c)) else .error .notDirectory
        | some (.link target) =>
          if rest.isEmpty ∧ purpose = .changeEntry then .ok (dir ++ [name], some (.link target))
          else d.followFrom purpose n dir target rest := by
  rw [walk_eq, walkParts, h]
  dsimp only
  cases d.node? (dir ++ [name]) with
  | none => rfl
  | some node => cases node <;> simp only [walk_eq]

/-- Where no link stands, a walk stays in the directory: it ends at the entry, or goes on from there. -/
theorem walk_of_not_link {x : Option Node} (h : Component.ofPart? part = some (.entry name))
    (hlink : ∀ target, d.node? (dir ++ [name]) ≠ some (.link target))
    (hwalk : d.walk purpose n dir (part :: rest) = .ok (place, x)) :
    (rest = [] ∧ place = dir ++ [name]) ∨ d.walk purpose n (dir ++ [name]) rest = .ok (place, x) := by
  rw [walk_entry h] at hwalk
  by_cases hslash : purpose = .writeFile ∧ onlySlashes rest
  · rw [if_pos hslash] at hwalk
    cases hwalk
  by_cases hsize : nameLimit < Utf8.size part
  · rw [if_neg hslash, if_pos hsize] at hwalk
    cases hwalk
  rw [if_neg hslash, if_neg hsize] at hwalk
  cases hnode : d.node? (dir ++ [name]) with
  | none =>
    rw [hnode] at hwalk
    cases rest with
    | nil =>
      cases hwalk
      exact .inl ⟨rfl, rfl⟩
    | cons part' rest => cases hwalk
  | some node =>
    rw [hnode] at hwalk
    cases node with
    | directory => exact .inr hwalk
    | file c =>
      cases rest with
      | nil =>
        cases hwalk
        exact .inl ⟨rfl, rfl⟩
      | cons part' rest => cases hwalk
    | link target => exact absurd hnode (hlink target)

/-- The result of a walk, compared with that of one which uses what it finds: a file is not written under a name with a
slash behind it, and a link at the end is the entry that is changed. -/
def Differs (purpose : Purpose) (r : Except DiskError Target) : Prop :=
  (purpose = .writeFile ∧ r = .error .isDirectory) ∨
    (purpose = .changeEntry ∧ ∃ place target, r = .ok (place, some (.link target)))

theorem walk_cons_purpose
    (hfollow : ∀ dir target rest, d.followFrom purpose n dir target rest = d.followFrom .use n dir target rest ∨
      Differs purpose (d.followFrom purpose n dir target rest))
    (hrest : ∀ dir, d.walk purpose n dir rest = d.walk .use n dir rest ∨ Differs purpose (d.walk purpose n dir rest)) :
    d.walk purpose n dir (part :: rest) = d.walk .use n dir (part :: rest) ∨
      Differs purpose (d.walk purpose n dir (part :: rest)) := by
  rcases Component.ofPart?_cases part with h | h | ⟨name, h⟩
  · rw [walk_silent h, walk_silent h]
    exact hrest dir
  · rw [walk_up h, walk_up h]
    exact hrest dir.dropLast
  · have hwrite : ¬ (Purpose.use = .writeFile ∧ onlySlashes rest) := fun h => nomatch h.1
    rw [walk_entry h, walk_entry h, if_neg hwrite]
    by_cases hslash : purpose = .writeFile ∧ onlySlashes rest
    · rw [if_pos hslash]
      exact .inr (.inl ⟨hslash.1, rfl⟩)
    rw [if_neg hslash]
    split
    · exact .inl rfl
    · split
      · exact .inl rfl
      · exact hrest _
      · exact .inl rfl
      · by_cases hlast : rest.isEmpty ∧ purpose = .changeEntry
        · rw [if_pos hlast]
          exact .inr (.inr ⟨hlast.2, _, _, rfl⟩)
        · rw [if_neg hlast]
          simpa using hfollow _ _ _

/-- A path resolves in the same way whatever it is resolved for, but for its end. -/
theorem walk_purpose (d : Disk) (purpose : Purpose) (n : Nat) (dir : Place) (ps : List (List Char)) :
    d.walk purpose n dir ps = d.walk .use n dir ps ∨ Differs purpose (d.walk purpose n dir ps) := by
  -- a link is followed with one link less, and otherwise there is one part less
  induction n generalizing dir ps with
  | zero =>
    induction ps generalizing dir with
    | nil => exact .inl (by rw [walk_nil, walk_nil])
    | cons part rest ih => exact walk_cons_purpose (fun _ _ _ => .inl rfl) ih
  | succ n ihn =>
    induction ps generalizing dir with
    | nil => exact .inl (by rw [walk_nil, walk_nil])
    | cons part rest ih => exact walk_cons_purpose (fun _ _ _ => ihn _ _) ih

theorem walk_use_of_ok {x : Option Node} (h : d.walk purpose n dir ps = .ok (place, x))
    (hlink : ∀ target, x ≠ some (.link target)) : d.walk .use n dir ps = .ok (place, x) := by
  rcases walk_purpose d purpose n dir ps with heq | ⟨-, heq⟩ | ⟨-, place', target, heq⟩
  · rw [← heq, h]
  · rw [h] at heq
    cases heq
  · rw [h] at heq
    cases heq
    exact absurd rfl (hlink target)

theorem walk_use_of_error {e : DiskError} (h : d.walk .changeEntry n dir ps = .error e) :
    d.walk .use n dir ps = .error e := by
  rcases walk_purpose d .changeEntry n dir ps with heq | ⟨hpurpose, -⟩ | ⟨-, place', target, heq⟩
  · rw [← heq, h]
  · cases hpurpose
  · rw [h] at heq
    cases heq

/-! ## One move -/

/-- Somebody on the way along a path. -/
structure Walker where
  /-- How many links may still be followed. -/
  links : Nat
  /-- The directory that was reached. -/
  dir : Place
  /-- The parts that are left. -/
  rest : List (List Char)

/-- One move along a path. -/
inductive Advance (d : Disk) : Walker → Walker → Prop where
  /-- A part that says nothing is passed over. -/
  | silent {n : Nat} {dir : Place} {part : List Char} {rest : List (List Char)}
      (hpart : Component.ofPart? part = none) : Advance d ⟨n, dir, part :: rest⟩ ⟨n, dir, rest⟩
  /-- Up to the directory above. -/
  | up {n : Nat} {dir : Place} {part : List Char} {rest : List (List Char)}
      (hpart : Component.ofPart? part = some .up) : Advance d ⟨n, dir, part :: rest⟩ ⟨n, dir.dropLast, rest⟩
  /-- Into a directory. -/
  | enter {n : Nat} {dir : Place} {part : List Char} {rest : List (List Char)} {name : String}
      (hpart : Component.ofPart? part = some (.entry name)) (hsize : ¬ nameLimit < Utf8.size part)
      (hnode : d.node? (dir ++ [name]) = some .directory) :
      Advance d ⟨n, dir, part :: rest⟩ ⟨n, dir ++ [name], rest⟩
  /-- Along a link. -/
  | follow {n : Nat} {dir : Place} {part : List Char} {rest : List (List Char)} {name : String} {target : Path}
      (hpart : Component.ofPart? part = some (.entry name)) (hsize : ¬ nameLimit < Utf8.size part)
      (hnode : d.node? (dir ++ [name]) = some (.link target)) :
      Advance d ⟨n + 1, dir, part :: rest⟩ ⟨n, start dir target, parts target ++ rest⟩

/-- Several moves. -/
abbrev Advances (d : Disk) : Walker → Walker → Prop := ReflTransGen (Advance d)

/-- The end of a path. -/
inductive Arrives (d : Disk) : Walker → Target → Prop where
  /-- Nothing is left to say. -/
  | here {n : Nat} {dir : Place} : Arrives d ⟨n, dir, []⟩ (dir, some .directory)
  /-- The last part names nothing that is there. -/
  | missing {n : Nat} {dir : Place} {part : List Char} {name : String}
      (hpart : Component.ofPart? part = some (.entry name)) (hsize : ¬ nameLimit < Utf8.size part)
      (hnode : d.node? (dir ++ [name]) = none) : Arrives d ⟨n, dir, [part]⟩ (dir ++ [name], none)
  /-- The last part names a file. -/
  | file {n : Nat} {dir : Place} {part : List Char} {name : String} {c : List UInt8}
      (hpart : Component.ofPart? part = some (.entry name)) (hsize : ¬ nameLimit < Utf8.size part)
      (hnode : d.node? (dir ++ [name]) = some (.file c)) :
      Arrives d ⟨n, dir, [part]⟩ (dir ++ [name], some (.file c))

/-- A walker who goes on along further parts. -/
def Walker.andThen (w : Walker) (ps : List (List Char)) : Walker := { w with rest := w.rest ++ ps }

/-- The walk along the parts that are left. -/
def walkOn (d : Disk) (purpose : Purpose) (w : Walker) : Except DiskError Target := d.walk purpose w.links w.dir w.rest

variable {w w' : Walker}

/-- A move leaves the result of the walk as it is, if it is for use. -/
theorem Advance.walkOn_use (h : Advance d w w') : d.walkOn .use w = d.walkOn .use w' := by
  have hwrite : ∀ rest, ¬ (Purpose.use = .writeFile ∧ onlySlashes rest) := fun _ h => nomatch h.1
  have hchange : ∀ rest : List (List Char), ¬ (rest.isEmpty ∧ Purpose.use = .changeEntry) := fun _ h => nomatch h.2
  cases h with
  | silent hpart => exact walk_silent hpart
  | up hpart => exact walk_up hpart
  | enter hpart hsize hnode =>
    simp only [walkOn]
    rw [walk_entry hpart, if_neg (hwrite _), if_neg hsize, hnode]
  | follow hpart hsize hnode =>
    simp only [walkOn]
    rw [walk_entry hpart, if_neg (hwrite _), if_neg hsize, hnode]
    dsimp only
    rw [if_neg (hchange _)]
    rfl

/-- Before the end of the path it does not matter what it is resolved for. -/
theorem Advance.walkOn_andThen (h : Advance d w w') (hps : ∃ part ∈ ps, part ≠ []) :
    d.walkOn purpose (w.andThen ps) = d.walkOn purpose (w'.andThen ps) := by
  obtain ⟨part, hmem, hpart⟩ := hps
  have hslash : ∀ rest, ¬ (purpose = .writeFile ∧ onlySlashes (rest ++ ps)) := by
    rintro rest ⟨-, h⟩
    have hempty := List.all_eq_true.mp (Bool.and_eq_true_iff.mp h).2 part (List.mem_append_right _ hmem)
    exact hpart (List.isEmpty_iff.mp hempty)
  have hmore : ∀ rest, ¬ ((rest ++ ps).isEmpty ∧ purpose = .changeEntry) := by
    rintro rest ⟨h, -⟩
    rw [List.isEmpty_iff] at h
    rw [(List.append_eq_nil_iff.mp h).2] at hmem
    cases hmem
  cases h with
  | silent hpart => exact walk_silent hpart
  | up hpart => exact walk_up hpart
  | enter hpart hsize hnode =>
    simp only [walkOn, Walker.andThen, List.cons_append]
    rw [walk_entry hpart, if_neg (hslash _), if_neg hsize, hnode]
  | follow hpart hsize hnode =>
    simp only [walkOn, Walker.andThen, List.cons_append, List.append_assoc]
    rw [walk_entry hpart, if_neg (hslash _), if_neg hsize, hnode]
    dsimp only
    rw [if_neg (hmore _)]
    rfl

theorem Arrives.walkOn_use (h : Arrives d w t) : d.walkOn .use w = .ok t := by
  cases h with
  | here => exact walk_nil d _ _ _
  | missing hpart hsize hnode =>
    simp only [walkOn]
    rw [walk_entry hpart, if_neg (fun h => nomatch h.1), if_neg hsize, hnode]
    rfl
  | file hpart hsize hnode =>
    simp only [walkOn]
    rw [walk_entry hpart, if_neg (fun h => nomatch h.1), if_neg hsize, hnode]
    rfl

/-- Where a walk succeeds, it makes one move or is at its end. -/
theorem advance_or_arrives (h : d.walk .use n dir (part :: rest) = .ok t) :
    (∃ w, Advance d ⟨n, dir, part :: rest⟩ w ∧ d.walkOn .use w = .ok t) ∨ Arrives d ⟨n, dir, part :: rest⟩ t := by
  rcases Component.ofPart?_cases part with hpart | hpart | ⟨name, hpart⟩
  · exact .inl ⟨_, .silent hpart, (walk_silent hpart).symm.trans h⟩
  · exact .inl ⟨_, .up hpart, (walk_up hpart).symm.trans h⟩
  · rw [walk_entry hpart, if_neg (fun h => nomatch h.1)] at h
    by_cases hsize : nameLimit < Utf8.size part
    · rw [if_pos hsize] at h
      cases h
    rw [if_neg hsize] at h
    cases hnode : d.node? (dir ++ [name]) with
    | none =>
      rw [hnode] at h
      cases rest with
      | nil =>
        cases h
        exact .inr (.missing hpart hsize hnode)
      | cons part' rest => cases h
    | some node =>
      rw [hnode] at h
      cases node with
      | directory => exact .inl ⟨_, .enter hpart hsize hnode, h⟩
      | file c =>
        cases rest with
        | nil =>
          cases h
          exact .inr (.file hpart hsize hnode)
        | cons part' rest => cases h
      | link target =>
        dsimp only at h
        rw [if_neg (fun h => nomatch h.2)] at h
        cases n with
        | zero => cases h
        | succ n => exact .inl ⟨_, .follow hpart hsize hnode, h⟩

theorem advances_of_walk (h : d.walk .use n dir ps = .ok t) :
    ∃ w, Advances d ⟨n, dir, ps⟩ w ∧ Arrives d w t := by
  -- a link is followed with one link less, and otherwise there is one part less
  induction n using Nat.strongRecOn generalizing dir ps with
  | ind n ihn =>
    induction ps generalizing dir with
    | nil =>
      rw [walk_nil] at h
      cases h
      exact ⟨_, .refl, .here⟩
    | cons part rest ih =>
      rcases advance_or_arrives h with ⟨w, hmove, hrest⟩ | harrives
      · have hmoves : ∃ w', Advances d w w' ∧ Arrives d w' t := by
          cases hmove with
          | silent | up | enter => exact ih hrest
          | follow => exact ihn _ (Nat.lt_succ_self _) hrest
        obtain ⟨w', hmoves, harrives⟩ := hmoves
        exact ⟨w', .head hmove hmoves, harrives⟩
      · exact ⟨_, .refl, harrives⟩

theorem Advances.walkOn_use (h : Advances d w w') : d.walkOn .use w = d.walkOn .use w' := by
  induction h with
  | refl => rfl
  | tail _ hlast ih => exact ih.trans hlast.walkOn_use

theorem Advances.walkOn_andThen (h : Advances d w w') (hps : ∃ part ∈ ps, part ≠ []) :
    d.walkOn purpose (w.andThen ps) = d.walkOn purpose (w'.andThen ps) := by
  induction h with
  | refl => rfl
  | tail _ hlast ih => exact ih.trans (hlast.walkOn_andThen hps)

/-! ## The same walk again -/

/-- All ways are left: the directories and links of a disk are those of the other one, which may have more. -/
structure KeepsWays (d d' : Disk) : Prop where
  /-- Relative paths begin at the same place. -/
  home : d'.home = d.home
  /-- Directories are left. -/
  directory : ∀ place, d.node? place = some .directory → d'.node? place = some .directory
  /-- Links are left. -/
  link : ∀ place target, d.node? place = some (.link target) → d'.node? place = some (.link target)

theorem Advance.mono (hkeeps : KeepsWays d d') (h : Advance d w w') : Advance d' w w' := by
  cases h with
  | silent hpart => exact .silent hpart
  | up hpart => exact .up hpart
  | enter hpart hsize hnode => exact .enter hpart hsize (hkeeps.directory _ hnode)
  | follow hpart hsize hnode => exact .follow hpart hsize (hkeeps.link _ _ hnode)

theorem Advances.mono (hkeeps : KeepsWays d d') (h : Advances d w w') : Advances d' w w' := by
  induction h with
  | refl => exact .refl
  | tail _ hlast ih => exact ih.tail (hlast.mono hkeeps)

theorem advances_silent {silent : List (List Char)} (h : named silent = []) (n : Nat) (dir : Place)
    (rest : List (List Char)) : Advances d ⟨n, dir, silent ++ rest⟩ ⟨n, dir, rest⟩ := by
  induction silent with
  | nil => exact .refl
  | cons part silent ih =>
    have hpart : Component.ofPart? part = none := by
      cases hpart : Component.ofPart? part with
      | none => rfl
      | some c =>
        rw [named_cons hpart] at h
        cases h
    rw [named_cons_of_silent hpart] at h
    exact .head (.silent hpart) (ih h)

/-- Parts that say the same lead to the same directory. -/
theorem Advances.of_named (h : Advances d w w') (hend : w'.rest = []) {ps : List (List Char)}
    (hnamed : named ps = named w.rest) : Advances d { w with rest := ps } w' := by
  -- from the first move on: silent parts before the one that moves are passed over first
  induction h using ReflTransGen.head_induction_on generalizing ps with
  | refl =>
    rw [hend] at hnamed
    have hsilent := advances_silent (d := d) hnamed w'.links w'.dir []
    rw [List.append_nil, ← hend] at hsilent
    exact hsilent
  | head hmove _ ih =>
    cases hmove with
    | silent hpart =>
      refine ih ?_
      rw [hnamed]
      exact named_cons_of_silent hpart _
    | up hpart =>
      obtain ⟨silent, part, rest, rfl, hsilent, hpart', hrest⟩ := eq_append_of_named (hnamed.trans (named_cons hpart _))
      exact (advances_silent hsilent _ _ _).trans (.head (.up hpart') (ih hrest))
    | enter hpart hsize hnode =>
      obtain ⟨silent, part, rest, rfl, hsilent, hpart', hrest⟩ := eq_append_of_named (hnamed.trans (named_cons hpart _))
      obtain rfl := Component.ofPart?_inj hpart hpart'
      exact (advances_silent hsilent _ _ _).trans (.head (.enter hpart hsize hnode) (ih hrest))
    | follow hpart hsize hnode =>
      obtain ⟨silent, part, rest, rfl, hsilent, hpart', hrest⟩ := eq_append_of_named (hnamed.trans (named_cons hpart _))
      obtain rfl := Component.ofPart?_inj hpart hpart'
      refine (advances_silent hsilent _ _ _).trans (.head (.follow hpart hsize hnode) (ih ?_))
      rw [named_append, named_append, hrest]

/-! ## Paths -/

/-- Every path that the system looks at: no character in it is forbidden, and it is neither empty nor too long. -/
structure Admissible (p : Path) : Prop where
  /-- No character is forbidden. -/
  characters : ¬ p.toList.contains '\x00'
  /-- There is a character. -/
  nonempty : ¬ p.toList.isEmpty
  /-- There are not too many. -/
  size : ¬ pathLimit < Utf8.size p.toList

/-- Somebody at the beginning of a path. -/
def walker (d : Disk) (p : Path) : Walker := ⟨linkLimit, start d.home p, parts p⟩

theorem Admissible.resolve (hp : Admissible p) (d : Disk) (purpose : Purpose) :
    d.resolve purpose p = d.walkOn purpose (d.walker p) :=
  (if_neg hp.characters).trans ((if_neg hp.nonempty).trans (if_neg hp.size))

/-- What the system does not look at, it looks at on no disk and for no purpose. -/
theorem admissible_or_refused (p : Path) :
    Admissible p ∨ ∃ e, ∀ (d : Disk) (purpose : Purpose), d.resolve purpose p = .error e := by
  by_cases hcharacters : p.toList.contains '\x00'
  · exact .inr ⟨.forbiddenCharacter, fun d purpose => if_pos hcharacters⟩
  by_cases hempty : p.toList.isEmpty
  · exact .inr ⟨.notFound, fun d purpose => (if_neg hcharacters).trans (if_pos hempty)⟩
  by_cases hsize : pathLimit < Utf8.size p.toList
  · exact .inr ⟨.nameTooLong, fun d purpose => (if_neg hcharacters).trans ((if_neg hempty).trans (if_pos hsize))⟩
  exact .inl ⟨hcharacters, hempty, hsize⟩

theorem admissible_of_ok (h : d.resolve purpose p = .ok t) : Admissible p := by
  rcases admissible_or_refused p with hp | ⟨e, hrefused⟩
  · exact hp
  · rw [hrefused] at h
    cases h

theorem resolve_use_of_ok {x : Option Node} (h : d.resolve purpose p = .ok (place, x))
    (hlink : ∀ target, x ≠ some (.link target)) : d.resolve .use p = .ok (place, x) := by
  have hp := admissible_of_ok h
  rw [hp.resolve] at h ⊢
  exact walk_use_of_ok h hlink

theorem resolve_use_of_error {e : DiskError} (h : d.resolve .changeEntry p = .error e) :
    d.resolve .use p = .error e := by
  rcases admissible_or_refused p with hp | ⟨e', hrefused⟩
  · rw [hp.resolve] at h ⊢
    exact walk_use_of_error h
  · rw [hrefused] at h ⊢
    exact h

/-- A path leads to what a walk along it arrives at. -/
theorem resolve_use_iff : d.resolve .use p = .ok t ↔ Admissible p ∧ ∃ w, Advances d (d.walker p) w ∧ Arrives d w t := by
  constructor
  · intro h
    have hp := admissible_of_ok h
    rw [hp.resolve] at h
    exact ⟨hp, advances_of_walk h⟩
  · rintro ⟨hp, w, hmoves, harrives⟩
    rw [hp.resolve, hmoves.walkOn_use, harrives.walkOn_use]

end ShellHost.Disk
