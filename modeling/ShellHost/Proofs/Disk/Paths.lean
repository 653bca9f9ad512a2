import Mathlib.Data.List.Basic
import Mathlib.Data.List.TakeWhile
import ShellHost.Disk.Basic

/-!
# What a path says

A path says what its parts say, one after another (`named`); empty parts and single dots say nothing. The path of the
directory above says the same but for the last part (`Trimmed.parent?`).
-/

namespace ShellHost.Disk

/-- What parts of a path say. -/
def named (ps : List (List Char)) : List Component := ps.filterMap Component.ofPart?

/-! ## Parts -/

theorem Component.ofPart?_up {part : List Char} : ofPart? part = some .up ↔ part = ['.', '.'] := by
  unfold ofPart?
  constructor
  · intro h
    split_ifs at h with hsilent hup
    · exact hup
    · cases h
  · rintro rfl
    rfl

theorem Component.ofPart?_entry {part : List Char} {name : String} (h : ofPart? part = some (.entry name)) :
    name = String.ofList part ∧ part ≠ [] := by
  unfold ofPart? at h
  split_ifs at h with hsilent hup
  · cases h
  · obtain rfl : String.ofList part = name := Component.entry.inj (Option.some.inj h)
    exact ⟨rfl, fun hnil => hsilent (.inl hnil)⟩

/-- A part is silent, or goes up, or names an entry. -/
theorem Component.ofPart?_cases (part : List Char) :
    ofPart? part = none ∨ ofPart? part = some .up ∨ ∃ name, ofPart? part = some (.entry name) := by
  unfold ofPart?
  split_ifs with hsilent hup
  · exact .inl rfl
  · exact .inr (.inl rfl)
  · exact .inr (.inr ⟨_, rfl⟩)

theorem Component.ofPart?_inj {part part' : List Char} {c : Component} (h : ofPart? part = some c)
    (h' : ofPart? part' = some c) : part = part' := by
  rcases ofPart?_cases part with hc | hc | ⟨name, hc⟩
  · rw [hc] at h
    cases h
  · obtain rfl : .up = c := Option.some.inj (hc.symm.trans h)
    rw [ofPart?_up.mp h, ofPart?_up.mp h']
  · obtain rfl : .entry name = c := Option.some.inj (hc.symm.trans h)
    have heq : String.ofList part = String.ofList part' := (ofPart?_entry h).1.symm.trans (ofPart?_entry h').1
    exact String.ofList_injective heq

theorem named_append (ps qs : List (List Char)) : named (ps ++ qs) = named ps ++ named qs := List.filterMap_append

theorem named_cons_of_silent {part : List Char} (h : Component.ofPart? part = none) (ps : List (List Char)) :
    named (part :: ps) = named ps := List.filterMap_cons_none h

theorem named_cons {part : List Char} {c : Component} (h : Component.ofPart? part = some c) (ps : List (List Char)) :
    named (part :: ps) = c :: named ps := List.filterMap_cons_some h

/-- Parts that say something begin with silent ones, if any, and a part that says it. -/
theorem eq_append_of_named {ps : List (List Char)} {c : Component} {cs : List Component} (h : named ps = c :: cs) :
    ∃ silent part rest, ps = silent ++ part :: rest ∧ named silent = [] ∧ Component.ofPart? part = some c ∧
      named rest = cs := by
  induction ps with
  | nil => cases h
  | cons part ps ih =>
    cases hpart : Component.ofPart? part with
    | none =>
      rw [named_cons_of_silent hpart] at h
      obtain ⟨silent, part', rest, rfl, hsilent, hc, hrest⟩ := ih h
      exact ⟨part :: silent, part', rest, rfl, by rw [named_cons_of_silent hpart, hsilent], hc, hrest⟩
    | some c' =>
      rw [named_cons hpart] at h
      cases h
      exact ⟨[], part, ps, rfl, rfl, hpart, rfl⟩

/-! ## The end of a path -/

theorem splitOn_reverse_cons (cs : List Char) : ('/' :: cs).reverse.splitOn '/' = cs.reverse.splitOn '/' ++ [[]] := by
  rw [List.reverse_cons, List.splitOn_append_cons_self, List.splitOn_nil]

/-- What is taken off the end says nothing. -/
theorem named_trimEnd (cs : List Char) :
    named ((trimEnd cs).reverse.splitOn '/') = named (cs.reverse.splitOn '/') := by
  -- the last character of the path stands first, so each case takes one silent part off the end
  induction cs using trimEnd.induct with
  | case1 => rfl
  | case2 rest hne ih =>
    rw [trimEnd, ih, splitOn_reverse_cons, named_append]
    · exact (List.append_nil _).symm
    · exact hne
  | case3 => rfl
  | case4 rest hne ih =>
    have hdot : ('.' :: '/' :: rest).reverse.splitOn '/' = rest.reverse.splitOn '/' ++ [['.']] := by
      rw [List.reverse_cons, List.reverse_cons, List.append_assoc, List.singleton_append,
        List.splitOn_append_cons_self]
      rfl
    rw [trimEnd, ih, hdot, named_append]
    · exact (List.append_nil _).symm
    · exact hne
  | case5 cs h1 h2 h3 h4 => rw [trimEnd] <;> assumption

/-- The beginning of the path stays. -/
theorem getLast?_trimEnd (cs : List Char) : (trimEnd cs).getLast? = cs.getLast? := by
  induction cs using trimEnd.induct with
  | case1 => rfl
  | case2 rest hne ih =>
    rw [trimEnd, ih]
    · cases rest with
      | nil => exact absurd rfl hne
      | cons c rest => exact (List.getLast?_cons_cons).symm
    · exact hne
  | case3 => rfl
  | case4 rest hne ih =>
    rw [trimEnd, ih]
    · cases rest with
      | nil => exact absurd rfl hne
      | cons c rest => rw [List.getLast?_cons_cons, List.getLast?_cons_cons]
    · exact hne
  | case5 cs h1 h2 h3 h4 => rw [trimEnd] <;> assumption

theorem trimEnd_trimEnd (cs : List Char) : trimEnd (trimEnd cs) = trimEnd cs := by
  induction cs using trimEnd.induct with
  | case1 => rfl
  | case2 rest hne ih =>
    rw [trimEnd, ih]
    exact hne
  | case3 => rfl
  | case4 rest hne ih =>
    rw [trimEnd, ih]
    exact hne
  | case5 cs h1 h2 h3 h4 =>
    have h : trimEnd cs = cs := by rw [trimEnd] <;> assumption
    rw [h, h]

theorem length_trimEnd_le (cs : List Char) : (trimEnd cs).length ≤ cs.length := by
  induction cs using trimEnd.induct with
  | case1 => exact Nat.le_refl _
  | case2 rest hne ih =>
    rw [trimEnd]
    · exact ih.trans (Nat.le_succ _)
    · exact hne
  | case3 => decide
  | case4 rest hne ih =>
    rw [trimEnd]
    · exact ih.trans ((Nat.le_succ _).trans (Nat.le_succ _))
    · exact hne
  | case5 cs h1 h2 h3 h4 => rw [trimEnd] <;> first | exact Nat.le_refl _ | assumption

/-- What is left is the beginning of the path. -/
theorem trimEnd_suffix (cs : List Char) : trimEnd cs <:+ cs := by
  induction cs using trimEnd.induct with
  | case1 => exact List.suffix_rfl
  | case2 rest hne ih =>
    rw [trimEnd]
    · exact ih.trans (List.suffix_cons _ _)
    · exact hne
  | case3 => exact List.suffix_cons _ _
  | case4 rest hne ih =>
    rw [trimEnd]
    · exact ih.trans ((List.suffix_cons _ _).trans (List.suffix_cons _ _))
    · exact hne
  | case5 cs h1 h2 h3 h4 => rw [trimEnd] <;> first | exact List.suffix_rfl | assumption

/-- A path with nothing to take off its end. -/
def Trimmed (p : Path) : Prop := trimEnd p.toList.reverse = p.toList.reverse

variable {p q dir name : Path}

theorem trimmed_ofList (cs : List Char) : Trimmed (String.ofList (trimEnd cs).reverse) := by
  unfold Trimmed
  rw [String.toList_ofList, List.reverse_reverse, trimEnd_trimEnd]

/-- A path that is trimmed ends with a slash only if it is the root. -/
theorem Trimmed.ends (hp : Trimmed p) : p.toList.reverse = ['/'] ∨ p.toList.reverse.head? ≠ some '/' := by
  unfold Trimmed at hp
  cases hcs : p.toList.reverse with
  | nil => exact .inr nofun
  | cons c rest =>
    by_cases hc : c = '/'
    · subst hc
      refine .inl ?_
      -- a slash that is taken off leaves less than is there
      by_contra hne
      have hrest : rest ≠ [] := fun h => hne (by rw [h])
      have hlen := length_trimEnd_le rest
      rw [hcs, trimEnd] at hp
      · rw [hp, List.length_cons] at hlen
        omega
      · exact hrest
    · exact .inr fun h => hc (Option.some.inj h)

theorem Trimmed.withoutEndSlashes (hp : Trimmed p) : withoutEndSlashes p = p := by
  unfold Disk.withoutEndSlashes
  rcases hp.ends with hroot | hhead
  · rw [hroot]
    rfl
  · have hkeep : p.toList.reverse.dropWhile (· == '/') = p.toList.reverse := by
      cases hcs : p.toList.reverse with
      | nil => rfl
      | cons c rest =>
        rw [hcs] at hhead
        exact List.dropWhile_cons_of_neg (by simpa using hhead)
    rw [hkeep]
    cases hcs : p.toList.reverse with
    | nil => rfl
    | cons c rest =>
      dsimp only
      rw [← hcs, List.reverse_reverse, String.ofList_toList]

/-! ## The directory above -/

theorem eq_of_parent? (h : parent? p = some q) :
    q = String.ofList (trimEnd ((trimEnd p.toList.reverse).dropWhile (· != '/'))).reverse := by
  unfold Disk.parent? at h
  split at h
  · cases h
  · cases h
  · exact (Option.some.inj h).symm

theorem trimmed_of_parent? (h : parent? p = some q) : Trimmed q := eq_of_parent? h ▸ trimmed_ofList _

/-- The path of the directory above is the beginning of the path. -/
theorem parent?_prefix (h : parent? p = some q) : q.toList <+: p.toList := by
  have hsuffix : trimEnd ((trimEnd p.toList.reverse).dropWhile (· != '/')) <:+ p.toList.reverse :=
    (trimEnd_suffix _).trans ((List.dropWhile_suffix _).trans (trimEnd_suffix _))
  rw [eq_of_parent? h, String.toList_ofList, ← List.reverse_suffix, List.reverse_reverse]
  exact hsuffix

/-- Characters, read from the end, have no slash, or what is dropped up to the last one begins with it. -/
theorem dropWhile_slash_cases (cs : List Char) :
    (cs.dropWhile (· != '/') = [] ∧ '/' ∉ cs) ∨ ∃ above last, cs.dropWhile (· != '/') = '/' :: above ∧ '/' ∉ last ∧
      cs.reverse = above.reverse ++ '/' :: last := by
  have hsplit : cs.takeWhile (· != '/') ++ cs.dropWhile (· != '/') = cs := List.takeWhile_append_dropWhile
  have hnone : '/' ∉ cs.takeWhile (· != '/') := by
    intro hmem
    have hne := List.mem_takeWhile_imp hmem
    simp at hne
  cases habove : cs.dropWhile (· != '/') with
  | nil =>
    rw [habove, List.append_nil] at hsplit
    rw [hsplit] at hnone
    exact .inl ⟨rfl, hnone⟩
  | cons c above =>
    have hc : c = '/' := by
      have hhead := List.head?_dropWhile_not (fun c : Char => c != '/') cs
      simpa [habove] using hhead
    subst hc
    refine .inr ⟨above, (cs.takeWhile (· != '/')).reverse, rfl, fun hmem => hnone (List.mem_reverse.mp hmem), ?_⟩
    calc cs.reverse
        = (cs.takeWhile (· != '/') ++ '/' :: above).reverse := by rw [← habove, hsplit]
      _ = above.reverse ++ '/' :: (cs.takeWhile (· != '/')).reverse := by simp

/-- Where the directory above has a path, the path itself says one part more. -/
theorem Trimmed.parent? (hp : Trimmed p) (h : parent? p = some q) :
    Trimmed q ∧ (q = "" ∨ ∃ pre last, parts p = pre ++ [last] ∧ named pre = named (parts q) ∧
      isAbsolute q = isAbsolute p) := by
  have hq := eq_of_parent? h
  rw [hp] at hq
  refine ⟨hq ▸ trimmed_ofList _, ?_⟩
  rcases dropWhile_slash_cases p.toList.reverse with ⟨habove, -⟩ | ⟨above, last, habove, hnone, hchars⟩
  · rw [habove] at hq
    exact .inl hq
  · -- the last part stands behind the last slash, and the directory above is what stands before it, trimmed
    rw [habove] at hq
    rw [List.reverse_reverse] at hchars
    refine .inr ⟨above.reverse.splitOn '/', last, ?_, ?_, ?_⟩
    · rw [parts, hchars, List.splitOn_append_cons_self, List.splitOn_eq_singleton hnone]
    · rw [parts, hq, String.toList_ofList, named_trimEnd, splitOn_reverse_cons, named_append]
      exact (List.append_nil _).symm
    · have hfirst : q.toList.head? = p.toList.head? := by
        rw [hq, String.toList_ofList, List.head?_reverse, getLast?_trimEnd, ← List.head?_reverse, List.reverse_cons,
          hchars]
        cases above.reverse <;> rfl
      unfold isAbsolute
      rw [hfirst]

/-! ## A name behind a directory -/

theorem isAbsolute_of_not_mem (h : '/' ∉ p.toList) : isAbsolute p = false := by
  unfold isAbsolute
  cases hcs : p.toList with
  | nil => rfl
  | cons c cs =>
    have hc : c ≠ '/' := fun heq => h (by rw [hcs, heq]; exact List.mem_cons_self)
    simpa using hc

/-- A name without slashes comes behind a slash, which is put there if the path of the directory does not end with one;
and it stands alone if there is no such path. -/
theorem join_cases (dir : Path) (hslash : '/' ∉ name.toList) :
    (dir = "" ∧ join dir name = name) ∨ ∃ cs, (join dir name).toList = cs ++ '/' :: name.toList ∧
      (dir.toList = cs ++ ['/'] ∨ dir.toList = cs ∧ cs ≠ []) := by
  unfold join
  rw [isAbsolute_of_not_mem hslash, if_neg Bool.false_ne_true]
  split
  · rename_i hend
    rcases Bool.or_eq_true_iff.mp hend with hempty | hends
    · obtain rfl : dir = "" := by simpa using hempty
      exact .inl ⟨rfl, String.empty_append⟩
    · obtain ⟨cs, hcs⟩ := List.getLast?_eq_some_iff.mp (by simpa using hends)
      refine .inr ⟨cs, ?_, .inl hcs⟩
      rw [String.toList_append, hcs, List.append_assoc]
      rfl
  · rename_i hend
    refine .inr ⟨dir.toList, ?_, .inr ⟨rfl, ?_⟩⟩
    · have hsep : "/".toList = ['/'] := rfl
      rw [String.toList_append, String.toList_append, hsep, List.append_assoc]
      rfl
    · intro hnil
      rw [String.toList_eq_nil_iff.mp hnil] at hend
      exact hend rfl

/-- The name comes behind what the directory says. -/
theorem parts_join (dir : Path) (hslash : '/' ∉ name.toList) :
    ∃ pre, parts (join dir name) = pre ++ [name.toList] ∧ named pre = named (parts dir) ∧
      ∀ part ∈ pre, part ∈ parts dir := by
  have hname : name.toList.splitOn '/' = [name.toList] := List.splitOn_eq_singleton hslash
  rcases join_cases dir hslash with ⟨rfl, hjoin⟩ | ⟨cs, hjoin, hdir⟩
  · refine ⟨[], ?_, rfl, fun part hpart => absurd hpart List.not_mem_nil⟩
    rw [hjoin]
    exact hname
  · refine ⟨cs.splitOn '/', ?_, ?_⟩
    · rw [parts, hjoin, List.splitOn_append_cons_self, hname]
    · rcases hdir with hdir | ⟨hdir, -⟩
      · rw [parts, hdir, List.splitOn_append_cons_self, named_append]
        exact ⟨(List.append_nil _).symm, fun part hpart => List.mem_append_left _ hpart⟩
      · rw [parts, hdir]
        exact ⟨rfl, fun part hpart => hpart⟩

theorem prefix_join (dir : Path) (hslash : '/' ∉ name.toList) : dir.toList <+: (join dir name).toList := by
  rcases join_cases dir hslash with ⟨rfl, -⟩ | ⟨cs, hjoin, hdir | ⟨hdir, -⟩⟩
  · exact List.nil_prefix
  · rw [hjoin, hdir]
    exact ⟨name.toList, by rw [List.append_assoc]; rfl⟩
  · rw [hjoin, hdir]
    exact List.prefix_append _ _

theorem isAbsolute_join (dir : Path) (hslash : '/' ∉ name.toList) : isAbsolute (join dir name) = isAbsolute dir := by
  rcases join_cases dir hslash with ⟨rfl, hjoin⟩ | ⟨cs, hjoin, hdir⟩
  · rw [hjoin]
    exact isAbsolute_of_not_mem hslash
  · have hfirst : (join dir name).toList.head? = dir.toList.head? := by
      rw [hjoin]
      rcases hdir with hdir | ⟨hdir, hne⟩
      · rw [hdir]
        cases cs <;> rfl
      · rw [hdir, List.head?_append_of_ne_nil _ hne]
    rw [isAbsolute, hfirst, isAbsolute]

/-- The name stands at the end of the path. -/
theorem toList_join (dir : Path) (hrelative : isAbsolute name = false) :
    ∃ pre, (join dir name).toList = pre ++ name.toList := by
  unfold join
  rw [hrelative, if_neg Bool.false_ne_true]
  split
  · exact ⟨dir.toList, String.toList_append⟩
  · exact ⟨dir.toList ++ "/".toList, by rw [String.toList_append, String.toList_append]⟩

end ShellHost.Disk
