import ShellHost.Proofs.Disk.Paths

/-!
# The components of a path

A name that is put behind a directory is one component more (`components_join`), and the path of the directory above has one
component less (`components_parent?`). So the components of a path can be told from how it was put together.
-/

namespace ShellHost.Disk

variable {p q dir name : Path}

/-- What comes before the components that the parts of a path are: the root, or the directory that it begins with. -/
def beginning (p : Path) : List Component :=
  if isAbsolute p then [.root] else if (parts p).head? = some ['.'] then [.here] else []

theorem components_eq (p : Path) : components p = beginning p ++ named (parts p) := by
  unfold components beginning
  dsimp only
  split_ifs <;> rfl

/-- A path begins in the same way if its first character and its first part are the same. -/
theorem beginning_congr (hfirst : p.toList.head? = q.toList.head?) (hpart : (parts p).head? = (parts q).head?) :
    beginning p = beginning q := by
  unfold beginning isAbsolute
  rw [hfirst, hpart]

theorem head?_append_splitOn (cs : List Char) (ps : List (List Char)) :
    (cs.splitOn '/' ++ ps).head? = (cs.splitOn '/').head? :=
  List.head?_append_of_ne_nil _ (List.splitOn_ne_nil _ _)

/-! ## The end of a path -/

theorem head?_trimEnd (cs : List Char) :
    ((trimEnd cs).reverse.splitOn '/').head? = (cs.reverse.splitOn '/').head? := by
  induction cs using trimEnd.induct with
  | case1 => rfl
  | case2 rest hne ih =>
    rw [trimEnd, ih, splitOn_reverse_cons, head?_append_splitOn]
    exact hne
  | case3 => rfl
  | case4 rest hne ih =>
    rw [trimEnd, ih, List.reverse_cons, List.reverse_cons, List.append_assoc, List.singleton_append,
      List.splitOn_append_cons_self, head?_append_splitOn]
    exact hne
  | case5 cs h1 h2 h3 h4 => rw [trimEnd] <;> assumption

/-- What is taken off the end is no component. -/
theorem components_trimEnd (cs : List Char) :
    components (String.ofList (trimEnd cs).reverse) = components (String.ofList cs.reverse) := by
  have hbeginning : beginning (String.ofList (trimEnd cs).reverse) = beginning (String.ofList cs.reverse) := by
    apply beginning_congr
    · rw [String.toList_ofList, String.toList_ofList, List.head?_reverse, List.head?_reverse, getLast?_trimEnd]
    · rw [parts, parts, String.toList_ofList, String.toList_ofList, head?_trimEnd]
  rw [components_eq, components_eq, hbeginning, parts, parts, String.toList_ofList, String.toList_ofList, named_trimEnd]

/-! ## The last part -/

/-- The last part of a path is told by what stands before and behind the last slash. -/
theorem components_slash (above last : List Char) (hlast : '/' ∉ last) :
    components (String.ofList (above ++ '/' :: last))
      = components (String.ofList (above ++ ['/'])) ++ named [last] := by
  have hbeginning : beginning (String.ofList (above ++ '/' :: last)) = beginning (String.ofList (above ++ ['/'])) := by
    apply beginning_congr
    · rw [String.toList_ofList, String.toList_ofList]
      cases above <;> rfl
    · rw [parts, parts, String.toList_ofList, String.toList_ofList, List.splitOn_append_cons_self,
        List.splitOn_append_cons_self, head?_append_splitOn, head?_append_splitOn]
  have hsilent : named [[]] = [] := rfl
  rw [components_eq, components_eq, hbeginning, parts, parts, String.toList_ofList, String.toList_ofList,
    List.splitOn_append_cons_self, List.splitOn_append_cons_self, List.splitOn_nil, List.splitOn_eq_singleton hlast,
    named_append, named_append, hsilent, List.append_nil, List.append_assoc]

theorem components_part {part : List Char} (hslash : '/' ∉ part) : (components (String.ofList part)).length ≤ 1 := by
  have hparts : parts (String.ofList part) = [part] := by
    rw [parts, String.toList_ofList, List.splitOn_eq_singleton hslash]
  have hrelative : isAbsolute (String.ofList part) = false := isAbsolute_of_not_mem (by rwa [String.toList_ofList])
  rw [components_eq, beginning, hrelative, if_neg Bool.false_ne_true, hparts]
  by_cases hdot : part = ['.']
  · subst hdot
    decide
  · rw [if_neg (by simpa using hdot), List.nil_append]
    exact (List.length_filterMap_le _ _).trans (Nat.le_refl _)

/-! ## The directory above -/

/-- The last part of a path that is trimmed says something, unless the path is the root. -/
theorem Trimmed.says {above last : List Char} (hp : Trimmed (String.ofList (above ++ '/' :: last)))
    (hroot : above ++ '/' :: last ≠ ['/']) : ∃ c, named [last] = [c] := by
  have hreverse : (above ++ '/' :: last).reverse = last.reverse ++ '/' :: above.reverse := by simp
  cases hpart : Component.ofPart? last with
  | some c => exact ⟨c, named_cons hpart []⟩
  | none =>
    unfold Component.ofPart? at hpart
    split_ifs at hpart with hsilent
    unfold Trimmed at hp
    rw [String.toList_ofList, hreverse] at hp
    -- if it did not, something could be taken off the end
    rcases hsilent with rfl | rfl
    · have hrest : above.reverse ≠ [] := fun h => hroot (by rw [List.reverse_eq_nil_iff.mp h]; rfl)
      have hlen := length_trimEnd_le above.reverse
      rw [List.reverse_nil, List.nil_append, trimEnd] at hp
      · rw [hp, List.length_cons] at hlen
        omega
      · exact hrest
    · cases hrest : above.reverse with
      | nil =>
        rw [hrest] at hp
        exact absurd hp (by decide)
      | cons c rest =>
        have hlen := length_trimEnd_le (c :: rest)
        rw [hrest, List.reverse_singleton, List.singleton_append, trimEnd] at hp
        · rw [hp, List.length_cons, List.length_cons] at hlen
          omega
        · exact List.cons_ne_nil _ _

/-- The path of the directory above has all components but the last one. -/
theorem components_parent? (h : parent? p = some q) : components q = (components p).dropLast := by
  have hsame : components p = components (String.ofList (trimEnd p.toList.reverse).reverse) := by
    rw [components_trimEnd, List.reverse_reverse, String.ofList_toList]
  have htrimmed := trimmed_ofList p.toList.reverse
  have hq := eq_of_parent? h
  -- the parent is what stands before the last slash, so the end is cut there
  rcases dropWhile_slash_cases (trimEnd p.toList.reverse) with ⟨habove, hslash⟩ | ⟨above, last, habove, hslash, hchars⟩
  · have hpart : '/' ∉ (trimEnd p.toList.reverse).reverse := by rwa [List.mem_reverse]
    have hend := components_part hpart
    rw [← hsame] at hend
    rw [hq, habove]
    have hnil : (components p).dropLast = [] := List.length_eq_zero_iff.mp (by rw [List.length_dropLast]; omega)
    rw [hnil]
    decide
  · rw [hchars] at hsame htrimmed
    have hroot : above.reverse ++ '/' :: last ≠ ['/'] := by
      intro hroot
      have hcomponents : components p = [.root] := by
        rw [hsame, hroot]
        decide
      unfold parent? at h
      rw [hcomponents] at h
      cases h
    obtain ⟨c, hlastPart⟩ := htrimmed.says hroot
    rw [hq, habove, components_trimEnd, List.reverse_cons, hsame, components_slash _ _ hslash, hlastPart,
      List.dropLast_concat]

theorem exists_parent? {cs : List Component} {name : String} (h : components p = cs ++ [.entry name]) :
    ∃ q, parent? p = some q ∧ components q = cs := by
  have hsome : ∃ q, parent? p = some q := by
    unfold parent?
    rw [h, List.getLast?_concat]
    exact ⟨_, rfl⟩
  obtain ⟨q, hq⟩ := hsome
  refine ⟨q, hq, ?_⟩
  rw [components_parent? hq, h, List.dropLast_concat]

/-! ## A name behind a directory -/

theorem components_name (hslash : '/' ∉ name.toList) (hname : Component.ofPart? name.toList = some (.entry name)) :
    components name = [.entry name] := by
  have hparts : parts name = [name.toList] := List.splitOn_eq_singleton hslash
  have hdot : (parts name).head? ≠ some ['.'] := by
    intro hdot
    rw [hparts] at hdot
    rw [Option.some.inj hdot] at hname
    cases hname
  rw [components_eq, beginning, isAbsolute_of_not_mem hslash, if_neg Bool.false_ne_true, if_neg hdot, hparts,
    named_cons hname]
  rfl

theorem components_endSlash {cs : List Char} (hne : cs ≠ []) :
    components (String.ofList (cs ++ ['/'])) = components (String.ofList cs) := by
  have hchars : cs ++ ['/'] = ('/' :: cs.reverse).reverse := by simp
  rw [hchars, ← components_trimEnd, trimEnd]
  · rw [components_trimEnd, List.reverse_reverse]
  · exact fun h => hne (List.reverse_eq_nil_iff.mp h)

theorem components_join (dir : Path) (hslash : '/' ∉ name.toList)
    (hname : Component.ofPart? name.toList = some (.entry name)) :
    components (join dir name) = components dir ++ [.entry name] := by
  have hlast : named [name.toList] = [.entry name] := named_cons hname []
  rcases join_cases dir hslash with ⟨rfl, hjoin⟩ | ⟨cs, hjoin, hdir⟩
  · have hnone : components "" = [] := by decide
    rw [hjoin, hnone, List.nil_append, components_name hslash hname]
  · have hpath : join dir name = String.ofList (cs ++ '/' :: name.toList) := by
      rw [← hjoin, String.ofList_toList]
    rw [hpath, components_slash _ _ hslash, hlast]
    rcases hdir with hdir | ⟨hdir, hne⟩
    · rw [← hdir, String.ofList_toList]
    · rw [components_endSlash hne, ← hdir, String.ofList_toList]

end ShellHost.Disk
