import ShellHost.Proofs.Disk.Repeating

/-!
# Directories that are added

Whoever makes directories adds those on the way, and nothing else: afterwards the path itself, or that of a directory above
it, leads to each of them (`makeDirectories_adds`), whether all of them could be made or not. There is nothing in them but
others of them (`Grows.directory_of_below`).
-/

namespace ShellHost.Disk

open Relation

variable {d d' : Disk} {p q : Path} {place : Place} {node : Node}

/-- The second path is the first one, or that of a directory above it. -/
def Above : Path → Path → Prop := ReflTransGen fun p q => parent? p = some q

theorem above_of_mem_ancestors {fuel : Nat} (hp : Trimmed p) (hq : q ∈ ancestors fuel p) : Above p q ∧ Trimmed q := by
  induction fuel using Nat.strongRecOn generalizing p with
  | ind fuel ih =>
    obtain ⟨above, habove, hcases⟩ := ancestors_eq_cons fuel p
    rw [habove] at hq
    rcases List.mem_cons.mp hq with rfl | hq
    · exact ⟨.refl, hp⟩
    rcases hcases with rfl | ⟨fuel', p', hlt, hp', rfl⟩
    · cases hq
    · obtain ⟨habove', htrimmed⟩ := ih fuel' hlt (trimmed_of_parent? hp') hq
      exact ⟨.head hp' habove', htrimmed⟩

/-- A path to a directory leads there still when more directories have been made. -/
theorem Grows.resolve_directory (h : Grows d d') (hleads : d.resolve .use p = .ok (place, some .directory)) :
    d'.resolve .use p = .ok (place, some .directory) := by
  obtain ⟨hp, w, hmoves, harrives⟩ := resolve_use_iff.mp hleads
  have hmoves' : Advances d' (d'.walker p) w := by
    have hsame := hmoves.mono h.keepsWays
    rwa [walker, ← h.home] at hsame
  cases harrives with
  | here => exact resolve_use_iff.mpr ⟨hp, _, hmoves', .here⟩

theorem makeDirectory_adds (hp : Trimmed p) (h : d.makeDirectory p = .ok d') (hnone : d.node? place = none)
    (hnew : d'.node? place = some node) : d'.resolve .use p = .ok (place, some .directory) := by
  obtain ⟨place', hresolve, rfl⟩ := makeDirectory_eq_ok_iff.mp h
  rw [hp.withoutEndSlashes] at hresolve
  have hplace : place = place' := by
    by_contra hne
    rw [node?_put (absent_of_resolve hresolve).1, if_neg hne, hnone] at hnew
    cases hnew
  subst hplace
  obtain ⟨n, hleads⟩ := leads_of_put hresolve
  exact resolve_use_iff.mpr ⟨admissible_of_ok hresolve, _, hleads, .here⟩

/-- What is new after several were made is what one of the paths leads to, also if not all of them could be made. -/
theorem makeFirst_adds {ps : List Path} {r : Except DiskError Unit} (hps : ∀ p ∈ ps, Trimmed p)
    (h : d.makeFirst ps = (r, d')) (hnone : d.node? place = none) (hnew : d'.node? place = some node) :
    ∃ q ∈ ps, d'.resolve .use q = .ok (place, some .directory) := by
  induction ps generalizing d' node r with
  | nil =>
    obtain rfl : d = d' := congrArg Prod.snd h
    rw [hnone] at hnew
    cases hnew
  | cons p above ih =>
    obtain ⟨hp, habove⟩ := List.forall_mem_cons.mp hps
    -- what was new when those above were made is still led to when `p` has been made
    have hfound : ∀ {r d₁ node}, d.makeFirst above = (r, d₁) → d₁.node? place = some node → Grows d₁ d' →
        ∃ q ∈ p :: above, d'.resolve .use q = .ok (place, some .directory) := by
      intro r d₁ node hmade hthere hgrows
      obtain ⟨q, hq, hleads⟩ := ih habove hmade hthere
      exact ⟨q, List.mem_cons_of_mem _ hq, hgrows.resolve_directory hleads⟩
    cases r with
    | error e =>
      obtain ⟨-, ⟨rfl, -⟩ | hmade | ⟨hmade, -, -⟩⟩ := makeFirst_cons_error h
      · rw [hnone] at hnew
        cases hnew
      · exact hfound hmade hnew (.refl d')
      · exact hfound hmade hnew (.refl d')
    | ok _ =>
      rcases makeFirst_cons h with ⟨rfl, -⟩ | hmade | ⟨d₁, -, hmade, hlast | ⟨rfl, -, -⟩⟩
      · rw [hnone] at hnew
        cases hnew
      · exact ⟨p, List.mem_cons_self, makeDirectory_adds hp hmade hnone hnew⟩
      · cases hthere : d₁.node? place with
        | none => exact ⟨p, List.mem_cons_self, makeDirectory_adds hp hlast hthere hnew⟩
        | some node₁ => exact hfound hmade hthere (grows_makeDirectory hlast)
      · exact hfound hmade hnew (.refl d')

/-- What is new after a directory and those above it were made is on the way to it. -/
theorem makeDirectories_adds {r : Except DiskError Unit} (hp : Trimmed p) (h : d.makeDirectories p = (r, d'))
    (hnone : d.node? place = none) (hnew : d'.node? place = some node) :
    ∃ q, Above p q ∧ d'.resolve .use q = .ok (place, some .directory) := by
  have htrimmed : ∀ q ∈ ancestors p.length p, Trimmed q := fun q hq => (above_of_mem_ancestors hp hq).2
  obtain ⟨q, hq, hleads⟩ := makeFirst_adds htrimmed h hnone hnew
  exact ⟨q, (above_of_mem_ancestors hp hq).1, hleads⟩

/-- In a directory that is new there are only directories. -/
theorem Grows.directory_of_below (h : Grows d d') (hd : d.WellFormed) (hnone : d.node? place = none) (rest : Place)
    (hbelow : d'.node? (place ++ rest) = some node) : node = .directory := by
  rcases h.fresh _ (hd.below hnone rest) with hmissing | hdirectory
  · rw [hmissing] at hbelow
    cases hbelow
  · rw [hdirectory] at hbelow
    exact (Option.some.inj hbelow).symm

end ShellHost.Disk
