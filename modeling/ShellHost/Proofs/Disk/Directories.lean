import Mathlib.Data.List.Induction
import ShellHost.Proofs.Disk.Walking

/-!
# Making directories

What makes directories leaves everything that is there (`Grows`). A path without dots that go up leads afterwards to a
directory that was there before, and then nothing was made, or to a new one, in which there is nothing
(`makeFirst_ancestors`). A path that goes up may do otherwise: once its first part is there, it leads on to what lies
beside it.
-/

namespace ShellHost.Disk

open Relation

variable {d d' d₁ d₂ : Disk} {p q : Path} {place : Place} {node : Node}

/-! ## Entries -/

/-- Every entry but the root stands in a directory. -/
def WellFormed (d : Disk) : Prop := ∀ e ∈ d.entries, d.node? e.1.dropLast = some .directory

instance (d : Disk) : Decidable d.WellFormed := inferInstanceAs (Decidable (∀ e ∈ d.entries, _))

theorem node?_put (hplace : place ≠ []) (d : Disk) (node : Node) (q : Place) :
    (d.put place node).node? q = if q = place then some node else d.node? q := by
  unfold node? put
  by_cases hroot : q = []
  · have hother : q ≠ place := fun h => hplace (h.symm.trans hroot)
    rw [if_pos hroot, if_neg hother, if_pos hroot]
  rw [if_neg hroot, if_neg hroot]
  by_cases hq : q = place
  · rw [if_pos hq, hq, List.lookup_cons_self]
  · have hkey : (q == place) = false := by simpa using hq
    rw [if_neg hq, List.lookup_cons, hkey]
    dsimp only
    induction d.entries with
    | nil => rfl
    | cons e es ih =>
      by_cases he : e.1 = place
      · have hother : (q == e.1) = false := by rw [he, hkey]
        rw [List.filter_cons_of_neg (by simpa using he), ih, List.lookup_cons, hother]
      · rw [List.filter_cons_of_pos (by simpa using he), List.lookup_cons, List.lookup_cons, ih]

/-- What is in a directory stands in one that is there. -/
theorem WellFormed.directory (hd : d.WellFormed) {name : String} (h : d.node? (place ++ [name]) = some node) :
    d.node? place = some .directory := by
  have hne : place ++ [name] ≠ [] := by simp
  unfold node? at h
  rw [if_neg hne] at h
  obtain ⟨before, behind, hentries, -⟩ := List.lookup_eq_some_iff.mp h
  have hparent := hd (place ++ [name], node) (by rw [hentries]; simp)
  rwa [List.dropLast_concat] at hparent

/-- Where nothing stands, nothing stands below. -/
theorem WellFormed.below (hd : d.WellFormed) (h : d.node? place = none) (rest : Place) :
    d.node? (place ++ rest) = none := by
  induction rest using List.reverseRecOn with
  | nil => rwa [List.append_nil]
  | append_singleton rest name ih =>
    cases hnode : d.node? (place ++ (rest ++ [name])) with
    | none => rfl
    | some node =>
      rw [← List.append_assoc] at hnode
      rw [hd.directory hnode] at ih
      cases ih

/-! ## More directories -/

/-- Nothing is changed but that directories are made where nothing was. -/
structure Grows (d d' : Disk) : Prop where
  /-- Relative paths begin at the same place. -/
  home : d'.home = d.home
  /-- What was there stays. -/
  kept : ∀ place node, d.node? place = some node → d'.node? place = some node
  /-- What is new is a directory. -/
  fresh : ∀ place, d.node? place = none → d'.node? place = none ∨ d'.node? place = some .directory

theorem Grows.refl (d : Disk) : Grows d d := ⟨rfl, fun _ _ h => h, fun _ h => .inl h⟩

theorem Grows.trans (h : Grows d d₁) (h' : Grows d₁ d₂) : Grows d d₂ where
  home := h'.home.trans h.home
  kept place node hnode := h'.kept _ _ (h.kept _ _ hnode)
  fresh place hnone := by
    rcases h.fresh place hnone with hnone' | hdir
    · exact h'.fresh place hnone'
    · exact .inr (h'.kept _ _ hdir)

theorem Grows.keepsWays (h : Grows d d') : KeepsWays d d' := ⟨h.home, fun _ => h.kept _ _, fun _ _ => h.kept _ _⟩

theorem Grows.absent (h : Grows d d') (hnone : d'.node? place = none) : d.node? place = none := by
  cases hnode : d.node? place with
  | none => rfl
  | some node =>
    rw [h.kept _ _ hnode] at hnone
    cases hnone

/-- No file is new. -/
theorem Grows.file {c : List UInt8} (h : Grows d d') (hfile : d'.node? place = some (.file c)) :
    d.node? place = some (.file c) := by
  cases hnode : d.node? place with
  | none =>
    rcases h.fresh place hnode with hnone | hdir
    · rw [hfile] at hnone
      cases hnone
    · rw [hfile] at hdir
      cases hdir
  | some node => rw [← hfile, h.kept _ _ hnode]

theorem grows_put (hplace : place ≠ []) (hnone : d.node? place = none) : Grows d (d.put place .directory) where
  home := rfl
  kept q node hnode := by
    have hne : q ≠ place := fun h => by
      rw [h, hnone] at hnode
      cases hnode
    rw [node?_put hplace, if_neg hne, hnode]
  fresh q hq := by
    rw [node?_put hplace]
    by_cases hne : q = place
    · exact .inr (if_pos hne)
    · exact .inl (by rw [if_neg hne, hq])

/-- The path leads to a directory that is new, and empty. -/
structure Fresh (d d' : Disk) (p : Path) (place : Place) : Prop where
  /-- The path can be looked at. -/
  admissible : Admissible p
  /-- It leads to the place. -/
  leads : ∃ n, Advances d' (d'.walker p) ⟨n, place, []⟩
  /-- Nothing was there before. -/
  absent : d.node? place = none
  /-- Nothing is in it. -/
  empty : ∀ rest, rest ≠ [] → d'.node? (place ++ rest) = none

/-! ## Making one -/

/-- A place that a path leads to and where nothing is. -/
theorem absent_of_resolve {purpose : Purpose} (h : d.resolve purpose p = .ok (place, none)) :
    place ≠ [] ∧ d.node? place = none := by
  obtain ⟨-, w, -, harrives⟩ := resolve_use_iff.mp (resolve_use_of_ok h (fun _ => nofun))
  cases harrives with
  | missing hpart hsize hnode => exact ⟨by simp, hnode⟩

/-- A directory is made where the path leads if nothing is there. -/
theorem makeDirectory_eq_ok_iff : d.makeDirectory p = .ok d' ↔
    ∃ place, d.resolve .changeEntry (withoutEndSlashes p) = .ok (place, none) ∧ d' = d.put place .directory := by
  unfold makeDirectory
  constructor
  · intro h
    split at h
    · cases h
    · rename_i place hresolve
      exact ⟨place, hresolve, (Except.ok.inj h).symm⟩
    · cases h
  · rintro ⟨place, hresolve, rfl⟩
    rw [hresolve]

theorem grows_makeDirectory (h : d.makeDirectory p = .ok d') : Grows d d' := by
  obtain ⟨place, hresolve, rfl⟩ := makeDirectory_eq_ok_iff.mp h
  obtain ⟨hplace, hnone⟩ := absent_of_resolve hresolve
  exact grows_put hplace hnone

/-- The path leads to the new directory. -/
theorem leads_of_put (hresolve : d.resolve .changeEntry p = .ok (place, none)) :
    ∃ n, Advances (d.put place .directory) ((d.put place .directory).walker p) ⟨n, place, []⟩ := by
  obtain ⟨-, w, hmoves, harrives⟩ := resolve_use_iff.mp (resolve_use_of_ok hresolve (fun _ => nofun))
  obtain ⟨hplace, hnone⟩ := absent_of_resolve hresolve
  cases harrives with
  | missing hpart hsize hnode =>
    have hnew : (d.put _ .directory).node? _ = some Node.directory :=
      (node?_put hplace d .directory _).trans (if_pos rfl)
    exact ⟨_, (hmoves.mono (grows_put hplace hnone).keepsWays).tail (.enter hpart hsize hnew)⟩

/-- The new directory is where the path leads now. -/
theorem fresh_of_put (hresolve : d.resolve .changeEntry p = .ok (place, none))
    (hbelow : ∀ rest, d.node? (place ++ rest) = none) : Fresh d (d.put place .directory) p place := by
  obtain ⟨hplace, hnone⟩ := absent_of_resolve hresolve
  refine ⟨admissible_of_ok hresolve, leads_of_put hresolve, hnone, fun rest hrest => ?_⟩
  have hne : place ++ rest ≠ place := fun h => hrest (List.append_right_eq_self.mp h)
  rw [node?_put hplace, if_neg hne, hbelow]

/-- What leads nowhere leads to no directory. -/
theorem isDirectory_of_error {e : DiskError} (h : d.resolve .changeEntry p = .error e) : d.isDirectory p = false := by
  unfold isDirectory find?
  rw [resolve_use_of_error h]

theorem resolve_of_notFound (hp : Trimmed p) (h : d.makeDirectory p = .error .notFound) :
    d.resolve .changeEntry p = .error .notFound := by
  unfold makeDirectory at h
  rw [hp.withoutEndSlashes] at h
  split at h
  · rename_i e hresolve
    rw [hresolve]
    exact congrArg Except.error (Except.error.inj h)
  · cases h
  · cases h

/-! ## Making several -/

/-- What succeeds has found the directory or made it, be it after those above. -/
theorem makeFirst_cons {above : List Path} (h : d.makeFirst (p :: above) = (.ok (), d')) :
    (d' = d ∧ (p = "" ∨ d.isDirectory p)) ∨ d.makeDirectory p = .ok d' ∨
      ∃ d₁, d.makeDirectory p = .error .notFound ∧ d.makeFirst above = (.ok (), d₁) ∧
        (d₁.makeDirectory p = .ok d' ∨ (d' = d₁ ∧ d₁.isDirectory p ∧ ∃ e, d₁.makeDirectory p = .error e)) := by
  unfold makeFirst at h
  split at h
  · rename_i hempty
    exact .inl ⟨(congrArg Prod.snd h).symm, .inl hempty⟩
  split at h
  · rename_i d₁ hmade
    exact .inr (.inl (hmade.trans (congrArg (Except.ok ∘ Prod.snd) h)))
  · rename_i hmissing
    split at h
    · cases h
    · rename_i d₁ habove
      refine .inr (.inr ⟨d₁, hmissing, habove, ?_⟩)
      split at h
      · rename_i d₂ hmade
        exact .inl (hmade.trans (congrArg (Except.ok ∘ Prod.snd) h))
      · rename_i e hrefused
        split at h
        · rename_i hdir
          exact .inr ⟨(congrArg Prod.snd h).symm, hdir, e, hrefused⟩
        · cases h
  · split at h
    · rename_i hdir
      exact .inl ⟨(congrArg Prod.snd h).symm, .inr hdir⟩
    · cases h

/-- What makes directories leaves all that is there, even if it fails on the way. -/
theorem makeFirst_grows (d : Disk) (ps : List Path) : Grows d (d.makeFirst ps).2 := by
  induction ps generalizing d with
  | nil => exact .refl d
  | cons p above ih =>
    unfold makeFirst
    split
    · exact .refl d
    split
    · rename_i d' hmade
      exact grows_makeDirectory hmade
    · have habove := ih d
      split
      · rename_i e d₁ hfailed
        rwa [hfailed] at habove
      · rename_i d₁ hdone
        rw [hdone] at habove
        split
        · rename_i d₂ hmade
          exact habove.trans (grows_makeDirectory hmade)
        · split <;> exact habove
    · split <;> exact .refl d

theorem admissible_of_isDirectory (h : d.isDirectory p = true) : Admissible p := by
  rcases admissible_or_refused p with hp | ⟨e, hrefused⟩
  · exact hp
  · rw [isDirectory_of_error (hrefused d _)] at h
    cases h

section Below

variable {pre : List (List Char)} {last : List Char} {name : String}

/-- The path says one part more than that of a new directory, so it leads along the same way first. -/
theorem Fresh.leads_along (hfresh : Fresh d d₁ q place) {ps : List (List Char)} (hnamed : named ps = named (parts q))
    (hstart : isAbsolute q = isAbsolute p) :
    ∃ n, Advances d₁ ⟨linkLimit, start d₁.home p, ps⟩ ⟨n, place, []⟩ := by
  obtain ⟨n, hleads⟩ := hfresh.leads
  have hbegin : start d₁.home q = start d₁.home p := by rw [start, hstart, start]
  have h := hleads.of_named rfl hnamed
  simp only [walker, hbegin] at h
  exact ⟨n, h⟩

/-- A name behind a new directory is that of nothing. -/
theorem Fresh.resolve_below (hfresh : Fresh d d₁ q place) (purpose : Purpose) (hp : Admissible p)
    (hparts : parts p = pre ++ [last]) (hnamed : named pre = named (parts q)) (hstart : isAbsolute q = isAbsolute p)
    (hpart : Component.ofPart? last = some (.entry name)) :
    d₁.resolve purpose p =
      if nameLimit < Utf8.size last then .error .nameTooLong else .ok (place ++ [name], none) := by
  obtain ⟨n, habove⟩ := hfresh.leads_along hnamed hstart
  have hwalk : d₁.resolve purpose p = d₁.walk purpose n place [last] := by
    rw [hp.resolve, walker, hparts]
    exact habove.walkOn_andThen ⟨last, List.mem_singleton_self _, (Component.ofPart?_entry hpart).2⟩
  have hslash : ¬ (purpose = .writeFile ∧ onlySlashes [] = true) := fun h => nomatch h.2
  rw [hwalk, walk_entry hpart, if_neg hslash, hfresh.empty [name] (List.cons_ne_nil _ _)]
  rfl

/-- If the directory above is a new one, a path that does not go up leads into it. -/
theorem Fresh.descend (hfresh : Fresh d d₁ q place) (hgrows : Grows d d₁) (hp : Trimmed p)
    (hup : .up ∉ named (parts p)) (hparts : parts p = pre ++ [last]) (hnamed : named pre = named (parts q))
    (hstart : isAbsolute q = isAbsolute p)
    (hlast : d₁.makeDirectory p = .ok d' ∨ (d' = d₁ ∧ d₁.isDirectory p ∧ ∃ e, d₁.makeDirectory p = .error e)) :
    ∃ place, Fresh d d' p place := by
  have hmade : ∀ d', d₁.makeDirectory p = .ok d' →
      ∃ place, d₁.resolve .changeEntry p = .ok (place, none) ∧ d' = d₁.put place .directory := by
    intro d' h
    rwa [makeDirectory_eq_ok_iff, hp.withoutEndSlashes] at h
  have hadmissible : Admissible p := by
    rcases hlast with h | ⟨-, hdir, -⟩
    · obtain ⟨_, hresolve, -⟩ := hmade _ h
      exact admissible_of_ok hresolve
    · exact admissible_of_isDirectory hdir
  rcases Component.ofPart?_cases last with hpart | hpart | ⟨name, hpart⟩
  · -- the last part says nothing, so the path leads to the directory above
    have hsame : named (parts p) = named (parts q) := by
      rw [hparts, named_append, named_cons_of_silent hpart, ← hnamed]
      exact List.append_nil _
    obtain ⟨n, hthere⟩ := hfresh.leads_along hsame hstart
    rcases hlast with h | ⟨rfl, -, -⟩
    · obtain ⟨_, hresolve, -⟩ := hmade _ h
      have huse := resolve_use_of_ok hresolve (fun _ => nofun)
      rw [resolve_use_iff.mpr ⟨hadmissible, _, hthere, .here⟩] at huse
      cases huse
    · exact ⟨place, hadmissible, ⟨n, hthere⟩, hfresh.absent, hfresh.empty⟩
  · rw [hparts, named_append, named_cons hpart] at hup
    exact absurd (List.mem_append_right _ List.mem_cons_self) hup
  · have hresolve := hfresh.resolve_below .changeEntry hadmissible hparts hnamed hstart hpart
    by_cases hsize : nameLimit < Utf8.size last
    · rw [if_pos hsize] at hresolve
      rcases hlast with h | ⟨-, hdir, -⟩
      · obtain ⟨_, hresolve', -⟩ := hmade _ h
        rw [hresolve] at hresolve'
        cases hresolve'
      · rw [isDirectory_of_error hresolve] at hdir
        cases hdir
    · rw [if_neg hsize] at hresolve
      rcases hlast with h | ⟨-, -, e, hrefused⟩
      · obtain ⟨place', hresolve', rfl⟩ := hmade _ h
        rw [hresolve] at hresolve'
        cases hresolve'
        have hnew : Fresh d₁ (d₁.put (place ++ [name]) .directory) p (place ++ [name]) :=
          fresh_of_put hresolve fun rest => by
            rw [List.append_assoc]
            exact hfresh.empty _ (List.cons_ne_nil _ _)
        exact ⟨_, hadmissible, hnew.leads, hgrows.absent (absent_of_resolve hresolve).2, hnew.empty⟩
      · have hok := makeDirectory_eq_ok_iff.mpr ⟨_, hp.withoutEndSlashes.symm ▸ hresolve, rfl⟩
        rw [hrefused] at hok
        cases hok

end Below

/-- A path comes before those above it. -/
theorem ancestors_eq_cons (fuel : Nat) (p : Path) : ∃ above, ancestors fuel p = p :: above ∧ (above = [] ∨
    ∃ fuel' q, fuel' < fuel ∧ parent? p = some q ∧ above = ancestors fuel' q) := by
  cases fuel with
  | zero => exact ⟨[], rfl, .inl rfl⟩
  | succ fuel =>
    rw [ancestors]
    cases hq : parent? p with
    | none => exact ⟨[], rfl, .inl rfl⟩
    | some q => exact ⟨_, rfl, .inr ⟨fuel, q, Nat.lt_succ_self _, rfl, rfl⟩⟩

/-- Where directories were made along a path that does not go up, it leads to one that was there, so that there was
nothing to make, or to a new one. -/
theorem makeFirst_ancestors (hd : d.WellFormed) {fuel : Nat} (hp : Trimmed p) (hup : .up ∉ named (parts p))
    (h : d.makeFirst (ancestors fuel p) = (.ok (), d')) :
    (d' = d ∧ (p = "" ∨ d.isDirectory p)) ∨ ∃ place, Fresh d d' p place := by
  induction fuel using Nat.strongRecOn generalizing p d' with
  | ind fuel ih =>
    -- if nothing was made above, the directory cannot be made either
    have hnothing : d.makeDirectory p = .error .notFound →
        ¬ (d.makeDirectory p = .ok d' ∨ (d' = d ∧ d.isDirectory p ∧ ∃ e, d.makeDirectory p = .error e)) := by
      rintro hmissing (hmade | ⟨-, hdir, -⟩)
      · rw [hmissing] at hmade
        cases hmade
      · rw [isDirectory_of_error (resolve_of_notFound hp hmissing)] at hdir
        cases hdir
    obtain ⟨above, habove, hcases⟩ := ancestors_eq_cons fuel p
    rw [habove] at h
    rcases makeFirst_cons h with hthere | hmade | ⟨d₁, hmissing, hmade, hlast⟩
    · exact .inl hthere
    · obtain ⟨place, hresolve, rfl⟩ := makeDirectory_eq_ok_iff.mp hmade
      rw [hp.withoutEndSlashes] at hresolve
      exact .inr ⟨place, fresh_of_put hresolve (hd.below (absent_of_resolve hresolve).2)⟩
    · rcases hcases with rfl | ⟨fuel', q, hlt, hq, rfl⟩
      · obtain rfl : d = d₁ := congrArg Prod.snd hmade
        exact absurd hlast (hnothing hmissing)
      · obtain ⟨hqtrimmed, hempty | ⟨pre, last, hparts, hnamed, hstart⟩⟩ := hp.parent? hq
        · subst hempty
          rcases ih fuel' hlt hqtrimmed (by decide) hmade with ⟨rfl, -⟩ | ⟨place, hfresh⟩
          · exact absurd hlast (hnothing hmissing)
          · exact absurd rfl hfresh.admissible.nonempty
        · have hqup : .up ∉ named (parts q) := by
            intro hmem
            rw [hparts, named_append, hnamed] at hup
            exact hup (List.mem_append_left _ hmem)
          have hgrows : Grows d d₁ := by
            have h := makeFirst_grows d (ancestors fuel' q)
            rwa [hmade] at h
          rcases ih fuel' hlt hqtrimmed hqup hmade with ⟨rfl, -⟩ | ⟨place, hfresh⟩
          · exact absurd hlast (hnothing hmissing)
          · exact .inr (hfresh.descend hgrows hp hup hparts hnamed hstart hlast)

/-- Where a directory is, nothing has to be made. -/
theorem makeFirst_of_isDirectory {above : List Path} (hp : Trimmed p) (hdir : p = "" ∨ d.isDirectory p = true) :
    d.makeFirst (p :: above) = (.ok (), d) := by
  by_cases hempty : p = ""
  · rw [makeFirst, if_pos hempty]
  have hthere := hdir.resolve_left hempty
  have hrefused : d.makeDirectory p = .error .alreadyExists := by
    unfold makeDirectory
    rw [hp.withoutEndSlashes]
    cases hresolve : d.resolve .changeEntry p with
    | error e =>
      rw [isDirectory_of_error hresolve] at hthere
      cases hthere
    | ok t =>
      obtain ⟨place, _ | node⟩ := t
      · unfold isDirectory find? at hthere
        rw [resolve_use_of_ok hresolve (fun _ => nofun)] at hthere
        cases hthere
      · rfl
  rw [makeFirst, if_neg hempty, hrefused]
  exact if_pos hthere

theorem makeDirectories_of_isDirectory (hp : Trimmed p) (hdir : p = "" ∨ d.isDirectory p = true) :
    d.makeDirectories p = (.ok (), d) := by
  obtain ⟨above, habove, -⟩ := ancestors_eq_cons p.length p
  unfold makeDirectories
  rw [habove]
  exact makeFirst_of_isDirectory hp hdir

end ShellHost.Disk
