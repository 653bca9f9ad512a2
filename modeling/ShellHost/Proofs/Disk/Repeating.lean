import ShellHost.Proofs.Disk.Directories
import ShellHost.Proofs.Text.Utf8

/-!
# Making directories again

What makes directories does all that it can at once. Where it succeeds, the directory is there (`makeFirst_done`) and
nothing is left to make. Where it fails, be it halfway, the directory that it failed at is still missing, so no path
through it leads anywhere, and the second attempt fails at the same place (`makeFirst_failed`).
-/

namespace ShellHost.Disk

open Relation

variable {d d' : Disk} {p q : Path} {n : Nat} {dir : Place} {ps qs : List (List Char)} {w : Walker} {t : Target}
  {e : DiskError} {above : List Path}

/-! ## The directory above -/

theorem Arrives.length_rest_le (h : Arrives d w t) : w.rest.length ≤ 1 := by
  cases h with
  | here => exact Nat.zero_le _
  | missing | file => exact Nat.le_refl _

/-- Whoever walks along some parts and further ones reaches a directory behind the first. -/
theorem advances_of_walk_append (hqs : qs ≠ []) (h : d.walk .use n dir (ps ++ qs) = .ok t) :
    ∃ n' place, Advances d ⟨n, dir, ps⟩ ⟨n', place, []⟩ := by
  -- a link is followed with one link less, and otherwise there is one part less
  induction n using Nat.strongRecOn generalizing dir ps with
  | ind n ihn =>
    induction ps generalizing dir with
    | nil => exact ⟨n, dir, .refl⟩
    | cons part rest ih =>
      rcases advance_or_arrives h with ⟨w, hmove, hrest⟩ | harrives
      · cases hmove with
        | silent hpart =>
          obtain ⟨n', place, hmoves⟩ := ih hrest
          exact ⟨n', place, .head (.silent hpart) hmoves⟩
        | up hpart =>
          obtain ⟨n', place, hmoves⟩ := ih hrest
          exact ⟨n', place, .head (.up hpart) hmoves⟩
        | enter hpart hsize hnode =>
          obtain ⟨n', place, hmoves⟩ := ih hrest
          exact ⟨n', place, .head (.enter hpart hsize hnode) hmoves⟩
        | @follow m _ _ _ _ target hpart hsize hnode =>
          have hlink : d.walk .use m (start dir target) (parts target ++ rest ++ qs) = .ok t := by
            rw [List.append_assoc]
            exact hrest
          obtain ⟨n', place, hmoves⟩ := ihn m (Nat.lt_succ_self m) hlink
          exact ⟨n', place, .head (.follow hpart hsize hnode) hmoves⟩
      · -- the last part is not reached before `qs`
        have hone : (part :: (rest ++ qs)).length ≤ 1 := harrives.length_rest_le
        have hmore := List.length_pos_iff.mpr hqs
        rw [List.length_cons, List.length_append] at hone
        omega

/-- The beginning of a path can be looked at, too. -/
theorem Admissible.of_begins (hp : Admissible p) (h : q.toList <+: p.toList) (hne : q ≠ "") : Admissible q := by
  obtain ⟨cs, hcs⟩ := h
  refine ⟨fun hzero => hp.characters ?_, fun hempty => hne ?_, fun hsize => hp.size ?_⟩
  · rw [List.contains_iff_mem] at hzero ⊢
    rw [← hcs]
    exact List.mem_append_left _ hzero
  · exact String.toList_eq_nil_iff.mp (List.isEmpty_iff.mp hempty)
  · rw [← hcs, Utf8.size_append]
    omega

theorem isDirectory_iff : d.isDirectory p = true ↔ ∃ place, d.resolve .use p = .ok (place, some .directory) := by
  unfold isDirectory find?
  rcases d.resolve .use p with e | ⟨place, _ | node⟩
  · simp
  · simp
  · cases node <;> simp

/-- Where a path leads to anything, even to a place where nothing stands, another path that begins in the same way and says
the parts before the last ones leads to a directory, and whoever walks comes through it. -/
theorem resolve_beginning {pre last : List (List Char)} (hparts : parts p = pre ++ last) (hlast : last ≠ [])
    (hnamed : named pre = named (parts q)) (hroot : isAbsolute q = isAbsolute p) (hbegins : q.toList <+: p.toList)
    (hq : q ≠ "") (h : d.resolve .use p = .ok t) :
    ∃ n place, d.resolve .use q = .ok (place, some .directory) ∧
      Advances d ⟨linkLimit, start d.home p, pre⟩ ⟨n, place, []⟩ := by
  have hp := admissible_of_ok h
  rw [hp.resolve, walkOn, walker, hparts] at h
  obtain ⟨n, place, hmoves⟩ := advances_of_walk_append hlast h
  have hleads : Advances d (d.walker q) ⟨n, place, []⟩ := by
    have hstart : start d.home q = start d.home p := by rw [start, hroot, start]
    rw [walker, hstart]
    exact hmoves.of_named rfl hnamed.symm
  exact ⟨n, place, resolve_use_iff.mpr ⟨hp.of_begins hbegins hq, _, hleads, .here⟩, hmoves⟩

/-- Where a path leads to anything, the directory above is there. -/
theorem isDirectory_parent? (hp : Trimmed p) (h : parent? p = some q) (hresolve : d.resolve .use p = .ok t) :
    q = "" ∨ d.isDirectory q = true := by
  by_cases hempty : q = ""
  · exact .inl hempty
  obtain ⟨-, hq | ⟨pre, last, hparts, hnamed, hroot⟩⟩ := hp.parent? h
  · exact .inl hq
  have hbegins : q.toList <+: p.toList := parent?_prefix h
  obtain ⟨-, place, hdir, -⟩ :=
    resolve_beginning hparts (List.cons_ne_nil _ _) hnamed hroot hbegins hempty hresolve
  exact .inr (isDirectory_iff.mpr ⟨place, hdir⟩)

/-! ## Success -/

theorem isDirectory_of_makeDirectory (hp : Trimmed p) (h : d.makeDirectory p = .ok d') : d'.isDirectory p = true := by
  obtain ⟨place, hresolve, rfl⟩ := makeDirectory_eq_ok_iff.mp h
  rw [hp.withoutEndSlashes] at hresolve
  obtain ⟨n, hleads⟩ := leads_of_put hresolve
  exact isDirectory_iff.mpr ⟨place, resolve_use_iff.mpr ⟨admissible_of_ok hresolve, _, hleads, .here⟩⟩

/-- Directories that were made are there. -/
theorem makeFirst_done (hp : Trimmed p) (h : d.makeFirst (p :: above) = (.ok (), d')) :
    p = "" ∨ d'.isDirectory p = true := by
  rcases makeFirst_cons h with ⟨rfl, hthere⟩ | hmade | ⟨d₁, -, -, hmade | ⟨rfl, hdir, -⟩⟩
  · exact hthere
  · exact .inr (isDirectory_of_makeDirectory hp hmade)
  · exact .inr (isDirectory_of_makeDirectory hp hmade)
  · exact .inr hdir

/-! ## Failure -/

/-- What fails has found no directory, and could not make it, be it for want of those above. -/
theorem makeFirst_cons_error (h : d.makeFirst (p :: above) = (.error e, d')) :
    p ≠ "" ∧
      ((d' = d ∧ d.isDirectory p = false) ∨
        d.makeFirst above = (.error e, d') ∨
        (d.makeFirst above = (.ok (), d') ∧ d'.makeDirectory p = .error e ∧ d'.isDirectory p = false)) := by
  unfold makeFirst at h
  split at h
  · cases h
  rename_i hne
  refine ⟨hne, ?_⟩
  split at h
  · cases h
  · split at h
    · rename_i e' d₁ hfailed
      cases h
      exact .inr (.inl hfailed)
    · rename_i d₁ hmade
      split at h
      · cases h
      · rename_i e' hrefused
        split at h
        · cases h
        · rename_i hdir
          cases h
          exact .inr (.inr ⟨hmade, hrefused, Bool.eq_false_iff.mpr hdir⟩)
  · split at h
    · cases h
    · rename_i hdir
      cases h
      exact .inl ⟨rfl, Bool.eq_false_iff.mpr hdir⟩

/-- Where a directory is missing and cannot be made, and nothing can be made above it, nothing happens. -/
theorem makeFirst_stuck (hne : p ≠ "") (hrefused : d.makeDirectory p = .error e) (hdir : d.isDirectory p = false)
    (habove : (d.makeFirst above).2 = d) : ∃ e', d.makeFirst (p :: above) = (.error e', d) := by
  have hmissing : ¬ d.isDirectory p = true := by
    rw [hdir]
    exact Bool.false_ne_true
  unfold makeFirst
  rw [if_neg hne, hrefused]
  by_cases he : e = .notFound
  · subst he
    dsimp only
    rcases hmade : d.makeFirst above with ⟨r, d₁⟩
    rw [hmade] at habove
    obtain rfl : d₁ = d := habove
    cases r with
    | error e' => exact ⟨e', rfl⟩
    | ok _ =>
      dsimp only
      rw [hrefused]
      exact ⟨_, if_neg hmissing⟩
  · refine ⟨e, ?_⟩
    cases e with
    | notFound => exact absurd rfl he
    | _ => exact if_neg hmissing

/-- The first of the directories is missing still, and whoever tries again fails and makes none. -/
theorem makeFirst_failed {fuel : Nat} (hp : Trimmed p) (h : d.makeFirst (ancestors fuel p) = (.error e, d')) :
    d'.isDirectory p = false ∧ ∃ e', d'.makeFirst (ancestors fuel p) = (.error e', d') := by
  induction fuel using Nat.strongRecOn generalizing p e with
  | ind fuel ih =>
    obtain ⟨above, habove, hcases⟩ := ancestors_eq_cons fuel p
    rw [habove] at h ⊢
    obtain ⟨hne, ⟨rfl, hdir⟩ | hfailed | ⟨hmade, hrefused, hdir⟩⟩ := makeFirst_cons_error h
    · exact ⟨hdir, e, h⟩
    · rcases hcases with rfl | ⟨fuel', q, hlt, hq, rfl⟩
      · cases hfailed
      · have hqtrimmed := trimmed_of_parent? hq
        obtain ⟨hqdir, e', hagain⟩ := ih fuel' hlt hqtrimmed hfailed
        have hqne : q ≠ "" := by
          obtain ⟨above', habove', -⟩ := ancestors_eq_cons fuel' q
          rw [habove'] at hfailed
          exact (makeFirst_cons_error hfailed).1
        -- the directory above is missing, so the path leads nowhere
        have hnowhere : ∀ t, d'.resolve .use p ≠ .ok t := by
          intro t hresolve
          rcases isDirectory_parent? hp hq hresolve with hempty | hthere
          · exact hqne hempty
          · rw [hqdir] at hthere
            cases hthere
        have hdir : d'.isDirectory p = false := by
          rw [Bool.eq_false_iff]
          intro hthere
          obtain ⟨place, hresolve⟩ := isDirectory_iff.mp hthere
          exact hnowhere _ hresolve
        refine ⟨hdir, ?_⟩
        cases hrefused : d'.makeDirectory p with
        | ok d'' =>
          obtain ⟨place, hresolve, -⟩ := makeDirectory_eq_ok_iff.mp hrefused
          rw [hp.withoutEndSlashes] at hresolve
          exact absurd (resolve_use_of_ok hresolve (fun _ => nofun)) (hnowhere _)
        | error e'' => exact makeFirst_stuck hne hrefused hdir (congrArg Prod.snd hagain)
    · refine ⟨hdir, makeFirst_stuck hne hrefused hdir ?_⟩
      rcases hcases with rfl | ⟨fuel', q, hlt, hq, rfl⟩
      · rfl
      · obtain ⟨above', habove', -⟩ := ancestors_eq_cons fuel' q
        rw [habove'] at hmade ⊢
        have hthere := makeFirst_done (trimmed_of_parent? hq) hmade
        rw [makeFirst_of_isDirectory (trimmed_of_parent? hq) hthere]

/-! ## Again -/

theorem makeDirectories_again (hp : Trimmed p) (h : d.makeDirectories p = (.ok (), d')) :
    d'.makeDirectories p = (.ok (), d') := by
  apply makeDirectories_of_isDirectory hp
  unfold makeDirectories at h
  obtain ⟨above, habove, -⟩ := ancestors_eq_cons p.length p
  rw [habove] at h
  exact makeFirst_done hp h

theorem makeDirectories_failed (hp : Trimmed p) (h : d.makeDirectories p = (.error e, d')) :
    ∃ e', d'.makeDirectories p = (.error e', d') := (makeFirst_failed hp h).2

end ShellHost.Disk
