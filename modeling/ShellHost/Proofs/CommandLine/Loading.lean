import ShellHost.Proofs.CommandLine.Starting

/-!
# Two ways to load settings

The program has the settings file made when it starts, asks once more whether the file is there, and loads it
(`loadAtStart`); anybody else has it made and reads it (`loadOrCreate`). The second question is not needed, since the path
of a file that was made leads to it (`exists?_of_ensureExists`). So both ways come to the same (`two_ways_to_load`).
-/

namespace ShellHost.SettingsFile

open Json

variable {f : SettingsFile} {d d' : Disk} {e : SettingsError} {created : Bool} {path : Disk.Path}

/-! ## Made and loaded -/

/-- A file that could be made, or was there, is there. -/
theorem exists?_of_ensureExists (h : f.ensureExists d = (.ok created, d')) : d'.exists? f.path = true := by
  have hensured := f.ensured d
  rw [h] at hensured
  cases hensured with
  | there hfound => exact hfound
  | written _ _ hwritten => exact (Disk.read_of_write hwritten).1

/-- It is made if and only if it was not there. -/
theorem created_iff (h : f.ensureExists d = (.ok created, d')) : created = !d.exists? f.path := by
  have hensured := f.ensured d
  rw [h] at hensured
  cases hensured with
  | there hfound => rw [hfound, Bool.not_true]
  | written hmissing => rw [hmissing, Bool.not_false]

/-- To load the file and make it if there is none is to make it if there is none, and then to load it. -/
theorem loadOrCreate_eq (f : SettingsFile) (d : Disk) :
    f.loadOrCreate d =
      match f.ensureExists d with
      | (.error e, d) => (.error e, d)
      | (.ok _, d) => (f.load d, d) := by
  rw [loadOrCreate, loadOrCreateValue]
  rcases hensured : f.ensureExists d with ⟨e | created, d'⟩
  · rfl
  · dsimp only
    rw [load, exists?_of_ensureExists hensured, if_pos rfl]
    cases f.readValue d' <;> rfl

theorem loadAtStart_of_ok (h : f.ensureExists d = (.ok created, d')) :
    f.loadAtStart d = ((f.load d').map (·, created), d') := by
  rw [loadAtStart, h]

theorem ensureExists_of_exists? (h : d.exists? f.path = true) : f.ensureExists d = (.ok false, d) := by
  rw [ensureExists, if_pos h]

theorem load_of_created (h : f.ensureExists d = (.ok true, d')) : f.load d' = .ok {} := by
  have hensured := f.ensured d
  rw [h] at hensured
  cases hensured with
  | written _ _ hwritten => exact load_of_blank hwritten

/-! ## The file is not missed -/

theorem makeParent_ne_notFound (h : f.makeParent d = (.error e, d')) : e ≠ .notFound path := by
  unfold makeParent at h
  split at h
  · cases h
  · split at h
    · cases h
    · cases h
      simp

theorem ensureExists_ne_notFound (h : f.ensureExists d = (.error e, d')) : e ≠ .notFound path := by
  have hensured := f.ensured d
  rw [h] at hensured
  cases hensured with
  | noParent _ hfailed => exact makeParent_ne_notFound hfailed
  | refused => simp

theorem readValue_ne_notFound (h : f.readValue d = .error e) : e ≠ .notFound path := by
  rw [readValue] at h
  split at h
  · cases h
    simp
  · rename_i text _
    cases hparse : Value.parse text with
    | error err =>
      rw [hparse] at h
      cases h
      simp
    | ok v =>
      rw [hparse] at h
      cases h

theorem settingsOf_ne_notFound {v : Value} (h : settingsOf v = .error e) : e ≠ .notFound path := by
  rw [settingsOf] at h
  split at h
  · cases h
    simp
  rename_i s _
  split at h
  · rename_i hcheck
    cases h
    rw [Settings.check] at hcheck
    split_ifs at hcheck
    cases hcheck
    simp
  · cases h

theorem load_ne_notFound (hexists : d.exists? f.path = true) (h : f.load d = .error e) : e ≠ .notFound path := by
  rw [load, if_pos hexists] at h
  split at h
  · rename_i hread
    cases h
    exact readValue_ne_notFound hread
  · exact settingsOf_ne_notFound h

theorem loadOrCreate_ne_notFound (h : f.loadOrCreate d = (.error e, d')) : e ≠ .notFound path := by
  rw [loadOrCreate_eq] at h
  rcases hensured : f.ensureExists d with ⟨err | created, d₁⟩
  · rw [hensured] at h
    cases h
    exact ensureExists_ne_notFound hensured
  · rw [hensured] at h
    exact load_ne_notFound (exists?_of_ensureExists hensured) (congrArg Prod.fst h)

/-! ## The two ways -/

theorem loadAtStart_map (f : SettingsFile) (d : Disk) :
    ((f.loadAtStart d).1.map Prod.fst, (f.loadAtStart d).2) = f.loadOrCreate d := by
  rw [loadOrCreate_eq, loadAtStart]
  rcases f.ensureExists d with ⟨e | created, d'⟩
  · rfl
  · dsimp only
    cases f.load d' <;> rfl

/-- Whatever is on the disk, both ways to load the settings come to the same settings or the same error, which is never that
there is no file, and leave the same disk. At the start it is also said whether the file was made, which is the case if and
only if it was not there. Then the settings are the usual ones. Whoever loads settings finds them again, without making the
file. -/
theorem two_ways_to_load (f : SettingsFile) (d : Disk) :
    (f.loadAtStart d).1.map Prod.fst = (f.loadOrCreate d).1 ∧ (f.loadAtStart d).2 = (f.loadOrCreate d).2 ∧
      (∀ path, (f.loadAtStart d).1 ≠ .error (.notFound path) ∧ (f.loadOrCreate d).1 ≠ .error (.notFound path)) ∧
      ∀ s created d', f.loadAtStart d = (.ok (s, created), d') →
        created = !d.exists? f.path ∧ (created = true → s = {}) ∧ f.loadAtStart d' = (.ok (s, false), d') := by
  have hsame := f.loadAtStart_map d
  have hnever : ∀ path, (f.loadOrCreate d).1 ≠ .error (.notFound path) := fun path h =>
    loadOrCreate_ne_notFound (Prod.ext h rfl) rfl
  refine ⟨congrArg Prod.fst hsame, congrArg Prod.snd hsame, fun path => ⟨fun hstart => hnever path ?_, hnever path⟩,
    fun s created d' hloaded => ?_⟩
  · rw [← hsame, hstart]
    rfl
  · rcases hensured : f.ensureExists d with ⟨e | made, d₁⟩
    · rw [loadAtStart, hensured] at hloaded
      cases hloaded
    rw [loadAtStart_of_ok hensured] at hloaded
    obtain rfl : d₁ = d' := congrArg Prod.snd hloaded
    cases hload : f.load d₁ with
    | error e =>
      rw [hload] at hloaded
      cases hloaded
    | ok s' =>
      rw [hload] at hloaded
      cases hloaded
      refine ⟨created_iff hensured, ?_, ?_⟩
      · rintro rfl
        have husual := load_of_created hensured
        rw [hload] at husual
        exact Except.ok.inj husual
      · rw [loadAtStart_of_ok (ensureExists_of_exists? (exists?_of_ensureExists hensured)), hload]
        rfl

/-- The first of two starts makes the file. -/
theorem made_at_first_start : ∃ d', (inDirectory "ciska/development").loadAtStart ⟨[], []⟩ = (.ok ({}, true), d') ∧
    (inDirectory "ciska/development").loadAtStart d' = (.ok ({}, false), d') := by
  set f := inDirectory "ciska/development"
  have hmade : (f.ensureExists ⟨[], []⟩).1 = .ok true := by decide +kernel
  obtain ⟨d', hensured⟩ : ∃ d', f.ensureExists ⟨[], []⟩ = (.ok true, d') := ⟨_, Prod.ext hmade rfl⟩
  have hfirst : f.loadAtStart ⟨[], []⟩ = (.ok ({}, true), d') := by
    rw [loadAtStart_of_ok hensured, load_of_created hensured]
    rfl
  obtain ⟨-, -, -, hagain⟩ := f.two_ways_to_load ⟨[], []⟩
  exact ⟨d', hfirst, (hagain _ _ _ hfirst).2.2⟩

end ShellHost.SettingsFile
