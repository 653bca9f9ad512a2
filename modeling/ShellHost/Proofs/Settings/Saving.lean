import ShellHost.Proofs.Disk.Files
import ShellHost.Proofs.Json.Pretty
import ShellHost.Proofs.Settings.Reading

/-!
# Saving settings

Settings that were saved are loaded again as they were, unless one of the other keys is that of a field, or a value
nests too deep for the reader (`load_after_save`). Neither stops the settings from being saved. In the first case the
file has two members of one key, and only the last one is read.
-/

namespace ShellHost

open Json

namespace Settings

variable {s : Settings}

/-- What holds of the fields and of the other keys holds of all members. -/
theorem members_forall {P : String × Value → Prop} (hlevel : ∀ l, P ("log_level", .string l))
    (hcapacity : ∀ n, P ("event_capacity", .ofUInt64 n)) (hextra : ∀ m ∈ s.extra, P m) : ∀ m ∈ s.members, P m := by
  obtain ⟨level, n, extra⟩ := s
  refine List.forall_mem_append.mpr ⟨?_, List.forall_mem_cons.mpr ⟨hcapacity _, hextra⟩⟩
  cases level with
  | none => exact fun _ hm => absurd hm List.not_mem_nil
  | some l => exact List.forall_mem_singleton.mpr (hlevel l)

/-- The text of settings is read as their members in order. -/
theorem parse_render (hplain : (Value.object s.extra).Plain) (hdepth : ∀ m ∈ s.extra, m.2.depth < nestingLimit) :
    Value.parse s.render = .ok (.object (sortMembers s.members)) := by
  have hfree : (Value.object s.members).FloatFree := floatFree_object.mpr
    (members_forall (fun _ => trivial) (fun _ => trivial) (floatFree_object.mp hplain.floatFree))
  have hfit : (Value.object s.members).depth ≤ nestingLimit := depth_object_le.mpr
    (members_forall (fun _ => Nat.zero_le _) (fun _ => Nat.zero_le _) fun m hm => Nat.le_of_lt_succ (hdepth m hm))
  have hsort : (Value.object s.members).sort = .object (sortMembers s.members) := sort_object
    (members_forall (fun _ => rfl) (fun _ => rfl) fun m hm => sort_of_sorted ((sorted_object.mp hplain.sorted).2 m hm))
  have hparse := parse_renderPretty hfree hfit
  rwa [hsort] at hparse

end Settings

namespace SettingsFile

variable {f : SettingsFile} {s : Settings} {d d' : Disk}

/-- Settings that are saved are in range, and their text is written. -/
theorem save_eq_ok (h : f.save s d = (.ok (), d')) :
    s.check = .ok () ∧ ∃ d₁ : Disk, d₁.write f.path (Utf8.encodeString s.render) = .ok d' := by
  rw [save] at h
  split at h
  · cases h
  rename_i hcheck
  split at h
  · cases h
  rename_i d₁ hmade
  split at h
  · rename_i d₂ hwritten
    cases h
    exact ⟨hcheck, d₁, hwritten⟩
  · cases h

/-- Settings that were saved are loaded as they were if and only if none of the other keys is that of a field and their
values nest no more than 126 deep. -/
theorem load_after_save (hplain : (Value.object s.extra).Plain) (hsaved : f.save s d = (.ok (), d')) :
    f.load d' = .ok s ↔ ∀ m ∈ s.extra, m.1 ∉ Settings.fieldNames ∧ m.2.depth < nestingLimit := by
  refine ⟨extra_of_load, fun hextra => ?_⟩
  obtain ⟨hcheck, d₁, hwritten⟩ := save_eq_ok hsaved
  obtain ⟨hexists, hread⟩ := Disk.read_of_write hwritten
  have hparse := Settings.parse_render hplain fun m hm => (hextra m hm).2
  have hmembers := Settings.ofMembers_sortMembers (sorted_object.mp hplain.sorted).1 fun m hm => (hextra m hm).1
  exact load_eq_ok_iff.mpr ⟨hexists, _, readValue_of_text hread hparse,
    settingsOf_eq_ok_iff.mpr ⟨_, rfl, hmembers, hcheck⟩⟩

/-- Projects that are kept beside the settings come back with them. -/
theorem projects_loaded :
    let f := inDirectory "nested"
    let s : Settings := ⟨some "debug", 64, [("projects", .array [])]⟩
    (f.save s ⟨[], []⟩).1 = .ok () ∧ f.load (f.save s ⟨[], []⟩).2 = .ok s := by
  intro f s
  have hplain : (Value.object s.extra).Plain := ⟨⟨trivial, trivial⟩, by simp [s], trivial, trivial⟩
  have hok : (f.save s ⟨[], []⟩).1 = .ok () := by decide +kernel
  have hsaved : f.save s ⟨[], []⟩ = (.ok (), (f.save s ⟨[], []⟩).2) := Prod.ext hok rfl
  refine ⟨hok, (load_after_save hplain hsaved).mpr ?_⟩
  intro m hm
  obtain rfl := List.mem_singleton.mp hm
  decide

/-- A second capacity among the other keys is loaded in place of the first, and is no other key any more. -/
theorem capacity_replaced :
    let f := inDirectory "cfg"
    let s : Settings := ⟨none, 64, [("event_capacity", .ofUInt64 5)]⟩
    (f.save s ⟨[], []⟩).1 = .ok () ∧ f.load (f.save s ⟨[], []⟩).2 = .ok ⟨none, 5, []⟩ := by
  intro f s
  have hok : (f.save s ⟨[], []⟩).1 = .ok () := by decide +kernel
  have hplain : (Value.object s.extra).Plain := ⟨⟨trivial, trivial⟩, by simp [s], trivial, trivial⟩
  obtain ⟨-, d₁, hwritten⟩ := save_eq_ok (Prod.ext hok rfl)
  obtain ⟨hexists, hread⟩ := Disk.read_of_write hwritten
  have hdepth : ∀ m ∈ s.extra, m.2.depth < nestingLimit := List.forall_mem_singleton.mpr (by decide)
  have hsort : sortMembers s.members = [("event_capacity", .ofUInt64 5)] := by
    simp [sortMembers, Settings.members, s, insertDescending]
  have hparse := Settings.parse_render hplain hdepth
  rw [hsort] at hparse
  have hmembers : Settings.record.ofMembers [("event_capacity", .ofUInt64 5)] = .ok ⟨none, 5, []⟩ := rfl
  exact ⟨hok, load_eq_ok_iff.mpr ⟨hexists, _, readValue_of_text hread hparse,
    settingsOf_eq_ok_iff.mpr ⟨_, rfl, hmembers, by decide⟩⟩⟩

end SettingsFile

end ShellHost
