import ShellHost.Proofs.Disk.Repeating
import ShellHost.Proofs.Json.Consistency
import ShellHost.Proofs.Settings.Keeping
import ShellHost.Proofs.Settings.Saving

/-!
# Saving what was loaded

Settings that were loaded can be saved, and nothing is lost (`saved_as_loaded`): the file then says what it said before,
but for a level that was null, which is left out, and a capacity that was missing, which is written (`resaved`). From then
on, saving what was loaded changes nothing.

While members are read, the draft holds what they say (`Holds`), in such a form that they can be told from it.
-/

namespace ShellHost

open Json

namespace Settings

variable {members : List (String × Value)} {m : String × Value} {d d' : Draft} {s : Settings} {v : Value}

/-! ## What a draft holds -/

/-- The value that a level is read from. -/
def levelValue : Option String → Value
  | none => .null
  | some level => .string level

theorem eq_levelValue {level : Option String} (h : (option string).ofValue v = .ok level) : v = levelValue level := by
  cases v with
  | null =>
    cases h
    rfl
  | string s =>
    cases h
    rfl
  | _ => cases h

theorem eq_of_uint32 {n : UInt32} (h : uint32.ofValue v = .ok n) : v = .ofUInt64 n.toUInt64 := by
  cases v with
  | number number =>
    obtain ⟨⟨val, lower, upper⟩, rfl, ⟨hlow, hhigh⟩, rfl⟩ := pickBelow_eq_ok h
    dsimp only at hlow hhigh
    have hsize : val.toNat < UInt32.size := by omega
    have hval : (val.toNat.toUInt32.toUInt64.toNat : Int) = val := by
      rw [UInt32.toNat_toUInt64, Nat.toUInt32, UInt32.toNat_ofNat_of_lt' hsize]
      omega
    simp only [Value.ofUInt64, Whole.ofUInt64, hval]
  | _ => cases h

/-- The draft holds what the members say. -/
structure Holds (members : List (String × Value)) (d : Draft) : Prop where
  /-- The level, if there is one. -/
  logLevel : members.lookup "log_level" = d.logLevel.map levelValue
  /-- The capacity, if there is one. -/
  eventCapacity : members.lookup "event_capacity" = d.eventCapacity.map fun n => .ofUInt64 n.toUInt64
  /-- The other keys. -/
  other : ∀ key ∉ fieldNames, members.lookup key = d.extra.lookup key
  /-- The other keys descend. -/
  descending : Descending d.extra

theorem Holds.add (h : Holds members d) (hnew : members.lookup m.1 = none) (hadded : Added d m d') :
    Holds (members ++ [m]) d' := by
  have hlookup : ∀ key, (members ++ [m]).lookup key = if key = m.1 then some m.2 else members.lookup key := by
    intro key
    rw [List.lookup_append, lookup_cons]
    by_cases hkey : key = m.1
    · rw [if_pos hkey, if_pos hkey, hkey, hnew, Option.none_or]
    · rw [if_neg hkey, if_neg hkey, List.lookup_nil, Option.or_none]
  cases hadded with
  | logLevel _ hread =>
    refine ⟨?_, ?_, fun key hkey => ?_, h.descending⟩
    · rw [hlookup, if_pos rfl, eq_levelValue hread]
      rfl
    · have hne : "event_capacity" ≠ "log_level" := by decide
      rw [hlookup, if_neg hne, h.eventCapacity]
    · have hne : key ≠ "log_level" := fun heq => hkey (heq ▸ by decide)
      rw [hlookup, if_neg hne, h.other key hkey]
  | eventCapacity _ hread =>
    refine ⟨?_, ?_, fun key hkey => ?_, h.descending⟩
    · have hne : "log_level" ≠ "event_capacity" := by decide
      rw [hlookup, if_neg hne, h.logLevel]
    · rw [hlookup, if_pos rfl, eq_of_uint32 hread]
      rfl
    · have hne : key ≠ "event_capacity" := fun heq => hkey (heq ▸ by decide)
      rw [hlookup, if_neg hne, h.other key hkey]
  | @other name v hname =>
    have hlevel : "log_level" ≠ name := fun heq => hname (heq ▸ by decide)
    have hcapacity : "event_capacity" ≠ name := fun heq => hname (heq ▸ by decide)
    refine ⟨?_, ?_, fun key hkey => ?_, h.descending.insert name v⟩
    · rw [hlookup, if_neg hlevel, h.logLevel]
    · rw [hlookup, if_neg hcapacity, h.eventCapacity]
    · rw [hlookup, lookup_insertDescending, h.other key hkey]

/-- A draft that was filled from members, no two of one key, holds what they say. -/
theorem holds_of_foldlM (hkeys : (members.map Prod.fst).Nodup) (h : members.foldlM record.addMember {} = .ok d) :
    Holds members d := by
  induction members using List.reverseRecOn generalizing d with
  | nil =>
    cases h
    exact ⟨rfl, rfl, fun _ _ => rfl, List.Pairwise.nil⟩
  | append_singleton members m ih =>
    rw [List.map_append, List.nodup_append] at hkeys
    obtain ⟨hfirst, -, hnew⟩ := hkeys
    obtain ⟨d₁, hrest, hm⟩ := foldlM_concat_eq_ok.mp h
    refine (ih hfirst hrest).add ?_ (addMember_eq_ok_iff.mp hm)
    rw [List.lookup_eq_none_iff]
    intro n hn
    simpa using (hnew n.1 (List.mem_map_of_mem hn) m.1 (by simp)).symm

/-! ## What is saved -/

/-- What a key has after settings were loaded and saved, if it had `v` before: a level that is null is left out, a capacity
that is missing is written, and all else stays. -/
def resaved (key : String) (v : Option Value) : Option Value :=
  match v with
  | none => if key = "event_capacity" then some (.ofUInt64 64) else none
  | some .null => if key = "log_level" then none else some .null
  | some v => some v

/-- What is read from members is held by a draft that holds them all. -/
theorem holds_of_ofMembers (hkeys : (members.map Prod.fst).Nodup) (h : record.ofMembers members = .ok s) :
    ∃ d : Draft, Holds members d ∧ s = ⟨d.logLevel.getD none, d.eventCapacity.getD 64, d.extra.reverse⟩ := by
  rw [Record.ofMembers] at h
  split at h
  · cases h
  rename_i d hfold
  cases h
  exact ⟨d, holds_of_foldlM hkeys hfold, rfl⟩

/-- The other keys that are read ascend, and their members are among those that were read. -/
theorem extra_of_ofMembers (hkeys : (members.map Prod.fst).Nodup) (h : record.ofMembers members = .ok s) :
    (s.extra.map Prod.fst).Pairwise (· < ·) ∧ ∀ m ∈ s.extra, m ∈ members ∧ m.1 ∉ fieldNames := by
  rw [Record.ofMembers] at h
  split at h
  · cases h
  rename_i d hfold
  cases h
  refine ⟨(holds_of_foldlM hkeys hfold).descending.reverse, fun m hm => ?_⟩
  exact extra_of_foldlM (P := fun m => m ∈ members ∧ m.1 ∉ fieldNames) (fun m hm hkey => ⟨hm, hkey⟩)
    (fun _ hm => absurd hm List.not_mem_nil) hfold m (List.mem_reverse.mp hm)

/-- Under each key, the members of settings say what was said by the members that the settings were read from. -/
theorem lookup_sortMembers (hkeys : (members.map Prod.fst).Nodup) (h : record.ofMembers members = .ok s) (key : String) :
    (sortMembers s.members).lookup key = resaved key (members.lookup key) := by
  obtain ⟨d, hd, hs⟩ := holds_of_ofMembers hkeys h
  obtain ⟨hascending, hextra⟩ := extra_of_ofMembers hkeys h
  have hothers : ∀ m ∈ s.extra, m.1 ∉ fieldNames := fun m hm => (hextra m hm).2
  -- what is written is read again, so it is held by a draft, too
  have hread := orderFree_addMember.foldlM_sortMembers (nodup_members hascending hothers)
    (foldlM_members hascending hothers)
  have hsorted : ((sortMembers s.members).map Prod.fst).Pairwise (· < ·) :=
    (descending_foldl List.Pairwise.nil).reverse
  have hwritten := holds_of_foldlM (nodup_of_ascending hsorted) hread
  by_cases hlevel : key = "log_level"
  · rw [hlevel, hwritten.logLevel, hd.logLevel, hs]
    rcases d.logLevel with _ | _ | level <;> rfl
  by_cases hcapacity : key = "event_capacity"
  · rw [hcapacity, hwritten.eventCapacity, hd.eventCapacity, hs]
    rcases d.eventCapacity with _ | n <;> rfl
  have hkey : key ∉ fieldNames := by
    have hnames : fieldNames = ["log_level", "event_capacity"] := rfl
    simp [hnames, hlevel, hcapacity]
  have hsame : ∀ v, resaved key v = v := by
    intro v
    unfold resaved
    split <;> simp [hlevel, hcapacity]
  rw [hwritten.other key hkey, hd.other key hkey, hsame, hs]
  dsimp only
  rw [List.reverse_reverse]

/-- The other keys that are read are as plain as all that is read. -/
theorem plain_extra (hplain : (Value.object members).Plain) (h : record.ofMembers members = .ok s) :
    (Value.object s.extra).Plain := by
  obtain ⟨hkeys, hsorted⟩ := sorted_object.mp hplain.sorted
  have hfree := floatFree_object.mp hplain.floatFree
  obtain ⟨hascending, hextra⟩ := extra_of_ofMembers (nodup_of_ascending hkeys) h
  refine ⟨floatFree_object.mpr fun m hm => hfree m (hextra m hm).1, sorted_object.mpr ⟨hascending, fun m hm => ?_⟩⟩
  exact hsorted m (hextra m hm).1

theorem check_eq_ok_iff : s.check = .ok () ↔
    (1 ≤ s.eventCapacity ∧ s.eventCapacity ≤ 4096) ∧ ∀ level, s.logLevel = some level → levelProblems level = [] := by
  have hcheck : s.check = .ok () ↔ s.problems = [] := by
    unfold check
    rcases s.problems with _ | ⟨p, ps⟩ <;> simp
  have hcapacity : capacityProblems s.eventCapacity = [] ↔ 1 ≤ s.eventCapacity ∧ s.eventCapacity ≤ 4096 := by
    unfold capacityProblems
    split_ifs with h <;> simp [h]
  rw [hcheck, problems, List.append_eq_nil_iff, hcapacity]
  cases s.logLevel <;> simp

end Settings

/-! ## The file -/

namespace SettingsFile

variable {dir : Disk.Path} {d d' : Disk} {s : Settings} {v : Value} {members : List (String × Value)}

theorem read_of_readValue {f : SettingsFile} (h : f.readValue d = .ok v) : ∃ c, d.read f.path = .ok c := by
  rw [readValue, readText] at h
  cases hread : d.read f.path with
  | ok c => exact ⟨c, rfl⟩
  | error e =>
    rw [hread] at h
    cases h

/-- The directory of a file that can be read is there. -/
theorem makeParent_of_read {c : List UInt8} (h : d.read (inDirectory dir).path = .ok c) :
    (inDirectory dir).makeParent d = (.ok (), d) := by
  obtain ⟨htrimmed, -⟩ := parts_inDirectory dir
  obtain ⟨place, hresolve⟩ := Disk.read_eq_ok_iff.mp h
  unfold makeParent
  cases hp : Disk.parent? (inDirectory dir).path with
  | none => rfl
  | some p =>
    have hthere := Disk.isDirectory_parent? htrimmed hp hresolve
    dsimp only
    rw [Disk.makeDirectories_of_isDirectory (Disk.trimmed_of_parent? hp) hthere]

/-- To save settings to a file that can be read is to write their text. -/
theorem save_of_read {c : List UInt8} (hread : d.read (inDirectory dir).path = .ok c) (hcheck : s.check = .ok ())
    (hwritten : d.write (inDirectory dir).path (Utf8.encodeString s.render) = .ok d') :
    (inDirectory dir).save s d = (.ok (), d') := by
  rw [save, hcheck]
  dsimp only
  rw [makeParent_of_read hread]
  dsimp only
  rw [hwritten]

/-- Settings that were loaded, from a file whose value has no fractions, are in range and can be saved. Under every key the
file then says what it said before, but for a level that was null and a capacity that was missing, and it has no other
keys. The same settings are loaded again, and saving them once more changes nothing. -/
theorem saved_as_loaded (hload : (inDirectory dir).load d = .ok s)
    (hvalue : (inDirectory dir).readValue d = .ok (.object members)) (hfree : (Value.object members).FloatFree) :
    ((1 ≤ s.eventCapacity ∧ s.eventCapacity ≤ 4096) ∧
        ∀ level, s.logLevel = some level → Settings.levelProblems level = []) ∧
      ∃ d', (inDirectory dir).save s d = (.ok (), d') ∧
        (∃ members', (inDirectory dir).readValue d' = .ok (.object members') ∧
          (members'.map Prod.fst).Pairwise (· < ·) ∧
            ∀ key, members'.lookup key = Settings.resaved key (members.lookup key)) ∧
        (inDirectory dir).load d' = .ok s ∧ (inDirectory dir).save s d' = (.ok (), d') := by
  obtain ⟨-, v, hvalue', hsettings⟩ := load_eq_ok_iff.mp hload
  rw [hvalue] at hvalue'
  cases hvalue'
  obtain ⟨_, ⟨⟩, hofMembers, hcheck⟩ := settingsOf_eq_ok_iff.mp hsettings
  have hplain : (Value.object members).Plain := ⟨hfree, (bounded_of_readValue hvalue).sorted⟩
  have hkeys := nodup_of_ascending (sorted_object.mp hplain.sorted).1
  have hextra := extra_of_load hload
  -- the file is written where it was read
  obtain ⟨c, hread⟩ := read_of_readValue hvalue
  obtain ⟨d', hwritten⟩ := Disk.write_of_read hread (Utf8.encodeString s.render)
  obtain ⟨hexists, hread'⟩ := Disk.read_of_write hwritten
  -- its text is read as the members of the settings
  have hparse := Settings.parse_render (Settings.plain_extra hplain hofMembers) fun m hm => (hextra m hm).2
  have hsaved : (inDirectory dir).readValue d' = .ok (.object (sortMembers s.members)) :=
    readValue_of_text hread' hparse
  have hagain := Settings.ofMembers_sortMembers (Settings.extra_of_ofMembers hkeys hofMembers).1
    fun m hm => (hextra m hm).1
  refine ⟨Settings.check_eq_ok_iff.mp hcheck, d', save_of_read hread hcheck hwritten, ?_, ?_, ?_⟩
  · refine ⟨sortMembers s.members, hsaved, ?_, Settings.lookup_sortMembers hkeys hofMembers⟩
    exact (sorted_object.mp (bounded_of_readValue hsaved).sorted).1
  · exact load_eq_ok_iff.mpr ⟨hexists, _, hsaved, settingsOf_eq_ok_iff.mpr ⟨_, rfl, hagain, hcheck⟩⟩
  · exact save_of_read hread' hcheck (Disk.write_again hwritten)

/-- A theme beside a level that is null is kept, and a capacity is added. -/
theorem theme_resaved :
    let d := diskWithSettings (Utf8.encodeString (Value.object [("log_level", .null), ("theme", .string "dark")]).render)
    let s : Settings := ⟨none, 64, [("theme", .string "dark")]⟩
    ∃ d', (inDirectory "cfg").save s d = (.ok (), d') ∧
      ∃ members', (inDirectory "cfg").readValue d' = .ok (.object members') ∧ members'.lookup "log_level" = none ∧
        members'.lookup "event_capacity" = some (.ofUInt64 64) ∧ members'.lookup "theme" = some (.string "dark") := by
  intro d s
  let members : List (String × Value) := [("log_level", .null), ("theme", .string "dark")]
  have hfree : (Value.object members).FloatFree := ⟨trivial, trivial, trivial⟩
  have hkeys : (members.map Prod.fst).Pairwise (· < ·) := by decide
  have hsorted : (Value.object members).Sorted := sorted_object.mpr ⟨hkeys, by simp [members, Value.Sorted]⟩
  have hparse : Value.parse (Value.object members).render = .ok (.object members) :=
    (reads_value hfree hsorted).parse (by decide)
  have hread : d.read (inDirectory "cfg").path = .ok (Utf8.encodeString (Value.object members).render) := by rfl
  have hvalue : (inDirectory "cfg").readValue d = .ok (.object members) := readValue_of_text hread hparse
  have hload : (inDirectory "cfg").load d = .ok s :=
    load_eq_ok_iff.mpr ⟨by rfl, _, hvalue, settingsOf_eq_ok_iff.mpr ⟨_, rfl, rfl, by decide⟩⟩
  obtain ⟨-, d', hsaved, ⟨members', hvalue', -, hlookup⟩, -, -⟩ := saved_as_loaded hload hvalue hfree
  exact ⟨d', hsaved, members', hvalue', hlookup "log_level", hlookup "event_capacity", hlookup "theme"⟩

end SettingsFile

end ShellHost
