import ShellHost.Proofs.Json.Members
import ShellHost.Proofs.Text.Utf8
import ShellHost.Settings.File

/-!
# Reading settings

The members of a settings file are read in ascending order of their keys, but settings do not depend on the order of
members (`orderFree_addMember`): so they are read as they were listed (`OrderFree.foldlM_sortMembers`). Of the settings
that are read, the other keys are never those of fields, and their values come from the file.
-/

namespace ShellHost

/-! ## Members in any order -/

namespace Json

variable {ε σ : Type} {add : σ → String × Value → Except ε σ} {s s₁ s₂ : σ}

theorem insertDescending_comm {key key' : String} (hne : key ≠ key') (v v' : Value) (members : List (String × Value)) :
    insertDescending key v (insertDescending key' v' members)
      = insertDescending key' v' (insertDescending key v members) := by
  induction members with
  | nil =>
    simp only [insertDescending]
    grind
  | cons m rest ih =>
    simp only [insertDescending]
    grind [insertDescending]

/-- Two members of different keys can as well be added the other way round. -/
def OrderFree (add : σ → String × Value → Except ε σ) : Prop :=
  ∀ ⦃s s₁ s₂ : σ⦄ ⦃m n : String × Value⦄, m.1 ≠ n.1 → add s m = .ok s₁ → add s₁ n = .ok s₂ →
    ∃ s', add s n = .ok s' ∧ add s' m = .ok s₂

/-- A member that is put in its place is added last, as it were. -/
theorem OrderFree.foldlM_insertDescending (hadd : OrderFree add) {out : List (String × Value)} {m : String × Value}
    (hfresh : ∀ n ∈ out, n.1 ≠ m.1) (hout : out.reverse.foldlM add s = .ok s₁) (hm : add s₁ m = .ok s₂) :
    (insertDescending m.1 m.2 out).reverse.foldlM add s = .ok s₂ := by
  induction out generalizing s₁ s₂ with
  | nil => exact foldlM_concat_eq_ok.mpr ⟨s₁, hout, hm⟩
  | cons n rest ih =>
    obtain ⟨hn, hrest⟩ := List.forall_mem_cons.mp hfresh
    rw [insertDescending, if_neg hn]
    split_ifs with hlt
    · rw [List.reverse_cons, foldlM_concat_eq_ok]
      exact ⟨s₁, hout, hm⟩
    · -- `m` goes below `n`, which was added last and is now added after it
      rw [List.reverse_cons, foldlM_concat_eq_ok] at hout
      obtain ⟨s₀, hout, hn'⟩ := hout
      obtain ⟨s', hm', hn''⟩ := hadd hn hn' hm
      rw [List.reverse_cons, foldlM_concat_eq_ok]
      exact ⟨s', ih hrest hout hm', hn''⟩

theorem OrderFree.foldlM_foldl (hadd : OrderFree add) {members out : List (String × Value)}
    (hkeys : (members.map Prod.fst).Nodup) (hfresh : ∀ n ∈ out, ∀ m ∈ members, n.1 ≠ m.1)
    (hout : out.reverse.foldlM add s = .ok s₁) (h : members.foldlM add s₁ = .ok s₂) :
    (members.foldl (fun out m => insertDescending m.1 m.2 out) out).reverse.foldlM add s = .ok s₂ := by
  induction members generalizing out s₁ with
  | nil =>
    cases h
    exact hout
  | cons m rest ih =>
    rw [List.map_cons, List.nodup_cons] at hkeys
    obtain ⟨hm, hrest⟩ := hkeys
    obtain ⟨s', hadded, h⟩ := foldlM_cons_eq_ok.mp h
    have hout' := hadd.foldlM_insertDescending (fun n hn => hfresh n hn m List.mem_cons_self) hout hadded
    have hfirst : ∀ k ∈ rest, m.1 ≠ k.1 := fun k hk heq => hm (heq ▸ List.mem_map_of_mem hk)
    have hothers : ∀ n ∈ out, ∀ k ∈ rest, n.1 ≠ k.1 := fun n hn k hk => hfresh n hn k (List.mem_cons_of_mem _ hk)
    exact ih hrest (insertDescending_forall hfirst hothers) hout' h

/-- Members that are sorted come to the same as before. -/
theorem OrderFree.foldlM_sortMembers (hadd : OrderFree add) {members : List (String × Value)}
    (hkeys : (members.map Prod.fst).Nodup) (h : members.foldlM add s = .ok s₂) :
    (sortMembers members).foldlM add s = .ok s₂ :=
  hadd.foldlM_foldl hkeys (fun _ hn => absurd hn List.not_mem_nil) rfl h

end Json

/-! ## Settings from members -/

namespace Settings

open Json

variable {d d' : Draft} {m : String × Value} {s : Settings}

/-- The keys that are those of fields. -/
def fieldNames : List String := record.fields.map RecordField.name

/-- What one member may do to a draft. -/
inductive Added (d : Draft) : String × Value → Draft → Prop where
  /-- It fills the level. -/
  | logLevel {v : Value} {level : Option String} (hempty : d.logLevel = none)
      (hread : (option string).ofValue v = .ok level) : Added d ("log_level", v) { d with logLevel := some level }
  /-- It fills the capacity. -/
  | eventCapacity {v : Value} {n : UInt32} (hempty : d.eventCapacity = none) (hread : uint32.ofValue v = .ok n) :
      Added d ("event_capacity", v) { d with eventCapacity := some n }
  /-- It is kept. -/
  | other {key : String} {v : Value} (hkey : key ∉ fieldNames) :
      Added d (key, v) { d with extra := insertDescending key v d.extra }

theorem find?_fields {key : String} (hkey : key ∉ fieldNames) : record.fields.find? (·.name == key) = none := by
  rw [List.find?_eq_none]
  intro f hf heq
  exact hkey (eq_of_beq heq ▸ List.mem_map_of_mem hf)

/-- A member does what the draft and its key allow, or is refused. -/
theorem addMember_eq_ok_iff : record.addMember d m = .ok d' ↔ Added d m d' := by
  obtain ⟨key, v⟩ := m
  constructor
  · intro h
    by_cases hlevel : key = "log_level"
    · subst hlevel
      obtain ⟨hempty, level, hread, rfl⟩ := (Record.addMember_field rfl).mp h
      exact .logLevel hempty hread
    by_cases hcapacity : key = "event_capacity"
    · subst hcapacity
      obtain ⟨hempty, n, hread, rfl⟩ := (Record.addMember_field rfl).mp h
      exact .eventCapacity hempty hread
    have hkey : key ∉ fieldNames := by
      have hnames : fieldNames = ["log_level", "event_capacity"] := rfl
      simp [hnames, hlevel, hcapacity]
    rw [Record.addMember, find?_fields hkey] at h
    cases h
    exact .other hkey
  · intro h
    cases h with
    | logLevel hempty hread => exact (Record.addMember_field rfl).mpr ⟨hempty, _, hread, rfl⟩
    | eventCapacity hempty hread => exact (Record.addMember_field rfl).mpr ⟨hempty, _, hread, rfl⟩
    | other hkey =>
      rw [Record.addMember, find?_fields hkey]
      rfl

theorem orderFree_addMember : OrderFree record.addMember := by
  intro d d₁ d₂ m n hne hm hn
  rw [addMember_eq_ok_iff] at hm hn
  simp only [addMember_eq_ok_iff]
  cases hm with
  | logLevel hempty hread =>
    cases hn with
    | logLevel => exact absurd rfl hne
    | eventCapacity hempty' hread' => exact ⟨_, .eventCapacity hempty' hread', .logLevel hempty hread⟩
    | other hkey => exact ⟨_, .other hkey, .logLevel hempty hread⟩
  | eventCapacity hempty hread =>
    cases hn with
    | logLevel hempty' hread' => exact ⟨_, .logLevel hempty' hread', .eventCapacity hempty hread⟩
    | eventCapacity => exact absurd rfl hne
    | other hkey => exact ⟨_, .other hkey, .eventCapacity hempty hread⟩
  | other hkey =>
    cases hn with
    | logLevel hempty' hread' => exact ⟨_, .logLevel hempty' hread', .other hkey⟩
    | eventCapacity hempty' hread' => exact ⟨_, .eventCapacity hempty' hread', .other hkey⟩
    | other hkey' =>
      refine ⟨_, .other hkey', ?_⟩
      rw [insertDescending_comm hne.symm]
      exact .other hkey

/-- Members that are no fields are kept, each in its place. -/
theorem foldlM_others (d : Draft) {members : List (String × Value)} (hkeys : ∀ m ∈ members, m.1 ∉ fieldNames) :
    members.foldlM record.addMember d
      = .ok { d with extra := members.foldl (fun out m => insertDescending m.1 m.2 out) d.extra } := by
  induction members generalizing d with
  | nil => rfl
  | cons m rest ih =>
    obtain ⟨hm, hrest⟩ := List.forall_mem_cons.mp hkeys
    exact foldlM_cons_eq_ok.mpr ⟨_, addMember_eq_ok_iff.mpr (.other hm), ih _ hrest⟩

/-- The other keys that are read are keys of members that are no fields. -/
theorem extra_of_foldlM {P : String × Value → Prop} {members : List (String × Value)}
    (hmembers : ∀ m ∈ members, m.1 ∉ fieldNames → P m) (hd : ∀ m ∈ d.extra, P m)
    (h : members.foldlM record.addMember d = .ok d') : ∀ m ∈ d'.extra, P m := by
  induction members generalizing d with
  | nil =>
    cases h
    exact hd
  | cons m rest ih =>
    obtain ⟨hm, hrest⟩ := List.forall_mem_cons.mp hmembers
    obtain ⟨d₁, hadded, h⟩ := foldlM_cons_eq_ok.mp h
    refine ih hrest ?_ h
    cases addMember_eq_ok_iff.mp hadded with
    | logLevel => exact hd
    | eventCapacity => exact hd
    | other hkey => exact insertDescending_forall (hm hkey) hd

/-- The members of settings, in the order in which they are listed. -/
def members (s : Settings) : List (String × Value) :=
  (s.logLevel.map fun l => ("log_level", Value.string l)).toList ++
    ("event_capacity", .ofUInt64 s.eventCapacity.toUInt64) :: s.extra

theorem uint32_ofUInt64 (n : UInt32) : uint32.ofValue (.ofUInt64 n.toUInt64) = .ok n := by
  have hval : (Whole.ofUInt64 n.toUInt64).val = n.toNat := by simp [Whole.ofUInt64]
  have hpick : pickBelow UInt32.size "u32" Nat.toUInt32 (.whole (.ofUInt64 n.toUInt64)) = .ok n := by
    rw [pickBelow_of_lt hval n.toNat_lt]
    simp
  simp only [uint32, number, Value.ofUInt64, hpick]

theorem nodup_members (hextra : (s.extra.map Prod.fst).Pairwise (· < ·)) (hkeys : ∀ m ∈ s.extra, m.1 ∉ fieldNames) :
    (s.members.map Prod.fst).Nodup := by
  obtain ⟨level, n, extra⟩ := s
  have hothers : (extra.map Prod.fst).Nodup :=
    hextra.imp fun {a b} (hlt : a < b) (heq : a = b) => String.lt_irrefl b (heq ▸ hlt)
  have hfresh : ∀ key ∈ fieldNames, key ∉ extra.map Prod.fst := by
    intro key hkey hmem
    obtain ⟨m, hm, rfl⟩ := List.mem_map.mp hmem
    exact hkeys m hm hkey
  have hlevel := hfresh "log_level" (by decide)
  have hcapacity := hfresh "event_capacity" (by decide)
  cases level <;> simp [members, hothers, hcapacity, hlevel]

/-- As they are listed, the fields come first, and the other keys ascend. -/
theorem foldlM_members (hextra : (s.extra.map Prod.fst).Pairwise (· < ·)) (hkeys : ∀ m ∈ s.extra, m.1 ∉ fieldNames) :
    s.members.foldlM record.addMember {} = .ok ⟨s.logLevel.map some, some s.eventCapacity, s.extra.reverse⟩ := by
  obtain ⟨level, n, extra⟩ := s
  have hgathered : extra.foldl (fun out m => insertDescending m.1 m.2 out) [] = extra.reverse := by
    rw [foldl_insertDescending (by simpa using hextra), List.append_nil]
  have hrest : ∀ d : Draft, d.eventCapacity = none → d.extra = [] →
      (("event_capacity", .ofUInt64 n.toUInt64) :: extra).foldlM record.addMember d
        = .ok { d with eventCapacity := some n, extra := extra.reverse } := by
    intro d hempty hnone
    refine foldlM_cons_eq_ok.mpr ⟨_, addMember_eq_ok_iff.mpr (.eventCapacity hempty (uint32_ofUInt64 n)), ?_⟩
    rw [foldlM_others _ hkeys]
    dsimp only
    rw [hnone, hgathered]
  cases level with
  | none => exact hrest {} rfl rfl
  | some l => exact foldlM_cons_eq_ok.mpr ⟨_, addMember_eq_ok_iff.mpr (.logLevel rfl rfl), hrest _ rfl rfl⟩

/-- Settings are read from their members, in order, if no other key is that of a field. -/
theorem ofMembers_sortMembers (hextra : (s.extra.map Prod.fst).Pairwise (· < ·))
    (hkeys : ∀ m ∈ s.extra, m.1 ∉ fieldNames) : record.ofMembers (sortMembers s.members) = .ok s := by
  have hread := orderFree_addMember.foldlM_sortMembers (nodup_members hextra hkeys) (foldlM_members hextra hkeys)
  have hempty : record.empty = {} := rfl
  rw [Record.ofMembers, hempty, hread]
  obtain ⟨level, n, extra⟩ := s
  cases level <;> simp [record, Except.mapError]

end Settings

/-! ## The file -/

namespace SettingsFile

open Json

variable {f : SettingsFile} {d : Disk} {s : Settings} {v : Value} {text : String}

/-- The file is read as the value that its text says. -/
theorem readValue_of_text (hread : d.read f.path = .ok (Utf8.encodeString text)) (hparse : Value.parse text = .ok v) :
    f.readValue d = .ok v := by
  have htext : f.readText d = .ok text := by
    rw [readText, hread]
    dsimp only
    rw [Utf8.encodeString, Utf8.decode_encode]
    dsimp only
    rw [String.ofList_toList]
  rw [readValue, htext]
  dsimp only
  rw [hparse]
  rfl

/-- What the file says is in order and nests no deeper than the reader allows. -/
theorem bounded_of_readValue (h : f.readValue d = .ok v) : v.Bounded nestingLimit := by
  rw [readValue] at h
  split at h
  · cases h
  · rename_i text htext
    cases hparse : Value.parse text with
    | error e =>
      rw [hparse] at h
      cases h
    | ok w =>
      rw [hparse] at h
      cases h
      exact .of_parse hparse

/-- Settings are read from the members of an object, and checked. -/
theorem settingsOf_eq_ok_iff : settingsOf v = .ok s ↔
    ∃ members, v = .object members ∧ Settings.record.ofMembers members = .ok s ∧ s.check = .ok () := by
  have hobject : ∀ members, Settings.decoder.convert (.object members)
      = (Settings.record.ofMembers members).mapError fun m => ⟨.mismatch m, none⟩ := fun _ => rfl
  constructor
  · intro h
    rw [settingsOf] at h
    split at h
    · cases h
    rename_i s' hconvert
    split at h
    · cases h
    rename_i hcheck
    cases h
    cases v with
    | object members =>
      rw [hobject] at hconvert
      cases hread : Settings.record.ofMembers members with
      | error m =>
        rw [hread] at hconvert
        cases hconvert
      | ok s' =>
        rw [hread] at hconvert
        cases hconvert
        exact ⟨members, rfl, hread, hcheck⟩
    | _ => cases hconvert
  · rintro ⟨members, rfl, hread, hcheck⟩
    rw [settingsOf, hobject, hread]
    dsimp only [Except.mapError]
    rw [hcheck]

theorem load_eq_ok_iff :
    f.load d = .ok s ↔ d.exists? f.path = true ∧ ∃ v, f.readValue d = .ok v ∧ settingsOf v = .ok s := by
  rw [load]
  split_ifs with hexists
  · cases f.readValue d with
    | error e => simp
    | ok v => simp [hexists]
  · simp [hexists]

/-- Of settings that are read, no other key is that of a field, and the values nest less deep than the reader allows. -/
theorem extra_of_load (h : f.load d = .ok s) : ∀ m ∈ s.extra, m.1 ∉ Settings.fieldNames ∧ m.2.depth < nestingLimit := by
  obtain ⟨-, v, hvalue, hsettings⟩ := load_eq_ok_iff.mp h
  obtain ⟨members, rfl, hread, -⟩ := settingsOf_eq_ok_iff.mp hsettings
  have hdepth := depth_object_le.mp (bounded_of_readValue hvalue).depth_le
  rw [Record.ofMembers] at hread
  split at hread
  · cases hread
  rename_i draft hfold
  cases hread
  have hextra := Settings.extra_of_foldlM (P := fun m => m.1 ∉ Settings.fieldNames ∧ m.2.depth < nestingLimit)
    (fun m hm hkey => ⟨hkey, Nat.lt_succ_of_le (hdepth m hm)⟩) (fun _ hm => absurd hm List.not_mem_nil) hfold
  exact fun m hm => hextra m (List.mem_reverse.mp hm)

end SettingsFile

end ShellHost
