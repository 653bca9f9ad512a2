import ShellHost.Proofs.Json.Members

/-!
# Texts and their values

A decoder reads a text in one way and a value in another. Where both succeed, the text being read as a value as well, they
come to the same (`Decoder.Consistent`). For a record this goes through all its members, those that are passed over
included: what a text is read as is what the members of the text are read as (`Record.ofMembers_membersOf`).
-/

namespace ShellHost.Json

variable {α β σ : Type} {v : Value} {text : String}

/-! ## Decoders -/

/-- What the decoder reads from a text it also reads from the value that the text is, and both end at the same place. -/
def Decoder.Consistent (d : Decoder α) : Prop :=
  ∀ ⦃room cs a rest v rest'⦄, d.ofText room cs = .ok (a, rest) → readValue room cs = .ok (v, rest') →
    d.ofValue v = .ok a ∧ rest' = rest

theorem value_consistent : value.Consistent := by
  intro room cs a rest v rest' h hv
  have hsame : (.ok (a, rest) : Reading Value) = .ok (v, rest') := h.symm.trans hv
  cases hsame
  exact ⟨rfl, rfl⟩

theorem text_consistent (expected : String) : (Json.text expected).Consistent := by
  intro room cs s rest v rest' h hv
  dsimp only [Json.text] at h
  split at h
  · rename_i tail hskip
    have hstring : readValue room cs = (readChars [] tail).map fun x => (.string x.1, x.2) := by
      rw [readValue.eq_def, hskip]
      rfl
    rw [hstring, h] at hv
    cases hv
    exact ⟨rfl, rfl⟩
  · cases h

theorem startsNumber_cases {c : Char} (h : startsNumber c = true) : c ≠ 'n' ∧ c ≠ 't' ∧ c ≠ 'f' := by
  refine ⟨?_, ?_, ?_⟩ <;> rintro rfl <;> exact absurd h (by decide)

theorem number_consistent (expected : String) (pick : Number → Except Mismatch α) :
    (number expected pick).Consistent := by
  intro room cs a rest v rest' h hv
  dsimp only [number] at h
  split at h
  · cases h
  · rename_i c tail hskip
    split_ifs at h with hstart
    · obtain ⟨hnull, htrue, hfalse⟩ := startsNumber_cases hstart
      rw [readValue, hskip] at hv
      simp only [if_neg hnull, if_neg htrue, if_neg hfalse, if_pos hstart] at hv
      split at h
      · cases h
      · rename_i n left hread
        obtain ⟨b, hpick, hpair⟩ := ok_of_map h
        cases hpair
        rw [hread] at hv
        cases hv
        cases hn : pick n with
        | error m =>
          rw [hn] at hpick
          cases hpick
        | ok b' =>
          rw [hn] at hpick
          cases hpick
          exact ⟨hn, rfl⟩

theorem Decoder.Consistent.map {d : Decoder α} (h : d.Consistent) (f : α → β) : (d.map f).Consistent := by
  intro room cs b rest v rest' hread hv
  obtain ⟨⟨a, left⟩, hread, hpair⟩ := ok_of_map hread
  cases hpair
  obtain ⟨hvalue, hrest⟩ := h hread hv
  refine ⟨?_, hrest⟩
  show (d.ofValue v).map f = _
  rw [hvalue]
  rfl

theorem field_consistent {d : Decoder β} (h : d.Consistent) {name : String} {get : σ → Option β} {set : β → σ → σ} :
    (field name get set d).decoder.Consistent :=
  h.map set

/-- A number that is picked is whole and in range. -/
theorem pickBelow_eq_ok {bound : Nat} {expected : String} {make : Nat → α} {n : Number} {a : α}
    (h : pickBelow bound expected make n = .ok a) :
    ∃ w : Whole, n = .whole w ∧ (0 ≤ w.val ∧ w.val < bound) ∧ make w.val.toNat = a := by
  cases n with
  | float x => cases h
  | whole w =>
    rw [pickBelow] at h
    split_ifs at h with hrange
    exact ⟨w, rfl, hrange, Except.ok.inj h⟩

/-- A whole number that is not negative is an unsigned word. -/
theorem Whole.eq_ofUInt64 {w : Whole} (h : 0 ≤ w.val) : w = .ofUInt64 w.val.toNat.toUInt64 := by
  obtain ⟨val, lower, upper⟩ := w
  dsimp only at h
  have hsize : val.toNat < UInt64.size := by
    show val.toNat < 0x10000000000000000
    omega
  have hval : (val.toNat.toUInt64.toNat : Int) = val := by
    rw [Nat.toUInt64, UInt64.toNat_ofNat_of_lt' hsize]
    omega
  simp only [Whole.ofUInt64, hval]

theorem eq_of_uint64 {n : UInt64} (h : uint64.ofValue v = .ok n) : v = .ofUInt64 n := by
  cases v with
  | number number =>
    obtain ⟨w, rfl, ⟨hlow, -⟩, rfl⟩ := pickBelow_eq_ok h
    rw [Value.ofUInt64, ← Whole.eq_ofUInt64 hlow]
  | _ => cases h

theorem Value.toUInt64?_eq_some_iff {n : UInt64} : v.toUInt64? = some n ↔ v = .ofUInt64 n := by
  constructor
  · intro h
    cases v with
    | number number =>
      cases number with
      | whole w =>
        rw [Value.toUInt64?] at h
        split_ifs at h with hlow
        cases h
        rw [Value.ofUInt64, ← Whole.eq_ofUInt64 hlow]
      | float x => cases h
    | _ => cases h
  · rintro rfl
    have hlow : 0 ≤ (Whole.ofUInt64 n).val := Int.natCast_nonneg _
    rw [Value.ofUInt64, Value.toUInt64?, if_pos hlow]
    simp [Whole.ofUInt64]

/-! ## Records -/

namespace Record

variable {r : Record σ α}

/-- The fields of a record are read alike from texts and from values. -/
def FieldsConsistent (r : Record σ α) : Prop := ∀ f ∈ r.fields, f.decoder.Consistent

theorem everyMember_readField {room : Nat} {name : String} {out out' : List (String × Value)} {cs rest : List Char}
    (h : everyMember.readField room name out cs = .ok (out', rest)) :
    ∃ behind v, readColon cs = .ok behind ∧ readValue room behind = .ok (v, rest) ∧ out' = (name, v) :: out := by
  rw [readField] at h
  dsimp only [everyMember, List.find?_nil] at h
  split at h
  · cases h
  · rename_i behind hcolon
    obtain ⟨⟨v, left⟩, hread, hpair⟩ := ok_of_map h
    cases hpair
    exact ⟨behind, v, hcolon, hread, rfl⟩

/-- A member of a text does to the draft what it does as a member of a value. -/
theorem readField_eq_ok (hr : r.FieldsConsistent) {room : Nat} {name : String} {s s' : σ} {cs behind rest rest' : List Char}
    (h : r.readField room name s cs = .ok (s', rest)) (hcolon : readColon cs = .ok behind)
    (hv : readValue room behind = .ok (v, rest')) : r.addMember s (name, v) = .ok s' ∧ rest' = rest := by
  rw [readField] at h
  rw [addMember]
  dsimp only
  cases hfind : r.fields.find? (·.name == name) with
  | some f =>
    rw [hfind, hcolon] at h
    dsimp only at h ⊢
    split_ifs at h ⊢
    obtain ⟨⟨g, left⟩, hread, hpair⟩ := ok_of_map h
    cases hpair
    obtain ⟨hvalue, hrest⟩ := hr f (List.mem_of_find?_eq_some hfind) hread hv
    rw [hvalue]
    exact ⟨rfl, hrest⟩
  | none =>
    rw [hfind, hcolon] at h
    dsimp only at h ⊢
    cases hothers : r.others with
    | refused =>
      rw [hothers] at h
      cases h
    | ignored =>
      rw [hothers] at h
      obtain ⟨left, hskip, hpair⟩ := ok_of_map h
      cases hpair
      -- the value can be read, so it is passed over up to its end
      have hsame := (readValue_skips hv).symm.trans hskip
      cases hsame
      exact ⟨rfl, rfl⟩
    | kept keep =>
      rw [hothers] at h
      dsimp only at h
      rw [hv] at h
      cases h
      exact ⟨rfl, rfl⟩

theorem ofText_curly {room : Nat} {cs tail : List Char} (hskip : skipSpace cs = '\x7b' :: tail) :
    r.ofText (room + 1) cs = match readMembers (r.readField room) tail true r.empty tail with
      | .error e => .error e
      | .ok (s, rest) => ((r.finish s).mapError fun f => mismatchAt (.missingField f) rest).map (·, rest) := by
  rw [ofText, hskip]
  rfl

/-- A record is read from a text as it is read from the members of the text. -/
theorem ofMembers_of_ofText (hr : r.FieldsConsistent) {room : Nat} {cs rest rest' : List Char} {a : α}
    {members : List (String × Value)} (h : r.ofText room cs = .ok (a, rest))
    (hmembers : everyMember.ofText room cs = .ok (members, rest')) : r.ofMembers members = .ok a := by
  obtain ⟨tail, hskip⟩ := curly_of_object (readValue_eq_object_iff.mpr ⟨members, hmembers, rfl⟩)
  cases room with
  | zero =>
    rw [ofText, hskip] at h
    cases h
  | succ room =>
    rw [ofText_curly hskip] at h hmembers
    split at h
    · cases h
    rename_i s left hread
    split at hmembers
    · cases hmembers
    rename_i out left' hread'
    cases hmembers
    -- what the draft has read is what it reads of the members so far
    let Holds (s : σ) (out : List (String × Value)) : Prop := out.reverse.foldlM r.addMember r.empty = .ok s
    have hone : ∀ ⦃name s out cs s' out' rest rest'⦄, Holds s out → r.readField room name s cs = .ok (s', rest) →
        everyMember.readField room name out cs = .ok (out', rest') → Holds s' out' ∧ rest' = rest := by
      intro name s out cs s' out' rest rest' hs hfield hmember
      obtain ⟨behind, v, hcolon, hv, rfl⟩ := everyMember_readField hmember
      obtain ⟨hadd, hrest⟩ := readField_eq_ok hr hfield hcolon hv
      refine ⟨?_, hrest⟩
      show (List.reverse _).foldlM _ _ = _
      rw [List.reverse_cons]
      exact foldlM_concat_eq_ok.mpr ⟨s, hs, hadd⟩
    obtain ⟨hall, -⟩ := readMembers_alongside hone (show Holds r.empty [] from rfl) hread hread'
    have hfold : out.reverse.foldlM r.addMember r.empty = .ok s := hall
    rw [ofMembers, hfold]
    dsimp only
    obtain ⟨a', hfinish, hpair⟩ := ok_of_map h
    cases hpair
    cases hdone : r.finish s with
    | error f =>
      rw [hdone] at hfinish
      cases hfinish
    | ok a' =>
      rw [hdone] at hfinish
      cases hfinish
      rfl

end Record

/-- A text that is read as a record, and of which all members can be read, is the record that its members are. -/
theorem Record.ofMembers_membersOf {r : Record σ α} (hr : r.FieldsConsistent) {a : α} {members : List (String × Value)}
    (h : r.decoder.parse text = .ok a) (hmembers : membersOf text = .ok members) : r.ofMembers members = .ok a := by
  obtain ⟨rest, hread, -⟩ := Decoder.parse_eq_ok_iff.mp h
  obtain ⟨rest', hread', -⟩ := Decoder.parse_eq_ok_iff.mp hmembers
  have hrecord : r.ofText nestingLimit text.toList = .ok (a, rest) := hread
  exact ofMembers_of_ofText hr hrecord hread'

end ShellHost.Json
