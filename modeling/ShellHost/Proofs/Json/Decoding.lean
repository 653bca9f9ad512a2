import ShellHost.Json.Record
import ShellHost.Proofs.Json.Nesting

/-!
# Decoding printed values

Two facts about a decoder and a value, in the form in which they go through all the ways to build decoders.
`Decoder.Reads` says that the printed value is decoded as something known, and `Decoder.Ends` that it is decoded as a
whole or not at all. From the first follows that parsing gives back what was printed (`Decoder.Reads.parse`), from the
second that parsing refuses what is too deep (`Decoder.Ends.refuses`).
-/

namespace ShellHost.Json

variable {α β σ : Type}

/-- The decoder reads the text of `v`, if it is not too deep, as `a`. -/
def Decoder.Reads (d : Decoder α) (v : Value) (a : α) : Prop :=
  ∀ room rest, v.depth ≤ room → Delimited rest → d.ofText room (v.chars ++ rest) = .ok (a, rest)

/-- The decoder reads the text of `v` to its end, or not at all; and it does not if `v` is too deep. -/
def Decoder.Ends (d : Decoder α) (v : Value) : Prop :=
  ∀ room rest, Delimited rest → EndsAt rest (fun _ => v.depth ≤ room) (d.ofText room (v.chars ++ rest))

theorem delimited_nil : Delimited [] := by
  intro c hc
  cases hc

theorem Decoder.Reads.parse {d : Decoder α} {v : Value} {a : α} (h : d.Reads v a) (hdepth : v.depth ≤ nestingLimit) :
    d.parse v.render = .ok a := by
  have hread := h nestingLimit [] hdepth delimited_nil
  rw [List.append_nil] at hread
  rw [Decoder.parse, toList_render, hread]
  rfl

theorem Decoder.Ends.refuses {d : Decoder α} {v : Value} (h : d.Ends v) (hdepth : nestingLimit < v.depth) :
    ∃ e, d.parse v.render = .error e := by
  have hends := h nestingLimit [] delimited_nil
  rw [List.append_nil] at hends
  rw [Decoder.parse, toList_render]
  cases hread : d.ofText nestingLimit v.chars with
  | error f => exact ⟨_, rfl⟩
  | ok x =>
    have hfit := (hends x.1 x.2 hread).2
    omega

/-! ## Plain values -/

theorem reads_value {v : Value} (hfree : v.FloatFree) (hsorted : v.Sorted) : value.Reads v v := by
  intro room rest hdepth h
  have hread := readValue_chars hfree hdepth h
  rwa [sort_of_sorted hsorted] at hread

theorem ends_value (v : Value) : value.Ends v :=
  fun room _ h => readValue_ends v room h

theorem text_string (expected : String) (room : Nat) (s : String) (rest : List Char) :
    (text expected).ofText room ((Value.string s).chars ++ rest) = .ok (s, rest) := by
  have hread := readChars_string s rest
  have htext : (text expected).ofText room ((Value.string s).chars ++ rest)
      = readChars [] ((stringChars s).tail ++ rest) := rfl
  rw [htext, hread]

theorem reads_text (expected s : String) : (text expected).Reads (.string s) s :=
  fun room rest _ _ => text_string expected room s rest

/-- What the first character of a text tells about the value. -/
structure Heads (c : Char) (v : Value) : Prop where
  /-- It is no blank. -/
  noSpace : isSpace c = false
  /-- A quote begins strings only. -/
  string : c = '"' → ∃ s, v = .string s
  /-- Digits and signs begin numbers only. -/
  number : startsNumber c = true → ∃ n, v = .number n
  /-- A bracket begins arrays only. -/
  array : c = '[' → ∃ items, v = .array items
  /-- A brace begins objects only. -/
  object : c = '\x7b' → ∃ members, v = .object members

theorem chars_heads (v : Value) : ∃ c cs, v.chars = c :: cs ∧ Heads c v := by
  cases v with
  | null => exact ⟨'n', _, rfl, rfl, by simp, fun h => absurd h (by decide), by simp, by simp⟩
  | bool b => cases b <;> exact ⟨_, _, rfl, rfl, by simp, fun h => absurd h (by decide), by simp, by simp⟩
  | number n =>
    obtain ⟨c, cs, heq, hstart⟩ := n.digits_text.starts
    obtain ⟨_, _, heq', hspace, -⟩ := begins_of_startsNumber hstart cs
    rw [← (List.cons.inj heq').1] at hspace
    exact ⟨c, cs, heq, hspace, fun h => absurd h (startsNumber_ne hstart rfl), fun _ => ⟨n, rfl⟩,
      fun h => absurd h (startsNumber_ne hstart rfl), fun h => absurd h (startsNumber_ne hstart rfl)⟩
  | string s => exact ⟨'"', _, rfl, rfl, fun _ => ⟨s, rfl⟩, fun h => absurd h (by decide), by simp, by simp⟩
  | array items => exact ⟨'[', _, rfl, rfl, by simp, fun h => absurd h (by decide), fun _ => ⟨items, rfl⟩, by simp⟩
  | object members =>
    exact ⟨'\x7b', _, rfl, rfl, by simp, fun h => absurd h (by decide), by simp, fun _ => ⟨members, rfl⟩⟩

theorem skipSpace_cons {c : Char} (h : isSpace c = false) (cs : List Char) : skipSpace (c :: cs) = c :: cs := by
  rw [skipSpace, List.dropWhile_cons_of_neg (by simp [h])]

theorem ends_text (expected : String) (v : Value) : (text expected).Ends v := by
  intro room rest h
  obtain ⟨c, cs, heq, hc⟩ := chars_heads v
  by_cases hquote : c = '"'
  · obtain ⟨s, rfl⟩ := hc.string hquote
    rw [text_string]
    exact EndsAt.ok (Nat.zero_le room)
  · rw [heq, List.cons_append]
    simp only [text, skipSpace_cons hc.noSpace]
    split
    · rename_i hcons
      exact absurd (List.cons.inj hcons).1 hquote
    · exact EndsAt.error _

theorem number_digits (expected : String) (pick : Number → Except Mismatch α) (room : Nat) (n : Number)
    (rest : List Char) :
    (number expected pick).ofText room ((Value.number n).chars ++ rest)
      = match readNumber (n.digits ++ rest) with
        | .error f => .error f
        | .ok (n, rest) => ((pick n).mapError (mismatchAt · rest)).map (·, rest) := by
  obtain ⟨c, cs, heq, hc⟩ := chars_heads (.number n)
  obtain ⟨c', cs', heq', hstart⟩ := n.digits_text.starts
  rw [Value.chars] at heq ⊢
  rw [heq] at heq' ⊢
  obtain ⟨rfl, rfl⟩ := List.cons.inj heq'
  cases hread : readNumber (c :: (cs ++ rest)) with
  | error f => simp only [number, List.cons_append, skipSpace_cons hc.noSpace, if_pos hstart, hread]
  | ok x => simp only [number, List.cons_append, skipSpace_cons hc.noSpace, if_pos hstart, hread]

theorem pickBelow_of_lt {bound n : Nat} {w : Whole} (hval : w.val = n) (h : n < bound) (expected : String)
    (make : Nat → α) : pickBelow bound expected make (.whole w) = .ok (make n) := by
  have hrange : 0 ≤ w.val ∧ w.val < bound := by omega
  rw [pickBelow, if_pos hrange, hval, Int.toNat_natCast]

theorem reads_uint64 (n : UInt64) : uint64.Reads (.ofUInt64 n) n := by
  intro room rest _ h
  have hread := readNumber_whole (.ofUInt64 n) h
  have hpick : pickBelow UInt64.size "u64" Nat.toUInt64 (.whole (.ofUInt64 n)) = .ok n := by
    rw [pickBelow_of_lt rfl n.toNat_lt]
    simp
  rw [Value.ofUInt64, uint64, number_digits, Number.digits, hread]
  dsimp only
  rw [hpick]
  rfl

theorem ends_uint64 (v : Value) : uint64.Ends v := by
  intro room rest h
  obtain ⟨c, cs, heq, hc⟩ := chars_heads v
  by_cases hstart : startsNumber c = true
  · obtain ⟨n, rfl⟩ := hc.number hstart
    rw [uint64, number_digits]
    split
    · exact EndsAt.error _
    · rename_i m tail hread
      obtain rfl := readNumber_digits_rest h hread
      intro a rest' hok
      cases hpick : pickBelow UInt64.size "u64" Nat.toUInt64 m with
      | error e =>
        rw [hpick] at hok
        cases hok
      | ok b =>
        rw [hpick] at hok
        cases hok
        exact ⟨rfl, Nat.zero_le room⟩
  · rw [heq, List.cons_append]
    simp only [uint64, number, skipSpace_cons hc.noSpace, if_neg hstart]
    exact EndsAt.error _

theorem Decoder.Reads.map {d : Decoder α} {v : Value} {a : α} (h : d.Reads v a) (f : α → β) :
    (d.map f).Reads v (f a) := by
  intro room rest hdepth hrest
  simp only [Decoder.map, h room rest hdepth hrest]
  rfl

theorem Decoder.Ends.map {d : Decoder α} {v : Value} (h : d.Ends v) (f : α → β) : (d.map f).Ends v :=
  fun room rest hrest => (h room rest hrest).map f fun _ hdepth => hdepth

/-! ## Enumerations -/

theorem findVariant_mem {variants : List (Variant α)} {name : String} {x : Variant α}
    (h : findVariant variants name = .ok x) : x ∈ variants := by
  unfold findVariant at h
  split at h
  · cases h
    exact List.mem_of_find?_eq_some ‹_›
  · cases h

theorem readVariant_string (variants : List (Variant α)) (name : String) (rest : List Char) :
    readVariant variants (stringChars name ++ rest)
      = ((findVariant variants name).mapError (mismatchAt · rest)).map (·, rest) := by
  have htext := text_string "variant identifier" 0 name rest
  rw [Value.chars] at htext
  rw [readVariant, htext]

theorem enumeration_curly (variants : List (Variant α)) (room : Nat) (cs : List Char) :
    (enumeration variants).ofText (room + 1) ('\x7b' :: cs)
      = match readVariantKey variants cs with
        | .error f => .error f
        | .ok (v, rest) =>
          match readColon rest with
          | .error f => .error f
          | .ok rest =>
            match v.payload.ofText room rest with
            | .error f => .error f
            | .ok (a, rest) =>
              match skipSpace rest with
              | '\x7d' :: rest => .ok (a, rest)
              | [] => .error (.behind .endOfObject [])
              | rest => .error (.behind .expectedValue rest) := rfl

theorem enumeration_member (variants : List (Variant α)) (room : Nat) (m : String × Value)
    (members : List (String × Value)) (rest : List Char) :
    (enumeration variants).ofText (room + 1) ((Value.object (m :: members)).chars ++ rest)
      = match findVariant variants m.1 with
        | .error e => .error (mismatchAt e (':' :: (m.2.chars ++ membersText false members rest)))
        | .ok x =>
          match x.payload.ofText room (m.2.chars ++ membersText false members rest) with
          | .error f => .error f
          | .ok (a, rest) =>
            match skipSpace rest with
            | '\x7d' :: rest => .ok (a, rest)
            | [] => .error (.behind .endOfObject [])
            | rest => .error (.behind .expectedValue rest) := by
  have hkey : readVariantKey variants (membersText true (m :: members) rest)
      = ((findVariant variants m.1).mapError
          (mismatchAt · (':' :: (m.2.chars ++ membersText false members rest)))).map
          (·, ':' :: (m.2.chars ++ membersText false members rest)) := by
    rw [membersText_cons, if_pos rfl, ← readVariant_string]
    rfl
  rw [chars_object_append, enumeration_curly, hkey]
  cases findVariant variants m.1 with
  | error e => rfl
  | ok x => rfl

theorem reads_newtype {variants : List (Variant α)} {name : String} {d : Decoder α} {v : Value} {a : α}
    (hfind : findVariant variants name = .ok (.newtype name d)) (h : d.Reads v a) :
    (enumeration variants).Reads (.object [(name, v)]) a := by
  intro room rest hdepth hrest
  cases room with
  | zero => cases hdepth
  | succ room =>
    rw [depth_object_le] at hdepth
    have hread := h room (membersText false [] rest) (hdepth (name, v) List.mem_cons_self)
      (membersText_delimited [] rest)
    rw [enumeration_member, hfind]
    simp only [Variant.payload, hread]
    rfl

theorem enumeration_quote (variants : List (Variant α)) (room : Nat) (cs : List Char) :
    (enumeration variants).ofText room ('"' :: cs)
      = match readVariant variants ('"' :: cs) with
        | .error f => .error f
        | .ok (v, rest) => (v.bare.mapError (Fault.unplaced · rest)).map (·, rest) := rfl

theorem enumeration_string (variants : List (Variant α)) (room : Nat) (name : String) (rest : List Char) :
    (enumeration variants).ofText room ((Value.string name).chars ++ rest)
      = match findVariant variants name with
        | .error e => .error (mismatchAt e rest)
        | .ok x => (x.bare.mapError (Fault.unplaced · rest)).map (·, rest) := by
  have hname := readVariant_string variants name rest
  have hchars : stringChars name ++ rest = '"' :: ((stringChars name).tail ++ rest) := rfl
  rw [hchars] at hname
  rw [Value.chars, hchars, enumeration_quote, hname]
  cases findVariant variants name with
  | error e => rfl
  | ok x => rfl

theorem EndsAt.found {ε : Type} {p : α → Prop} {f : ε → Fault} {r : Except ε α} {rest : List Char}
    (h : ∀ a, r = .ok a → p a) : EndsAt rest p ((r.mapError f).map (·, rest)) := by
  cases r with
  | error e => exact EndsAt.error _
  | ok a => exact EndsAt.ok (h a rfl)

/-- An enumeration ends where its object ends if its variants read their values to the end. -/
theorem ends_enumeration {variants : List (Variant α)} (h : ∀ x ∈ variants, ∀ v, x.payload.Ends v) (v : Value) :
    (enumeration variants).Ends v := by
  intro room rest hrest
  obtain ⟨c, cs, heq, hc⟩ := chars_heads v
  by_cases hquote : c = '"'
  · obtain ⟨name, rfl⟩ := hc.string hquote
    rw [enumeration_string]
    split
    · exact EndsAt.error _
    · exact EndsAt.found fun _ _ => Nat.zero_le room
  by_cases hbrace : c = '\x7b'
  · obtain ⟨members, rfl⟩ := hc.object hbrace
    cases room with
    | zero =>
      rw [chars_object_append]
      exact EndsAt.error _
    | succ room =>
      cases members with
      | nil =>
        rw [chars_object_append]
        exact EndsAt.error _
      | cons m members =>
        rw [enumeration_member]
        split
        · exact EndsAt.error _
        rename_i x hx
        have hpayload := h x (findVariant_mem hx) m.2 room _ (membersText_delimited members rest)
        split
        · exact EndsAt.error _
        rename_i a tail hread
        obtain ⟨rfl, hdepth⟩ := hpayload a tail hread
        -- a second member stands behind a comma, which is no closing brace
        cases members with
        | nil => exact EndsAt.ok (depth_object_le.mpr (by simpa using hdepth))
        | cons n members => exact EndsAt.error _
  · rw [heq, List.cons_append]
    simp only [enumeration, skipSpace_cons hc.noSpace, if_neg hbrace, if_neg hquote]
    exact EndsAt.error _

/-! ## Records -/

namespace Record

theorem readField_field (r : Record σ α) {f : RecordField σ} {m : String × Value}
    (hfind : r.fields.find? (·.name == m.1) = some f) {s : σ} (hempty : f.filled s = false) (room : Nat)
    (rest : List Char) :
    r.readField room m.1 s (':' :: (m.2.chars ++ rest))
      = (f.decoder.ofText room (m.2.chars ++ rest)).map fun (g, rest) => (g s, rest) := by
  rw [readField, hfind]
  dsimp only
  rw [hempty, readColon_value]
  rfl

theorem readField_ignored (r : Record σ α) {m : String × Value} (hfind : r.fields.find? (·.name == m.1) = none)
    (hothers : r.others = .ignored) (s : σ) (room : Nat) (rest : List Char) :
    r.readField room m.1 s (':' :: (m.2.chars ++ rest)) = (skipValue (m.2.chars ++ rest)).map (s, ·) := by
  rw [readField, hfind, hothers]
  dsimp only
  rw [readColon_value]

theorem reads_field {d : Decoder β} {v : Value} {b : β} (h : d.Reads v b) {name : String} {get : σ → Option β}
    {set : β → σ → σ} : (field name get set d).decoder.Reads v (set b) :=
  h.map set

/-- Members that fill the fields of a record, each a field that is still empty. -/
inductive Fits (r : Record σ α) : σ → List (String × Value) → σ → Prop where
  /-- No member. -/
  | nil (s : σ) : Fits r s [] s
  /-- A field that the first member fills, and the others. -/
  | cons {s s' : σ} {m : String × Value} {members : List (String × Value)} {f : RecordField σ} {g : σ → σ}
    (hfind : r.fields.find? (·.name == m.1) = some f) (hempty : f.filled s = false) (hread : f.decoder.Reads m.2 g)
    (hmembers : Fits r (g s) members s') : Fits r s (m :: members) s'

theorem Fits.fills {r : Record σ α} {s s' : σ} {members : List (String × Value)} (h : r.Fits s members s')
    {room : Nat} (hdepth : ∀ m ∈ members, m.2.depth ≤ room) : Fills (r.readField room) s members s' := by
  induction h with
  | nil s => exact .nil s
  | @cons s s' m members f g hfind hempty hread hmembers ih =>
    have hfirst : ∀ rest, Delimited rest →
        r.readField room m.1 s (':' :: (m.2.chars ++ rest)) = .ok (g s, rest) := by
      intro rest hrest
      have hfield := hread room rest (hdepth m List.mem_cons_self) hrest
      rw [readField_field r hfind hempty, hfield]
      rfl
    exact .cons hfirst (ih fun n hn => hdepth n (List.mem_cons_of_mem _ hn))

theorem ofText_object (r : Record σ α) (room : Nat) (members : List (String × Value)) (rest : List Char) :
    r.ofText (room + 1) ((Value.object members).chars ++ rest)
      = match readMembers (r.readField room) (membersText true members rest) true r.empty
          (membersText true members rest) with
        | .error f => .error f
        | .ok (s, rest) => ((r.finish s).mapError fun f => mismatchAt (.missingField f) rest).map (·, rest) := by
  rw [chars_object_append]
  rfl

/-- A record is read from members that fill its fields. -/
theorem reads_object {r : Record σ α} {s : σ} {members : List (String × Value)} {a : α}
    (h : r.Fits r.empty members s) (hfinish : r.finish s = .ok a) : r.decoder.Reads (.object members) a := by
  intro room rest hdepth hrest
  cases room with
  | zero => cases hdepth
  | succ room =>
    rw [depth_object_le] at hdepth
    have hread := readMembers_fills (h.fills hdepth) (members_clock members rest) true rest
    rw [decoder]
    dsimp only
    rw [ofText_object, hread]
    dsimp only
    rw [hfinish]
    rfl

/-- What holds of the draft of a record at first, and after each member, holds when the record is finished; and the
record ends where its object ends. -/
theorem object_ends {r : Record σ α} {p : σ → Prop} {room : Nat} {q : String × Value → Prop}
    {members : List (String × Value)} (hempty : p r.empty)
    (h : ∀ m ∈ members, ∀ s, p s → ∀ rest, Delimited rest →
      EndsAt rest (fun s' => p s' ∧ q m) (r.readField room m.1 s (':' :: (m.2.chars ++ rest))))
    (rest : List Char) :
    EndsAt rest (fun a => (∃ s, p s ∧ r.finish s = .ok a) ∧ ∀ m ∈ members, q m)
      (r.ofText (room + 1) ((Value.object members).chars ++ rest)) := by
  have hread := readMembers_ends (r.readField room) p q h (membersText true members rest) true r.empty hempty rest
  rw [ofText_object]
  split
  · exact EndsAt.error _
  · rename_i s tail hs
    obtain ⟨rfl, hp, hq⟩ := hread s tail hs
    exact EndsAt.found fun a ha => ⟨⟨s, hp, ha⟩, hq⟩

/-- A field whose place in the draft `p` says nothing about. -/
theorem field_ends (r : Record σ α) (p : σ → Prop) {m : String × Value} {name : String} {get : σ → Option β}
    {set : β → σ → σ} {d : Decoder β} (hfind : r.fields.find? (·.name == m.1) = some (field name get set d))
    (hd : d.Ends m.2) (hset : ∀ b s, p s → p (set b s)) (room : Nat) {s : σ} (hs : p s) {rest : List Char}
    (h : Delimited rest) :
    EndsAt rest (fun s' => p s' ∧ m.2.depth ≤ room) (r.readField room m.1 s (':' :: (m.2.chars ++ rest))) := by
  cases hfilled : (field name get set d).filled s with
  | true =>
    rw [readField, hfind]
    dsimp only
    rw [hfilled]
    exact EndsAt.error _
  | false =>
    have hread : r.readField room m.1 s (':' :: (m.2.chars ++ rest))
        = (d.ofText room (m.2.chars ++ rest)).map fun x => (set x.1 s, x.2) := by
      rw [readField_field r hfind hfilled, field]
      dsimp only [Decoder.map]
      cases d.ofText room (m.2.chars ++ rest) <;> rfl
    rw [hread]
    exact (hd room rest h).map (set · s) fun b hdepth => ⟨hset b s hs, hdepth⟩

theorem ignored_ends (r : Record σ α) (p : σ → Prop) {m : String × Value}
    (hfind : r.fields.find? (·.name == m.1) = none) (hothers : r.others = .ignored) (room : Nat) {s : σ} (hs : p s)
    {rest : List Char} (h : skipValue (m.2.chars ++ rest) = .ok rest) :
    EndsAt rest p (r.readField room m.1 s (':' :: (m.2.chars ++ rest))) := by
  rw [readField_ignored r hfind hothers, h]
  exact EndsAt.ok hs

/-- An object that leaves the draft unfinished is refused. -/
theorem refuses_object (r : Record σ α) (p : σ → Prop) {members : List (String × Value)} (hempty : p r.empty)
    (h : ∀ m ∈ members, ∀ s, p s → ∀ rest, Delimited rest →
      EndsAt rest p (r.readField 126 m.1 s (':' :: (m.2.chars ++ rest))))
    (hfinish : ∀ s a, p s → r.finish s ≠ .ok a) : ∃ e, r.decoder.parse (Value.object members).render = .error e := by
  have hmembers : ∀ m ∈ members, ∀ s, p s → ∀ rest, Delimited rest →
      EndsAt rest (fun s' => p s' ∧ True) (r.readField 126 m.1 s (':' :: (m.2.chars ++ rest))) :=
    fun m hm s hs rest hrest => (h m hm s hs rest hrest).imp fun _ hp => ⟨hp, trivial⟩
  have hends := object_ends hempty hmembers []
  rw [List.append_nil] at hends
  have hroom : r.decoder.ofText nestingLimit (Value.object members).chars
      = r.ofText (126 + 1) (Value.object members).chars := rfl
  rw [Decoder.parse, toList_render, hroom]
  cases hread : r.ofText (126 + 1) (Value.object members).chars with
  | error f => exact ⟨_, rfl⟩
  | ok x =>
    obtain ⟨-, ⟨s, hs, ha⟩, -⟩ := hends x.1 x.2 hread
    exact absurd ha (hfinish s x.1 hs)

/-- A record whose members are all fields ends where its object ends. -/
theorem ends_object {r : Record σ α} {members : List (String × Value)}
    (h : ∀ m ∈ members, ∃ (β : Type) (name : String) (get : σ → Option β) (set : β → σ → σ) (d : Decoder β),
      r.fields.find? (·.name == m.1) = some (field name get set d) ∧ d.Ends m.2) :
    r.decoder.Ends (.object members) := by
  intro room rest hrest
  cases room with
  | zero =>
    rw [chars_object_append]
    exact EndsAt.error _
  | succ room =>
    have hmembers : ∀ m ∈ members, ∀ s, True → ∀ rest, Delimited rest →
        EndsAt rest (fun _ => True ∧ m.2.depth ≤ room) (r.readField room m.1 s (':' :: (m.2.chars ++ rest))) := by
      intro m hm s hs rest hrest
      obtain ⟨β, name, get, set, d, hfind, hd⟩ := h m hm
      exact r.field_ends (fun _ => True) hfind hd (fun _ _ _ => trivial) room hs hrest
    have hends := object_ends trivial hmembers rest
    intro a rest' hread
    obtain ⟨heq, -, hdepth⟩ := hends a rest' hread
    exact ⟨heq, depth_object_le.mpr hdepth⟩

end Record

/-! ## Tagged enumerations -/

namespace Tagged

theorem readMember_tag (t : Tagged σ α) (room : Nat) (v : Value) (members : List (String × Value))
    (rest : List Char) :
    t.readMember room t.tag (none, members) (':' :: (v.chars ++ rest))
      = (t.readTag (v.chars ++ rest)).map fun (r, rest) => ((some r, members), rest) := by
  rw [readMember, if_pos rfl]
  rfl

theorem readMember_other (t : Tagged σ α) (room : Nat) {m : String × Value} (hne : m.1 ≠ t.tag) (p : Parts σ α)
    (rest : List Char) :
    t.readMember room m.1 p (':' :: (m.2.chars ++ rest))
      = (readValue room (m.2.chars ++ rest)).map fun (v, rest) => ((p.1, (m.1, v) :: p.2), rest) := by
  rw [readMember, if_neg hne, readColon_value]

theorem readTag_string (t : Tagged σ α) {name : String} {r : Record σ α}
    (hfind : findVariant t.names name = .ok (.unit name r)) (rest : List Char) :
    t.readTag ((Value.string name).chars ++ rest) = .ok (r, rest) := by
  have hvariant := readVariant_string t.names name rest
  rw [hfind] at hvariant
  rw [readTag, Value.chars, hvariant]
  rfl

/-- Members behind the tag are kept as they are. -/
theorem fills_others (t : Tagged σ α) {room : Nat} {members : List (String × Value)}
    (h : ∀ m ∈ members, m.1 ≠ t.tag ∧ m.2.FloatFree ∧ m.2.Sorted) (hdepth : ∀ m ∈ members, m.2.depth ≤ room)
    (r : Option (Record σ α)) (before : List (String × Value)) :
    Fills (t.readMember room) (r, before) members (r, members.reverse ++ before) := by
  induction members generalizing before with
  | nil => exact .nil (r, before)
  | cons m members ih =>
    obtain ⟨hne, hfree, hsorted⟩ := h m List.mem_cons_self
    have hrest := ih (fun n hn => h n (List.mem_cons_of_mem _ hn)) (fun n hn => hdepth n (List.mem_cons_of_mem _ hn))
      (m :: before)
    rw [List.reverse_cons, List.append_assoc, List.singleton_append]
    refine .cons (fun rest hdelimited => ?_) hrest
    have hread := readValue_chars hfree (hdepth m List.mem_cons_self) hdelimited
    rw [readMember_other t room hne, hread, sort_of_sorted hsorted]
    rfl

theorem ofText_object (t : Tagged σ α) (room : Nat) (members : List (String × Value)) (rest : List Char) :
    t.ofText (room + 1) ((Value.object members).chars ++ rest)
      = match readMembers (t.readMember room) (membersText true members rest) true (none, [])
          (membersText true members rest) with
        | .error f => .error f
        | .ok ((none, _), rest) => .error (mismatchAt (.missingField t.tag) rest)
        | .ok ((some r, members), rest) =>
          ((r.ofMembers members.reverse).mapError (Fault.unplaced · rest)).map (·, rest) := by
  rw [chars_object_append]
  rfl

/-- An object with the tag first is read as the variant that the tag names reads the other members. -/
theorem reads_object {t : Tagged σ α} {name : String} {r : Record σ α} {members : List (String × Value)} {a : α}
    (hfind : findVariant t.names name = .ok (.unit name r))
    (h : ∀ m ∈ members, m.1 ≠ t.tag ∧ m.2.FloatFree ∧ m.2.Sorted) (ha : r.ofMembers members = .ok a) :
    t.decoder.Reads (.object ((t.tag, .string name) :: members)) a := by
  intro room rest hdepth hrest
  cases room with
  | zero => cases hdepth
  | succ room =>
    rw [depth_object_le] at hdepth
    have hothers := t.fills_others h (fun m hm => hdepth m (List.mem_cons_of_mem _ hm)) (some r) []
    rw [List.append_nil] at hothers
    have htag : ∀ rest, Delimited rest →
        t.readMember room t.tag (none, []) (':' :: ((Value.string name).chars ++ rest))
          = .ok ((some r, []), rest) := by
      intro rest _
      rw [readMember_tag, readTag_string t hfind]
      rfl
    have hread := readMembers_fills (.cons htag hothers)
      (members_clock ((t.tag, Value.string name) :: members) rest) true rest
    rw [decoder]
    dsimp only
    rw [ofText_object, hread]
    dsimp only
    rw [List.reverse_reverse, ha]
    rfl

theorem readTag_ends (t : Tagged σ α) (v : Value) (room : Nat) {rest : List Char} (h : Delimited rest) :
    EndsAt rest (fun _ => v.depth ≤ room) (t.readTag (v.chars ++ rest)) := by
  have htext := ends_text "variant identifier" v 0 rest h
  rw [readTag, readVariant]
  cases hread : (text "variant identifier").ofText 0 (v.chars ++ rest) with
  | error f => exact EndsAt.error f
  | ok x =>
    obtain ⟨hrest, hdepth⟩ := htext x.1 x.2 hread
    obtain ⟨name, tail⟩ := x
    obtain rfl : tail = rest := hrest
    dsimp only
    cases findVariant t.names name with
    | error e => exact EndsAt.error _
    | ok variant => exact EndsAt.found fun _ _ => le_trans hdepth (Nat.zero_le room)

theorem readMember_ends (t : Tagged σ α) (room : Nat) (m : String × Value) (p : Parts σ α) {rest : List Char}
    (h : Delimited rest) :
    EndsAt rest (fun _ => True ∧ m.2.depth ≤ room) (t.readMember room m.1 p (':' :: (m.2.chars ++ rest))) := by
  by_cases htag : m.1 = t.tag
  · obtain ⟨r, members⟩ := p
    cases r with
    | some r =>
      rw [readMember, if_pos htag]
      exact EndsAt.error _
    | none =>
      rw [htag, readMember_tag]
      exact (t.readTag_ends m.2 room h).map (fun r => (some r, members)) fun _ hdepth => ⟨trivial, hdepth⟩
  · rw [readMember_other t room htag]
    exact (readValue_ends m.2 room h).map (fun v => (p.1, (m.1, v) :: p.2)) fun _ hdepth => ⟨trivial, hdepth⟩

theorem ofText_square (t : Tagged σ α) (room : Nat) (cs : List Char) :
    t.ofText (room + 1) ('[' :: cs)
      = match nextItem true cs with
        | .error f => .error f
        | .ok (.close rest) => .error (mismatchAt (.missingField t.tag) rest)
        | .ok (.item rest) =>
          match t.readTag rest with
          | .error f => .error f.inArray
          | .ok (r, rest) =>
            match readItems (readValue room) rest false [] rest with
            | .error f => .error f
            | .ok (items, rest) =>
              ((r.ofItems (tooMany r) items).mapError (Fault.unplaced · rest)).map (·, rest) := rfl

theorem ofText_array (t : Tagged σ α) (room : Nat) (v : Value) (items : List Value) (rest : List Char) :
    t.ofText (room + 1) ((Value.array (v :: items)).chars ++ rest)
      = match t.readTag (v.chars ++ itemsText false items rest) with
        | .error f => .error f.inArray
        | .ok (r, rest) =>
          match readItems (readValue room) rest false [] rest with
          | .error f => .error f
          | .ok (items, rest) =>
            ((r.ofItems (tooMany r) items).mapError (Fault.unplaced · rest)).map (·, rest) := by
  have hnext := nextItem_itemsText true v items rest
  rw [chars_array_append, ofText_square, hnext]

theorem object_ends (t : Tagged σ α) (members : List (String × Value)) (room : Nat) {rest : List Char} :
    EndsAt rest (fun _ => (Value.object members).depth ≤ room)
      (t.ofText room ((Value.object members).chars ++ rest)) := by
  cases room with
  | zero =>
    rw [chars_object_append]
    exact EndsAt.error _
  | succ room =>
    have hread := readMembers_ends (t.readMember room) (fun _ => True) (fun m => m.2.depth ≤ room)
      (fun m (_ : m ∈ members) p _ rest hrest => t.readMember_ends room m p hrest) (membersText true members rest)
      true (none, []) trivial rest
    rw [ofText_object]
    split
    · exact EndsAt.error _
    · exact EndsAt.error _
    · rename_i r others tail hparts
      obtain ⟨rfl, -, hdepth⟩ := hread _ tail hparts
      exact EndsAt.found fun _ _ => depth_object_le.mpr hdepth

theorem array_ends (t : Tagged σ α) (items : List Value) (room : Nat) {rest : List Char} :
    EndsAt rest (fun _ => (Value.array items).depth ≤ room) (t.ofText room ((Value.array items).chars ++ rest)) := by
  cases room with
  | zero =>
    rw [chars_array_append]
    exact EndsAt.error _
  | succ room =>
    cases items with
    | nil =>
      rw [chars_array_append]
      exact EndsAt.error _
    | cons v items =>
      have htag := t.readTag_ends v room (itemsText_delimited items rest)
      rw [ofText_array]
      split
      · exact EndsAt.error _
      rename_i r tail hr
      obtain ⟨rfl, hv⟩ := htag r tail hr
      have hread := readItems_ends (readValue room) (fun v => v.depth ≤ room)
        (fun v (_ : v ∈ items) rest hrest => readValue_ends v room hrest) (itemsText false items rest) false [] rest
      split
      · exact EndsAt.error _
      rename_i values tail hitems
      obtain ⟨rfl, hdepth⟩ := hread values tail hitems
      exact EndsAt.found fun _ _ => depth_array_le.mpr (List.forall_mem_cons.mpr ⟨hv, hdepth⟩)

/-- A tagged enumeration reads every value to its end, or not at all. -/
theorem ends (t : Tagged σ α) (v : Value) : t.decoder.Ends v := by
  intro room rest h
  rw [decoder]
  dsimp only
  obtain ⟨c, cs, heq, hc⟩ := chars_heads v
  by_cases hbrace : c = '\x7b'
  · obtain ⟨members, rfl⟩ := hc.object hbrace
    exact t.object_ends members room
  by_cases hbracket : c = '['
  · obtain ⟨items, rfl⟩ := hc.array hbracket
    exact t.array_ends items room
  rw [heq, List.cons_append]
  simp only [ofText, skipSpace_cons hc.noSpace, if_neg hbrace, if_neg hbracket]
  exact EndsAt.error _

end Tagged

end ShellHost.Json
