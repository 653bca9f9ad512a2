import ShellHost.Json.Record
import ShellHost.Proofs.Json.Bounds
import ShellHost.Proofs.Json.Skipping

/-!
# Members under their keys

A key may be repeated in the text of an object. All that is then left of it in the value is its last member
(`lookup_sortMembers`): `membersOf` gives the members as they are written, and the value has them in order
(`parse_eq_object_iff`).

What the readers of members share is the text, so they can be compared turn by turn: `readMembers_map` for one reader
seen through a function, and `readMembers_alongside` for two readers of which one may accept less.
-/

namespace ShellHost.Json

variable {σ τ : Type} {members : List (String × Value)} {text : String}

/-! ## Members one after the other -/

section

variable {ε : Type} {add : σ → String × Value → Except ε σ} {s s₁ s₂ : σ}

theorem foldlM_cons_eq_ok {m : String × Value} {members : List (String × Value)} :
    (m :: members).foldlM add s = .ok s₂ ↔ ∃ s₁, add s m = .ok s₁ ∧ members.foldlM add s₁ = .ok s₂ := by
  rw [List.foldlM_cons]
  cases add s m <;> simp [bind, Except.bind]

theorem foldlM_concat_eq_ok {members : List (String × Value)} {m : String × Value} :
    (members ++ [m]).foldlM add s = .ok s₂ ↔ ∃ s₁, members.foldlM add s = .ok s₁ ∧ add s₁ m = .ok s₂ := by
  rw [List.foldlM_append]
  cases members.foldlM add s with
  | error e => simp [bind, Except.bind]
  | ok s₁ =>
    have hone : [m].foldlM add s₁ = .ok s₂ ↔ add s₁ m = .ok s₂ := by
      rw [foldlM_cons_eq_ok]
      simp [pure, Except.pure]
    simpa [bind, Except.bind] using hone

end

/-- What a member does that is a field: it fills a place that is still empty. -/
theorem Record.addMember_field {α β : Type} {r : Record σ α} {m : String × Value} {name : String} {get : σ → Option β}
    {set : β → σ → σ} {d : Decoder β} (hfind : r.fields.find? (·.name == m.1) = some (field name get set d)) :
    r.addMember s m = .ok s₁ ↔ get s = none ∧ ∃ b, d.ofValue m.2 = .ok b ∧ s₁ = set b s := by
  rw [addMember, hfind]
  dsimp only [field, Decoder.map]
  split_ifs with hfilled
  · simp [Option.isSome_iff_ne_none.mp hfilled]
  · rw [Bool.not_eq_true, Option.isSome_eq_false_iff, Option.isNone_iff_eq_none] at hfilled
    cases d.ofValue m.2 <;> simp [Except.map, hfilled, eq_comm]

/-! ## Lookups -/

theorem lookup_cons (m : String × Value) (members : List (String × Value)) (key : String) :
    (m :: members).lookup key = if key = m.1 then some m.2 else members.lookup key := by
  rw [List.lookup_cons]
  by_cases hkey : key = m.1
  · rw [if_pos hkey, beq_iff_eq.mpr hkey]
  · rw [if_neg hkey, beq_eq_false_iff_ne.mpr hkey]

theorem lookup_insertDescending (key : String) (v : Value) (members : List (String × Value)) (key' : String) :
    (insertDescending key v members).lookup key' = if key' = key then some v else members.lookup key' := by
  induction members with
  | nil => exact lookup_cons _ _ _
  | cons m rest ih =>
    rw [insertDescending]
    by_cases hlt : m.1 < key
    · rw [if_pos hlt, lookup_cons]
    rw [if_neg hlt]
    by_cases heq : m.1 = key
    · rw [if_pos heq, lookup_cons, lookup_cons, heq]
      split_ifs <;> rfl
    rw [if_neg heq, lookup_cons, lookup_cons, ih]
    by_cases hkey : key' = key
    · have hne : key' ≠ m.1 := fun h => heq (h.symm.trans hkey)
      rw [if_pos hkey, if_pos hkey, if_neg hne]
    · rw [if_neg hkey, if_neg hkey]

theorem descending_foldl {members out : List (String × Value)} (hout : Descending out) :
    Descending (members.foldl (fun out m => insertDescending m.1 m.2 out) out) := by
  induction members generalizing out with
  | nil => exact hout
  | cons m rest ih => exact ih (hout.insert m.1 m.2)

theorem nodup_of_ascending {members : List (String × Value)} (h : (members.map Prod.fst).Pairwise (· < ·)) :
    (members.map Prod.fst).Nodup :=
  h.imp fun {a b} (hlt : a < b) (heq : a = b) => String.lt_irrefl b (heq ▸ hlt)

/-- Where no key is repeated, the order does not matter. -/
theorem lookup_reverse (h : (members.map Prod.fst).Nodup) (key : String) :
    members.reverse.lookup key = members.lookup key := by
  induction members with
  | nil => rfl
  | cons m rest ih =>
    rw [List.map_cons, List.nodup_cons] at h
    obtain ⟨hfresh, hrest⟩ := h
    rw [List.reverse_cons, List.lookup_append, ih hrest, lookup_cons m rest, lookup_cons m []]
    by_cases hkey : key = m.1
    · have hnone : rest.lookup key = none := by
        rw [List.lookup_eq_none_iff]
        intro n hn
        have hne : key ≠ n.1 := fun heq => hfresh (hkey ▸ heq ▸ List.mem_map_of_mem hn)
        simpa using hne
      rw [hnone, if_pos hkey, if_pos hkey, Option.none_or]
    · rw [if_neg hkey, if_neg hkey, List.lookup_nil, Option.or_none]

/-- The last member of a key stays. -/
theorem lookup_foldl (members out : List (String × Value)) (key : String) :
    (members.foldl (fun out m => insertDescending m.1 m.2 out) out).lookup key
      = (members.reverse.lookup key).or (out.lookup key) := by
  induction members generalizing out with
  | nil => rfl
  | cons m rest ih =>
    rw [List.foldl_cons, ih, lookup_insertDescending, List.reverse_cons, List.lookup_append, lookup_cons m []]
    cases rest.reverse.lookup key with
    | some v => rfl
    | none => split_ifs <;> rfl

theorem lookup_sortMembers (members : List (String × Value)) (key : String) :
    (sortMembers members).lookup key = members.reverse.lookup key := by
  have hdescending : Descending (members.foldl (fun out m => insertDescending m.1 m.2 out) []) :=
    descending_foldl List.Pairwise.nil
  have hkeys := nodup_of_ascending hdescending.reverse
  rw [List.map_reverse, List.nodup_reverse] at hkeys
  rw [sortMembers, lookup_reverse hkeys, lookup_foldl, List.lookup_nil, Option.or_none]

/-! ## Readers side by side -/

/-- A reader of members, seen through a function of its state. -/
theorem readMembers_map {member : String → σ → List Char → Reading σ} {member' : String → τ → List Char → Reading τ}
    (g : σ → τ)
    (hmember : ∀ name s cs, member' name (g s) cs = (member name s cs).map fun x => (g x.1, x.2))
    (clock : List Char) (first : Bool) (s : σ) (cs : List Char) :
    readMembers member' clock first (g s) cs = (readMembers member clock first s cs).map fun x => (g x.1, x.2) := by
  induction clock generalizing first s cs with
  | nil => rfl
  | cons _ clock ih =>
    rw [readMembers, readMembers]
    cases nextKey first cs with
    | error f => rfl
    | ok next =>
      cases next with
      | close rest => rfl
      | key name rest =>
        dsimp only
        rw [hmember]
        cases member name s rest with
        | error f => rfl
        | ok x => exact ih false x.1 x.2

/-- Two readers of members on one text. What each member keeps of them holds in the end, if both get that far. -/
theorem readMembers_alongside {member : String → σ → List Char → Reading σ}
    {member' : String → τ → List Char → Reading τ} {R : σ → τ → Prop}
    (hmember : ∀ ⦃name s t cs s' t' rest rest'⦄, R s t → member name s cs = .ok (s', rest) →
      member' name t cs = .ok (t', rest') → R s' t' ∧ rest' = rest)
    {clock : List Char} {first : Bool} {s s' : σ} {t t' : τ} {cs rest rest' : List Char} (h : R s t)
    (hread : readMembers member clock first s cs = .ok (s', rest))
    (hread' : readMembers member' clock first t cs = .ok (t', rest')) : R s' t' ∧ rest' = rest := by
  induction clock generalizing first s t cs with
  | nil => cases hread
  | cons _ clock ih =>
    rw [readMembers] at hread hread'
    cases hnext : nextKey first cs with
    | error f =>
      rw [hnext] at hread
      cases hread
    | ok next =>
      rw [hnext] at hread hread'
      cases next with
      | close behind =>
        cases hread
        cases hread'
        exact ⟨h, rfl⟩
      | key name behind =>
        dsimp only at hread hread'
        split at hread
        · cases hread
        rename_i s₁ left hone
        split at hread'
        · cases hread'
        rename_i t₁ left' hone'
        obtain ⟨h₁, rfl⟩ := hmember h hone hone'
        exact ih h₁ hread hread'

/-! ## The members of a text -/

/-- Members as they are written, each of them kept. -/
def everyMember : Record (List (String × Value)) (List (String × Value)) where
  name := "a map"
  fields := []
  empty := []
  finish out := .ok out.reverse
  others := .kept fun name v out => (name, v) :: out
  fromArray := false

/-- The members of the object that a text is, in the order of the text. -/
def membersOf (text : String) : Except ReadError (List (String × Value)) := everyMember.decoder.parse text

/-- Members in the order of a value, from members that were read, the last one first. -/
def gathered (out : List (String × Value)) : List (String × Value) :=
  out.foldr (fun m out => insertDescending m.1 m.2 out) []

theorem readMember_gathered (room : Nat) (name : String) (out : List (String × Value)) (cs : List Char) :
    readMember (fun cs => readValue room cs) name (gathered out) cs
      = (everyMember.readField room name out cs).map fun x => (gathered x.1, x.2) := by
  rw [readMember, Record.readField]
  dsimp only [everyMember, List.find?_nil]
  cases readColon cs with
  | error f => rfl
  | ok rest =>
    dsimp only
    cases readValue room rest <;> rfl

theorem gathered_reverse (out : List (String × Value)) : (gathered out).reverse = sortMembers out.reverse := by
  rw [sortMembers, List.foldl_reverse]
  rfl

/-- Only what begins with a brace is read as an object. -/
theorem curly_of_object {room : Nat} {cs rest : List Char} (h : readValue room cs = .ok (.object members, rest)) :
    ∃ tail, skipSpace cs = '\x7b' :: tail := by
  rw [readValue] at h
  split at h
  · cases h
  · rename_i c tail hskip
    split_ifs at h with _ _ _ _ _ _ hcurly
    · obtain ⟨_, -, ⟨⟩⟩ := ok_of_map h
    · obtain ⟨_, -, ⟨⟩⟩ := ok_of_map h
    · obtain ⟨_, -, ⟨⟩⟩ := ok_of_map h
    · obtain ⟨_, -, ⟨⟩⟩ := ok_of_map h
    · obtain ⟨_, -, ⟨⟩⟩ := ok_of_map h
    · cases room with
      | zero => cases h
      | succ room => obtain ⟨_, -, ⟨⟩⟩ := ok_of_map h
    · exact ⟨tail, hcurly ▸ hskip⟩

theorem readValue_eq_object_iff {room : Nat} {cs rest : List Char} : readValue room cs = .ok (.object members, rest) ↔
    ∃ written, everyMember.ofText room cs = .ok (written, rest) ∧ members = sortMembers written := by
  by_cases hcurly : ∃ tail, skipSpace cs = '\x7b' :: tail
  · obtain ⟨tail, hskip⟩ := hcurly
    cases room with
    | zero =>
      have hvalue : readValue 0 cs = .error (.next .recursionLimit ('\x7b' :: tail)) := by
        rw [readValue.eq_def, hskip]
        rfl
      have hmembers : everyMember.ofText 0 cs = .error (.next .recursionLimit ('\x7b' :: tail)) := by
        rw [Record.ofText, hskip]
        rfl
      simp [hvalue, hmembers]
    | succ room =>
      have hvalue : readValue (room + 1) cs = (readMembers (readMember fun cs => readValue room cs) tail true
          (gathered []) tail).map fun x => (.object x.1.reverse, x.2) := by
        rw [readValue.eq_def, hskip]
        rfl
      have hmembers : everyMember.ofText (room + 1) cs = (readMembers (everyMember.readField room) tail true [] tail).map
          fun x => (x.1.reverse, x.2) := by
        rw [Record.ofText, hskip]
        dsimp only
        rw [if_pos rfl]
        cases hread : readMembers (everyMember.readField room) tail true [] tail with
        | error f =>
          have hread' : readMembers (everyMember.readField room) tail true everyMember.empty tail = .error f := hread
          simp only [hread']
          rfl
        | ok x =>
          have hread' : readMembers (everyMember.readField room) tail true everyMember.empty tail = .ok x := hread
          simp only [hread']
          rfl
      rw [hvalue, hmembers, readMembers_map gathered (readMember_gathered room)]
      cases readMembers (everyMember.readField room) tail true [] tail with
      | error f => simp [Except.map]
      | ok x => simp [Except.map, gathered_reverse, eq_comm, and_comm]
  · refine iff_of_false (fun h => hcurly (curly_of_object h)) ?_
    rintro ⟨written, h, -⟩
    rw [Record.ofText] at h
    split at h
    · cases h
    · rename_i c tail hskip
      have hother : c ≠ '\x7b' := fun hc => hcurly ⟨tail, hc ▸ hskip⟩
      rw [if_neg hother, if_neg fun hc => Bool.noConfusion hc.2] at h
      cases h

theorem Decoder.parse_eq_ok_iff {α : Type} {d : Decoder α} {a : α} : d.parse text = .ok a ↔
    ∃ rest, d.ofText nestingLimit text.toList = .ok (a, rest) ∧ skipSpace rest = [] := by
  rw [Decoder.parse]
  cases hread : d.ofText nestingLimit text.toList with
  | error f => simp
  | ok x =>
    obtain ⟨b, rest⟩ := x
    cases hskip : skipSpace rest <;> simp [hskip]

/-- A text is an object exactly if its members can be read, and the object has them in order, the last one of each key. -/
theorem parse_eq_object_iff : Value.parse text = .ok (.object members) ↔
    ∃ written, membersOf text = .ok written ∧ members = sortMembers written := by
  rw [Value.parse, membersOf, Decoder.parse_eq_ok_iff]
  constructor
  · rintro ⟨rest, hread, hend⟩
    obtain ⟨written, hwritten, rfl⟩ := readValue_eq_object_iff.mp hread
    exact ⟨written, Decoder.parse_eq_ok_iff.mpr ⟨rest, hwritten, hend⟩, rfl⟩
  · rintro ⟨written, hwritten, rfl⟩
    obtain ⟨rest, hread, hend⟩ := Decoder.parse_eq_ok_iff.mp hwritten
    exact ⟨rest, readValue_eq_object_iff.mpr ⟨written, hread, rfl⟩, hend⟩

end ShellHost.Json
