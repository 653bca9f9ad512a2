import ShellHost.Proofs.Json.Decoding

/-!
# What the reader gives

Whatever text is read, the value that comes out has the members of its objects in order, and nests no deeper than the
reader allows (`readValue_bounded`). The two loops keep what holds of the items and the members so far
(`readItems_forall`, `readMembers_keeps`).
-/

namespace ShellHost.Json

variable {α σ : Type}

/-! ## Members in order -/

/-- What holds of a member and of those that stand there already holds of all when the member is added. -/
theorem insertDescending_forall {P : String × Value → Prop} {key : String} {v : Value}
    {members : List (String × Value)} (hnew : P (key, v)) (h : ∀ m ∈ members, P m) :
    ∀ m ∈ insertDescending key v members, P m := by
  induction members with
  | nil => exact List.forall_mem_singleton.mpr hnew
  | cons n rest ih =>
    obtain ⟨hfirst, hrest⟩ := List.forall_mem_cons.mp h
    rw [insertDescending]
    split_ifs
    · exact List.forall_mem_cons.mpr ⟨hnew, h⟩
    · exact List.forall_mem_cons.mpr ⟨hnew, hrest⟩
    · exact List.forall_mem_cons.mpr ⟨hfirst, ih hrest⟩

/-- The keys of the members descend strictly. -/
def Descending (members : List (String × Value)) : Prop := members.Pairwise fun m n => n.1 < m.1

theorem Descending.insert {members : List (String × Value)} (h : Descending members) (key : String) (v : Value) :
    Descending (insertDescending key v members) := by
  induction members with
  | nil => exact List.pairwise_singleton _ _
  | cons m rest ih =>
    obtain ⟨hfirst, hrest⟩ := List.pairwise_cons.mp h
    rw [insertDescending]
    split_ifs with hlt heq
    · have hall : ∀ n ∈ rest, n.1 < key := fun n hn => String.lt_trans (hfirst n hn) hlt
      exact List.pairwise_cons.mpr ⟨List.forall_mem_cons.mpr ⟨hlt, hall⟩, h⟩
    · subst heq
      exact List.pairwise_cons.mpr ⟨hfirst, hrest⟩
    · have hgt : key < m.1 := by
        by_contra hle
        exact heq (String.le_antisymm (String.not_lt.mp hle) (String.not_lt.mp hlt))
      exact List.pairwise_cons.mpr ⟨insertDescending_forall hgt hfirst, ih hrest⟩

theorem Descending.reverse {members : List (String × Value)} (h : Descending members) :
    (members.reverse.map Prod.fst).Pairwise (· < ·) := by
  rw [List.map_reverse, List.pairwise_reverse, List.pairwise_map]
  exact h

/-! ## The loops -/

/-- Whatever comes out of a reading has the property. -/
def Gives (p : α → Prop) (r : Reading α) : Prop := ∀ a rest, r = .ok (a, rest) → p a

theorem Gives.error {p : α → Prop} (f : Fault) : Gives p (.error f) := by
  intro a rest h
  cases h

theorem Gives.ok {p : α → Prop} {a : α} (h : p a) (rest : List Char) : Gives p (.ok (a, rest)) := by
  intro b rest' heq
  cases heq
  exact h

theorem Gives.map {p : α → Prop} {q : σ → Prop} {r : Reading α} (h : Gives p r) (f : α → σ) (hf : ∀ a, p a → q (f a)) :
    Gives q (r.map fun x => (f x.1, x.2)) := by
  rcases r with e | ⟨a, rest⟩
  · exact .error e
  · exact .ok (hf a (h a rest rfl)) rest

/-- What holds of every item holds of all that the loop gives. -/
theorem readItems_gives {p : α → Prop} {item : List Char → Reading α} (hitem : ∀ cs, Gives p (item cs))
    (clock : List Char) (first : Bool) {out : List α} (hout : ∀ a ∈ out, p a) (cs : List Char) :
    Gives (fun items => ∀ a ∈ items, p a) (readItems item clock first out cs) := by
  induction clock generalizing first out cs with
  | nil => exact .error _
  | cons _ clock ih =>
    rw [readItems]
    split
    · exact .error _
    · exact .ok (fun a ha => hout a (List.mem_reverse.mp ha)) _
    · split
      · exact .error _
      · rename_i a rest hread
        exact ih false (List.forall_mem_cons.mpr ⟨hitem _ _ _ hread, hout⟩) rest

/-- What each member keeps holds after all of them. -/
theorem readMembers_gives {p : σ → Prop} {member : String → σ → List Char → Reading σ}
    (hmember : ∀ name s cs, p s → Gives p (member name s cs)) (clock : List Char) (first : Bool) {s : σ} (hs : p s)
    (cs : List Char) : Gives p (readMembers member clock first s cs) := by
  induction clock generalizing first s cs with
  | nil => exact .error _
  | cons _ clock ih =>
    rw [readMembers]
    split
    · exact .error _
    · exact .ok hs _
    · split
      · exact .error _
      · rename_i s' rest hread
        exact ih false (hmember _ _ _ hs _ _ hread) rest

/-! ## Values -/

/-- A value in order that nests no deeper than `room`. -/
structure Value.Bounded (room : Nat) (v : Value) : Prop where
  sorted : v.Sorted
  depth_le : v.depth ≤ room

theorem Value.Bounded.array {room : Nat} {items : List Value} (h : ∀ v ∈ items, v.Bounded room) :
    (Value.array items).Bounded (room + 1) :=
  ⟨sorted_array.mpr fun v hv => (h v hv).sorted, depth_array_le.mpr fun v hv => (h v hv).depth_le⟩

/-- Members as the reader gathers them: their keys descend, and their values are in order and nest no deeper than
`room`. -/
structure Gathered (room : Nat) (members : List (String × Value)) : Prop where
  keys : Descending members
  values : ∀ m ∈ members, m.2.Bounded room

theorem Value.Bounded.object {room : Nat} {members : List (String × Value)} (h : Gathered room members) :
    (Value.object members.reverse).Bounded (room + 1) :=
  ⟨sorted_object.mpr ⟨h.keys.reverse, fun m hm => (h.values m (List.mem_reverse.mp hm)).sorted⟩,
    depth_object_le.mpr fun m hm => (h.values m (List.mem_reverse.mp hm)).depth_le⟩

theorem readMember_gives {value : List Char → Reading Value} {room : Nat}
    (hvalue : ∀ cs, Gives (Value.Bounded room) (value cs)) (name : String) (out : List (String × Value))
    (cs : List Char) (hout : Gathered room out) : Gives (Gathered room) (readMember value name out cs) := by
  rw [readMember]
  split
  · exact .error _
  · split
    · exact .error _
    · rename_i v rest hread
      exact .ok ⟨hout.keys.insert name v, insertDescending_forall (hvalue _ _ _ hread) hout.values⟩ rest

theorem Gives.word {p : α → Prop} {a : α} (h : p a) (r : Except Fault (List Char)) : Gives p (r.map (a, ·)) := by
  rcases r with e | rest
  · exact .error e
  · exact .ok h rest

/-- The reader gives values in order that nest no deeper than it has room for. -/
theorem readValue_gives (room : Nat) (cs : List Char) : Gives (Value.Bounded room) (readValue room cs) := by
  induction room using Nat.strong_induction_on generalizing cs with
  | _ room ih =>
    rw [readValue]
    split
    · exact .error _
    · rename_i c rest hskip
      split_ifs
      · exact .word ⟨trivial, Nat.zero_le room⟩ _
      · exact .word ⟨trivial, Nat.zero_le room⟩ _
      · exact .word ⟨trivial, Nat.zero_le room⟩ _
      · exact Gives.map (fun _ _ _ => trivial) Value.number fun _ _ => ⟨trivial, Nat.zero_le room⟩
      · exact Gives.map (fun _ _ _ => trivial) Value.string fun _ _ => ⟨trivial, Nat.zero_le room⟩
      · cases room with
        | zero => exact .error _
        | succ room =>
          have hitems := readItems_gives (ih room room.lt_succ_self) rest true
            (fun a ha => absurd ha List.not_mem_nil) rest
          exact hitems.map Value.array fun _ => .array
      · cases room with
        | zero => exact .error _
        | succ room =>
          have hnone : Gathered room [] := ⟨List.Pairwise.nil, fun m hm => absurd hm List.not_mem_nil⟩
          have hmembers := readMembers_gives (readMember_gives (ih room room.lt_succ_self)) rest true hnone rest
          exact hmembers.map (fun members => Value.object members.reverse) fun _ => .object
      · exact .error _

/-- A value that was read from a text is in order and nests no deeper than the reader allows. -/
theorem Value.Bounded.of_parse {text : String} {v : Value} (h : Value.parse text = .ok v) : v.Bounded nestingLimit := by
  rw [Value.parse, Decoder.parse] at h
  split at h
  · cases h
  · rename_i v' rest hread
    split at h
    · cases h
      exact readValue_gives _ _ _ _ hread
    · cases h

end ShellHost.Json
