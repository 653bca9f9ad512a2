import ShellHost.Proofs.Json.Text

/-!
# Reading back values

The text of a value without floats is read back as the value with its members sorted, as deep as the reader goes
(`readValue_chars`). With floats the value may come back with other numbers, or not at all, but it is never cut short
and never swallows what follows it: a reader that accepts the text stops at its end, and no more brackets were open
than it allows (`readValue_ends`).

Both are inductions over the value. What one turn of the loops over items and members does on a printed text is said
once (`readItems_item`, `readMembers_member`).
-/

namespace ShellHost.Json

/-! ## Depth, floats and order -/

mutual

/-- How many brackets of the value are open at a time. -/
def Value.depth : Value → Nat
  | .null => 0
  | .bool _ => 0
  | .number _ => 0
  | .string _ => 0
  | .array items => itemsDepth items + 1
  | .object members => membersDepth members + 1

/-- The greatest depth of an item. -/
def itemsDepth : List Value → Nat
  | [] => 0
  | v :: rest => max v.depth (itemsDepth rest)

/-- The greatest depth of a member's value. -/
def membersDepth : List (String × Value) → Nat
  | [] => 0
  | m :: rest => max m.2.depth (membersDepth rest)

end

mutual

/-- Every number of the value is whole. -/
def Value.FloatFree : Value → Prop
  | .null => True
  | .bool _ => True
  | .number (.whole _) => True
  | .number (.float _) => False
  | .string _ => True
  | .array items => AllFloatFree items
  | .object members => EachFloatFree members

/-- Every item is free of floats. -/
def AllFloatFree : List Value → Prop
  | [] => True
  | v :: rest => v.FloatFree ∧ AllFloatFree rest

/-- Every member's value is free of floats. -/
def EachFloatFree : List (String × Value) → Prop
  | [] => True
  | m :: rest => m.2.FloatFree ∧ EachFloatFree rest

end

theorem itemsDepth_le {items : List Value} {n : Nat} : itemsDepth items ≤ n ↔ ∀ v ∈ items, v.depth ≤ n := by
  induction items with
  | nil => simp [itemsDepth]
  | cons v rest ih => simp [itemsDepth, ih]

theorem membersDepth_le {members : List (String × Value)} {n : Nat} :
    membersDepth members ≤ n ↔ ∀ m ∈ members, m.2.depth ≤ n := by
  induction members with
  | nil => simp [membersDepth]
  | cons m rest ih => simp only [membersDepth, Nat.max_le, ih, List.forall_mem_cons]

theorem depth_array_le {items : List Value} {n : Nat} :
    (Value.array items).depth ≤ n + 1 ↔ ∀ v ∈ items, v.depth ≤ n := by
  rw [Value.depth, Nat.add_le_add_iff_right, itemsDepth_le]

theorem depth_object_le {members : List (String × Value)} {n : Nat} :
    (Value.object members).depth ≤ n + 1 ↔ ∀ m ∈ members, m.2.depth ≤ n := by
  rw [Value.depth, Nat.add_le_add_iff_right, membersDepth_le]

theorem floatFree_array {items : List Value} : (Value.array items).FloatFree ↔ ∀ v ∈ items, v.FloatFree := by
  rw [Value.FloatFree]
  induction items with
  | nil => simp [AllFloatFree]
  | cons v rest ih => rw [AllFloatFree, ih, List.forall_mem_cons]

theorem floatFree_object {members : List (String × Value)} :
    (Value.object members).FloatFree ↔ ∀ m ∈ members, m.2.FloatFree := by
  rw [Value.FloatFree]
  induction members with
  | nil => simp [EachFloatFree]
  | cons m rest ih => rw [EachFloatFree, ih, List.forall_mem_cons]

theorem sorted_array {items : List Value} : (Value.array items).Sorted ↔ ∀ v ∈ items, v.Sorted := by
  rw [Value.Sorted]
  induction items with
  | nil => simp [AllSorted]
  | cons v rest ih => rw [AllSorted, ih, List.forall_mem_cons]

theorem sorted_object {members : List (String × Value)} :
    (Value.object members).Sorted ↔ (members.map Prod.fst).Pairwise (· < ·) ∧ ∀ m ∈ members, m.2.Sorted := by
  have heach : EachSorted members ↔ ∀ m ∈ members, m.2.Sorted := by
    induction members with
    | nil => simp [EachSorted]
    | cons m rest ih => rw [EachSorted, ih, List.forall_mem_cons]
  rw [Value.Sorted, heach]

/-- A value that a JSON text can say exactly: without floats, and with its members in order. -/
structure Value.Plain (v : Value) : Prop where
  floatFree : v.FloatFree
  sorted : v.Sorted

theorem plain_string (s : String) : (Value.string s).Plain := ⟨trivial, trivial⟩

theorem plain_array_map {ι : Type} {write : ι → Value} (h : ∀ i, (write i).Plain) (items : List ι) :
    (Value.array (items.map write)).Plain where
  floatFree := floatFree_array.mpr (List.forall_mem_map.mpr fun i _ => (h i).floatFree)
  sorted := sorted_array.mpr (List.forall_mem_map.mpr fun i _ => (h i).sorted)

theorem depth_array_map_le {ι : Type} {write : ι → Value} {n : Nat} (h : ∀ i, (write i).depth ≤ n) (items : List ι) :
    (Value.array (items.map write)).depth ≤ n + 1 :=
  depth_array_le.mpr (List.forall_mem_map.mpr fun i _ => h i)

theorem plain_object {members : List (String × Value)} (hkeys : (members.map Prod.fst).Pairwise (· < ·))
    (h : ∀ m ∈ members, m.2.Plain) : (Value.object members).Plain where
  floatFree := floatFree_object.mpr fun m hm => (h m hm).floatFree
  sorted := sorted_object.mpr ⟨hkeys, fun m hm => (h m hm).sorted⟩

/-- As many brackets as one likes. -/
def nest : Nat → Value
  | 0 => .null
  | n + 1 => .array [nest n]

theorem depth_nest (n : Nat) : (nest n).depth = n := by
  induction n with
  | zero => rfl
  | succ n ih => simp [nest, Value.depth, itemsDepth, ih]

theorem floatFree_nest (n : Nat) : (nest n).FloatFree := by
  induction n with
  | zero => trivial
  | succ n ih => exact ⟨ih, trivial⟩

theorem sorted_nest (n : Nat) : (nest n).Sorted := by
  induction n with
  | zero => trivial
  | succ n ih => exact ⟨ih, trivial⟩

theorem sortItems_eq_map (items : List Value) : sortItems items = items.map Value.sort := by
  induction items with
  | nil => rfl
  | cons v rest ih => rw [sortItems, ih, List.map_cons]

theorem sortItems_map {ι : Type} {write g : ι → Value} (h : ∀ i, (write i).sort = g i) (items : List ι) :
    sortItems (items.map write) = items.map g := by
  rw [sortItems_eq_map, List.map_map]
  exact List.map_congr_left fun i _ => h i

theorem sortValues_eq_map (members : List (String × Value)) :
    sortValues members = members.map fun m => (m.1, m.2.sort) := by
  induction members with
  | nil => rfl
  | cons m rest ih => rw [sortValues, ih, List.map_cons]

theorem insertDescending_of_lt {key : String} {members : List (String × Value)} (h : ∀ m ∈ members, m.1 < key)
    (v : Value) : insertDescending key v members = (key, v) :: members := by
  cases members with
  | nil => rfl
  | cons m rest => rw [insertDescending, if_pos (h m List.mem_cons_self)]

theorem foldl_insertDescending {members out : List (String × Value)}
    (h : ((out.reverse ++ members).map Prod.fst).Pairwise (· < ·)) :
    members.foldl (fun out m => insertDescending m.1 m.2 out) out = members.reverse ++ out := by
  induction members generalizing out with
  | nil => rfl
  | cons m rest ih =>
    have hlt : ∀ n ∈ out, n.1 < m.1 := by
      intro n hn
      rw [List.map_append, List.pairwise_append] at h
      exact h.2.2 n.1 (List.mem_map_of_mem (List.mem_reverse.mpr hn)) m.1 (by simp)
    rw [List.foldl_cons, insertDescending_of_lt hlt, ih (by simpa using h)]
    simp

theorem sort_object {members : List (String × Value)} (h : ∀ m ∈ members, m.2.sort = m.2) :
    (Value.object members).sort = .object (sortMembers members) := by
  rw [Value.sort, sortValues_eq_map, List.map_congr_left fun m hm => by rw [h m hm], List.map_id']

/-- Sorting changes nothing in a value that is sorted. -/
theorem sort_of_sorted {v : Value} (h : v.Sorted) : v.sort = v := by
  induction v using Value.nested with
  | null | bool | number | string => rfl
  | array items ih =>
    rw [sorted_array] at h
    rw [Value.sort, sortItems_eq_map, List.map_congr_left fun v hv => ih v hv (h v hv), List.map_id']
  | object members ih =>
    rw [sorted_object] at h
    obtain ⟨hkeys, hvalues⟩ := h
    rw [sort_object fun m hm => ih m hm (hvalues m hm), sortMembers, foldl_insertDescending (by simpa using hkeys)]
    simp

/-! ## One turn of the loops -/

variable {α σ : Type}

theorem separated_cons_append (first : Bool) (t : List Char) (texts : List (List Char)) (tail : List Char) :
    separated first (t :: texts) ++ tail
      = if first then t ++ (separated false texts ++ tail) else ',' :: (t ++ (separated false texts ++ tail)) := by
  cases first <;> simp [separated]

theorem separated_delimited (texts : List (List Char)) {tail : List Char} (h : Delimited tail) :
    Delimited (separated false texts ++ tail) := by
  cases texts with
  | nil => exact h
  | cons t texts =>
    intro c hc
    cases hc
    exact .inl rfl

theorem itemsText_cons (first : Bool) (v : Value) (items : List Value) (rest : List Char) :
    itemsText first (v :: items) rest
      = if first then v.chars ++ itemsText false items rest else ',' :: (v.chars ++ itemsText false items rest) :=
  separated_cons_append first v.chars (items.map Value.chars) (']' :: rest)

theorem membersText_cons (first : Bool) (m : String × Value) (members : List (String × Value)) (rest : List Char) :
    membersText first (m :: members) rest
      = if first then stringChars m.1 ++ ':' :: (m.2.chars ++ membersText false members rest)
        else ',' :: (stringChars m.1 ++ ':' :: (m.2.chars ++ membersText false members rest)) := by
  cases first <;> simp [membersText, memberChars, separated]

theorem delimited_square (rest : List Char) : Delimited (']' :: rest) := by
  intro c hc
  cases hc
  exact .inr (.inl rfl)

theorem delimited_curly (rest : List Char) : Delimited ('\x7d' :: rest) := by
  intro c hc
  cases hc
  exact .inr (.inr (.inl rfl))

theorem itemsText_delimited (items : List Value) (rest : List Char) : Delimited (itemsText false items rest) :=
  separated_delimited _ (delimited_square rest)

theorem membersText_delimited (members : List (String × Value)) (rest : List Char) :
    Delimited (membersText false members rest) :=
  separated_delimited _ (delimited_curly rest)

/-- An item is found behind the blanks before it. -/
theorem nextItem_begins {cs : List Char} (h : Begins (skipSpace cs)) (first : Bool) :
    nextItem first (if first then cs else ',' :: cs) = .ok (.item (skipSpace cs)) := by
  obtain ⟨c, rest, hskip, -, hsquare, -⟩ := h
  cases first with
  | true =>
    simp only [if_true, nextItem, hskip]
    rw [if_neg hsquare]
  | false =>
    have hcomma : skipSpace (',' :: cs) = ',' :: cs := rfl
    simp only [Bool.false_eq_true, if_false, nextItem, hcomma, hskip, if_true]
    rw [if_neg (by decide)]
    split
    · rename_i heq
      cases heq
    · rename_i heq
      exact absurd (List.cons.inj heq).1 hsquare
    · rfl

theorem nextItem_itemsText (first : Bool) (v : Value) (items : List Value) (rest : List Char) :
    nextItem first (itemsText first (v :: items) rest) = .ok (.item (v.chars ++ itemsText false items rest)) := by
  have hbegins := (chars_begins v).append (itemsText false items rest)
  have hskip := hbegins.skipSpace
  rw [← hskip] at hbegins
  have hnext := nextItem_begins hbegins first
  rwa [← itemsText_cons, hskip] at hnext

theorem readItems_close (item : List Char → Reading α) (tick : Char) (clock : List Char) (first : Bool)
    (out : List α) {cs rest : List Char} (h : skipSpace cs = ']' :: rest) :
    readItems item (tick :: clock) first out cs = .ok (out.reverse, rest) := by
  simp only [readItems, nextItem, h, if_true]

theorem readItems_next (item : List Char → Reading α) (tick : Char) (clock : List Char) {first : Bool} (out : List α)
    {cs rest : List Char} (h : nextItem first cs = .ok (.item rest)) :
    readItems item (tick :: clock) first out cs
      = match item rest with
        | .error f => .error f.inArray
        | .ok (a, rest) => readItems item clock false (a :: out) rest := by
  cases hread : item rest <;> simp only [readItems, h, hread]

theorem readItems_item (item : List Char → Reading α) (tick : Char) (clock : List Char) (first : Bool)
    (out : List α) (v : Value) (items : List Value) (rest : List Char) :
    readItems item (tick :: clock) first out (itemsText first (v :: items) rest)
      = match item (v.chars ++ itemsText false items rest) with
        | .error f => .error f.inArray
        | .ok (a, rest) => readItems item clock false (a :: out) rest :=
  readItems_next item tick clock out (nextItem_itemsText first v items rest)

theorem readKey_string (key : String) (rest : List Char) : readKey (stringChars key ++ rest) = .ok (.key key rest) := by
  have hread := readChars_string key rest
  have hchars : stringChars key ++ rest = '"' :: ((stringChars key).tail ++ rest) := rfl
  rw [hchars, readKey, hread]

/-- A key is found behind the blanks before it. -/
theorem nextKey_string (first : Bool) {cs rest : List Char} {key : String}
    (h : skipSpace cs = stringChars key ++ rest) :
    nextKey first (if first then cs else ',' :: cs) = .ok (.key key rest) := by
  have hkey := readKey_string key rest
  have hchars : stringChars key ++ rest = '"' :: ((stringChars key).tail ++ rest) := rfl
  rw [hchars] at h hkey
  cases first with
  | true =>
    simp only [if_true, nextKey, h]
    rw [if_neg (by decide), hkey]
  | false =>
    have hcomma : skipSpace (',' :: cs) = ',' :: cs := rfl
    simp only [Bool.false_eq_true, if_false, nextKey, hcomma, h, if_true]
    rw [if_neg (by decide)]
    exact hkey

theorem readMembers_close (member : String → σ → List Char → Reading σ) (tick : Char) (clock : List Char)
    (first : Bool) (s : σ) {cs rest : List Char} (h : skipSpace cs = '\x7d' :: rest) :
    readMembers member (tick :: clock) first s cs = .ok (s, rest) := by
  simp only [readMembers, nextKey, h, if_true]

theorem readMembers_next (member : String → σ → List Char → Reading σ) (tick : Char) (clock : List Char) {first : Bool}
    (s : σ) {cs rest : List Char} {key : String} (h : nextKey first cs = .ok (.key key rest)) :
    readMembers member (tick :: clock) first s cs
      = match member key s rest with
        | .error f => .error f.inObject
        | .ok (s, rest) => readMembers member clock false s rest := by
  cases hread : member key s rest <;> simp only [readMembers, h, hread]

theorem readMembers_member (member : String → σ → List Char → Reading σ) (tick : Char) (clock : List Char)
    (first : Bool) (s : σ) (m : String × Value) (members : List (String × Value)) (rest : List Char) :
    readMembers member (tick :: clock) first s (membersText first (m :: members) rest)
      = match member m.1 s (':' :: (m.2.chars ++ membersText false members rest)) with
        | .error f => .error f.inObject
        | .ok (s, rest) => readMembers member clock false s rest := by
  have hnext := nextKey_string first
    ((stringChars_begins m.1).append (':' :: (m.2.chars ++ membersText false members rest))).skipSpace
  rw [← membersText_cons] at hnext
  exact readMembers_next member tick clock s hnext

/-! ## The loops on printed texts -/

/-- A reader that goes no further than `rest`, and gives only what `p` holds of. -/
def EndsAt (rest : List Char) (p : α → Prop) (r : Reading α) : Prop :=
  ∀ a rest', r = .ok (a, rest') → rest' = rest ∧ p a

theorem EndsAt.error {rest : List Char} {p : α → Prop} (f : Fault) : EndsAt rest p (.error f) := by
  intro a rest' h
  cases h

theorem EndsAt.ok {rest : List Char} {p : α → Prop} {a : α} (h : p a) : EndsAt rest p (.ok (a, rest)) := by
  intro b rest' heq
  cases heq
  exact ⟨rfl, h⟩

theorem EndsAt.imp {rest : List Char} {p q : α → Prop} {r : Reading α} (h : EndsAt rest p r)
    (hpq : ∀ a, p a → q a) : EndsAt rest q r := by
  intro a rest' heq
  obtain ⟨hend, hp⟩ := h a rest' heq
  exact ⟨hend, hpq a hp⟩

theorem EndsAt.map {β : Type} {rest : List Char} {p : α → Prop} {q : β → Prop} {r : Reading α} (h : EndsAt rest p r)
    (f : α → β) (hf : ∀ a, p a → q (f a)) : EndsAt rest q (r.map fun x => (f x.1, x.2)) := by
  intro b rest' heq
  rcases r with e | ⟨a, tail⟩
  · cases heq
  · obtain ⟨hend, hp⟩ := h a tail rfl
    cases heq
    exact ⟨hend, hf a hp⟩

/-- Items are read one by one, as many turns as there are items, whatever blanks stand before each and before the end. -/
theorem readItems_separated (item : List Char → Reading α) (text : Value → List Char) (f : Value → α)
    {gap tail rest : List Char} (hgap : ∀ cs, skipSpace (gap ++ cs) = skipSpace cs)
    (htail : skipSpace tail = ']' :: rest) (hdelimited : Delimited tail) (hbegins : ∀ v, Begins (text v))
    {items : List Value} (h : ∀ v ∈ items, ∀ rest, Delimited rest → item (text v ++ rest) = .ok (f v, rest))
    {clock : List Char} (hclock : items.length < clock.length) (first : Bool) (out : List α) :
    readItems item clock first out (separated first (items.map fun v => gap ++ text v) ++ tail)
      = .ok (out.reverse ++ items.map f, rest) := by
  -- each item takes one turn and one tick of the clock; the last tick is for the end
  induction items generalizing clock first out with
  | nil =>
    cases clock with
    | nil => cases hclock
    | cons tick clock =>
      rw [List.map_nil, List.map_nil, List.append_nil]
      exact readItems_close item tick clock first out htail
  | cons v items ih =>
    cases clock with
    | nil => cases hclock
    | cons tick clock =>
      have hitems := ih (fun w hw => h w (List.mem_cons_of_mem _ hw)) (Nat.lt_of_succ_lt_succ hclock) false (f v :: out)
      have hv := h v List.mem_cons_self _ (separated_delimited (items.map fun v => gap ++ text v) hdelimited)
      have hbegin := (hbegins v).append (separated false (items.map fun v => gap ++ text v) ++ tail)
      have hskip := (hgap _).trans hbegin.skipSpace
      rw [← hskip] at hbegin
      have hnext := nextItem_begins hbegin first
      rw [hskip, ← List.append_assoc, ← separated_cons_append] at hnext
      rw [List.map_cons, readItems_next item tick clock out hnext, hv]
      simpa using hitems

theorem readItems_itemsText (item : List Char → Reading α) (f : Value → α) {items : List Value}
    (h : ∀ v ∈ items, ∀ rest, Delimited rest → item (v.chars ++ rest) = .ok (f v, rest)) {clock : List Char}
    (hclock : items.length < clock.length) (first : Bool) (out : List α) (rest : List Char) :
    readItems item clock first out (itemsText first items rest) = .ok (out.reverse ++ items.map f, rest) := by
  have hgap : ∀ cs, skipSpace ([] ++ cs) = skipSpace cs := fun _ => rfl
  exact readItems_separated item Value.chars f hgap rfl (delimited_square rest) chars_begins h hclock first out

theorem readItems_ends (item : List Char → Reading α) (q : Value → Prop) {items : List Value}
    (h : ∀ v ∈ items, ∀ rest, Delimited rest → EndsAt rest (fun _ => q v) (item (v.chars ++ rest)))
    (clock : List Char) (first : Bool) (out : List α) (rest : List Char) :
    EndsAt rest (fun _ => ∀ v ∈ items, q v) (readItems item clock first out (itemsText first items rest)) := by
  induction items generalizing clock first out with
  | nil =>
    cases clock with
    | nil => exact EndsAt.error _
    | cons tick clock => exact EndsAt.ok (by simp)
  | cons v items ih =>
    cases clock with
    | nil => exact EndsAt.error _
    | cons tick clock =>
      have hv := h v List.mem_cons_self _ (itemsText_delimited items rest)
      rw [readItems_item]
      split
      · exact EndsAt.error _
      · rename_i a tail heq
        obtain ⟨rfl, hq⟩ := hv a tail heq
        intro l rest' hread
        obtain ⟨hrest, hall⟩ := ih (fun w hw => h w (List.mem_cons_of_mem _ hw)) clock false (a :: out) l rest' hread
        exact ⟨hrest, List.forall_mem_cons.mpr ⟨hq, hall⟩⟩

/-- What the reader of a member makes of some members, one after another. -/
inductive Fills (member : String → σ → List Char → Reading σ) : σ → List (String × Value) → σ → Prop where
  /-- Without members the state stays. -/
  | nil (s : σ) : Fills member s [] s
  /-- The first member changes the state, and the others do. -/
  | cons {s s' s'' : σ} {m : String × Value} {members : List (String × Value)}
    (hm : ∀ rest, Delimited rest → member m.1 s (':' :: (m.2.chars ++ rest)) = .ok (s', rest))
    (hmembers : Fills member s' members s'') : Fills member s (m :: members) s''

theorem readMembers_fills {member : String → σ → List Char → Reading σ} {members : List (String × Value)} {s s' : σ}
    (h : Fills member s members s') {clock : List Char} (hclock : members.length < clock.length) (first : Bool)
    (rest : List Char) :
    readMembers member clock first s (membersText first members rest) = .ok (s', rest) := by
  induction h generalizing clock first with
  | nil s =>
    cases clock with
    | nil => cases hclock
    | cons tick clock => exact readMembers_close member tick clock first s rfl
  | @cons s s' s'' m members hm hmembers ih =>
    cases clock with
    | nil => cases hclock
    | cons tick clock =>
      have hread := hm _ (membersText_delimited members rest)
      rw [readMembers_member, hread]
      exact ih (Nat.lt_of_succ_lt_succ hclock) false

theorem readMembers_ends (member : String → σ → List Char → Reading σ) (p : σ → Prop) (q : String × Value → Prop)
    {members : List (String × Value)}
    (h : ∀ m ∈ members, ∀ s, p s → ∀ rest, Delimited rest →
      EndsAt rest (fun s' => p s' ∧ q m) (member m.1 s (':' :: (m.2.chars ++ rest))))
    (clock : List Char) (first : Bool) (s : σ) (hs : p s) (rest : List Char) :
    EndsAt rest (fun s' => p s' ∧ ∀ m ∈ members, q m)
      (readMembers member clock first s (membersText first members rest)) := by
  induction members generalizing clock first s with
  | nil =>
    cases clock with
    | nil => exact EndsAt.error _
    | cons tick clock => exact EndsAt.ok ⟨hs, by simp⟩
  | cons m members ih =>
    cases clock with
    | nil => exact EndsAt.error _
    | cons tick clock =>
      have hm := h m List.mem_cons_self s hs _ (membersText_delimited members rest)
      rw [readMembers_member]
      split
      · exact EndsAt.error _
      · rename_i s' tail heq
        obtain ⟨rfl, hs', hq⟩ := hm s' tail heq
        intro s'' rest' hread
        obtain ⟨hrest, hp, hall⟩ :=
          ih (fun n hn => h n (List.mem_cons_of_mem _ hn)) clock false s' hs' s'' rest' hread
        exact ⟨hrest, hp, List.forall_mem_cons.mpr ⟨hq, hall⟩⟩

/-! ## Whole values -/

theorem length_separated (first : Bool) {texts : List (List Char)} (h : ∀ t ∈ texts, t ≠ []) :
    texts.length ≤ (separated first texts).length := by
  induction texts generalizing first with
  | nil => exact Nat.zero_le _
  | cons t texts ih =>
    have hne : 0 < t.length := List.length_pos_iff.mpr (h t List.mem_cons_self)
    have hrest := ih false fun u hu => h u (List.mem_cons_of_mem _ hu)
    cases first <;> simp only [separated, List.length_append, List.length_cons, if_true, if_false,
      Bool.false_eq_true] <;> omega

theorem Begins.ne_nil {cs : List Char} (h : Begins cs) : cs ≠ [] := by
  obtain ⟨c, rest, rfl, -⟩ := h
  exact List.cons_ne_nil c rest

/-- A text that ends somewhere behind them is a clock that is long enough for the parts. -/
theorem separated_clock (first : Bool) {texts : List (List Char)} (h : ∀ t ∈ texts, t ≠ []) {tail : List Char}
    (htail : tail ≠ []) : texts.length < (separated first texts ++ tail).length := by
  have hle := length_separated first h
  have hpos := List.length_pos_iff.mpr htail
  rw [List.length_append]
  omega

theorem items_clock (items : List Value) (rest : List Char) : items.length < (itemsText true items rest).length := by
  have hne : ∀ t ∈ items.map Value.chars, t ≠ [] := List.forall_mem_map.mpr fun v _ => (chars_begins v).ne_nil
  simpa only [itemsText, List.length_map] using separated_clock true hne (List.cons_ne_nil ']' rest)

theorem members_clock (members : List (String × Value)) (rest : List Char) :
    members.length < (membersText true members rest).length := by
  have hne : ∀ t ∈ members.map fun m => memberChars m.1 m.2.chars, t ≠ [] :=
    List.forall_mem_map.mpr fun m _ => List.cons_ne_nil _ _
  simpa only [membersText, List.length_map] using separated_clock true hne (List.cons_ne_nil '\x7d' rest)

theorem readColon_value (v : Value) (rest : List Char) : readColon (':' :: (v.chars ++ rest)) = .ok (v.chars ++ rest) :=
  rfl

theorem readMember_value {read : List Char → Reading Value} {v v' : Value} {rest : List Char}
    (h : read (v.chars ++ rest) = .ok (v', rest)) (name : String) (out : List (String × Value)) :
    readMember read name out (':' :: (v.chars ++ rest)) = .ok (insertDescending name v' out, rest) := by
  rw [readMember, readColon_value]
  simp only [h]

theorem fills_insertDescending (read : List Char → Reading Value) (f : Value → Value)
    {members : List (String × Value)}
    (h : ∀ m ∈ members, ∀ rest, Delimited rest → read (m.2.chars ++ rest) = .ok (f m.2, rest))
    (out : List (String × Value)) :
    Fills (readMember read) out members
      ((members.map fun m => (m.1, f m.2)).foldl (fun out m => insertDescending m.1 m.2 out) out) := by
  induction members generalizing out with
  | nil => exact .nil out
  | cons m members ih =>
    have hm := h m List.mem_cons_self
    exact .cons (fun rest hrest => readMember_value (hm rest hrest) m.1 out)
      (ih (fun n hn => h n (List.mem_cons_of_mem _ hn)) _)

theorem readValue_null (room : Nat) (rest : List Char) :
    readValue room (Value.null.chars ++ rest) = .ok (.null, rest) := by
  rw [readValue.eq_def]
  rfl

theorem readValue_bool (room : Nat) (b : Bool) (rest : List Char) :
    readValue room ((Value.bool b).chars ++ rest) = .ok (.bool b, rest) := by
  rw [readValue.eq_def]
  cases b <;> rfl

theorem readValue_quote (room : Nat) (cs : List Char) :
    readValue room ('"' :: cs) = (readChars [] cs).map fun (s, rest) => (.string s, rest) := by
  rw [readValue.eq_def]
  rfl

theorem readValue_string (room : Nat) (s : String) (rest : List Char) :
    readValue room ((Value.string s).chars ++ rest) = .ok (.string s, rest) := by
  have hread := readChars_string s rest
  have hchars : (Value.string s).chars ++ rest = '"' :: ((stringChars s).tail ++ rest) := rfl
  rw [hchars, readValue_quote, hread]
  rfl

theorem readValue_number (room : Nat) (n : Number) (rest : List Char) :
    readValue room ((Value.number n).chars ++ rest)
      = (readNumber (n.digits ++ rest)).map fun (n, rest) => (.number n, rest) := by
  have hskip := ((chars_begins (.number n)).append rest).skipSpace
  obtain ⟨c, cs, heq, hstart⟩ := n.digits_text.starts
  have hn : c ≠ 'n' := startsNumber_ne hstart rfl
  have ht : c ≠ 't' := startsNumber_ne hstart rfl
  have hf : c ≠ 'f' := startsNumber_ne hstart rfl
  rw [Value.chars, heq] at hskip ⊢
  rw [readValue.eq_def, hskip]
  simp only [List.cons_append, if_neg hn, if_neg ht, if_neg hf, if_pos hstart]

theorem readValue_square (room : Nat) (cs : List Char) :
    readValue (room + 1) ('[' :: cs)
      = (readItems (readValue room) cs true [] cs).map fun (items, rest) => (.array items, rest) := by
  rw [readValue.eq_def]
  rfl

theorem readValue_curly (room : Nat) (cs : List Char) :
    readValue (room + 1) ('\x7b' :: cs)
      = (readMembers (readMember (readValue room)) cs true [] cs).map
          fun (members, rest) => (.object members.reverse, rest) := by
  rw [readValue.eq_def]
  rfl

theorem readValue_array (room : Nat) (items : List Value) (rest : List Char) :
    readValue (room + 1) ((Value.array items).chars ++ rest)
      = (readItems (readValue room) (itemsText true items rest) true [] (itemsText true items rest)).map
          fun (items, rest) => (.array items, rest) := by
  rw [chars_array_append, readValue_square]

theorem readValue_object (room : Nat) (members : List (String × Value)) (rest : List Char) :
    readValue (room + 1) ((Value.object members).chars ++ rest)
      = (readMembers (readMember (readValue room)) (membersText true members rest) true []
          (membersText true members rest)).map
          fun (members, rest) => (.object members.reverse, rest) := by
  rw [chars_object_append, readValue_curly]

theorem readValue_array_zero (items : List Value) (rest : List Char) :
    ∃ f, readValue 0 ((Value.array items).chars ++ rest) = .error f := by
  rw [chars_array_append, readValue.eq_def]
  exact ⟨_, rfl⟩

theorem readValue_object_zero (members : List (String × Value)) (rest : List Char) :
    ∃ f, readValue 0 ((Value.object members).chars ++ rest) = .error f := by
  rw [chars_object_append, readValue.eq_def]
  exact ⟨_, rfl⟩

/-- The text of a value without floats is read as the value, sorted, if it is not too deep. -/
theorem readValue_chars {v : Value} (hv : v.FloatFree) {room : Nat} (hdepth : v.depth ≤ room) {rest : List Char}
    (h : Delimited rest) : readValue room (v.chars ++ rest) = .ok (v.sort, rest) := by
  induction v using Value.nested generalizing room rest with
  | null => exact readValue_null room rest
  | bool b => exact readValue_bool room b rest
  | number n =>
    cases n with
    | whole n =>
      have hread := readNumber_whole n h
      rw [readValue_number, Number.digits, hread]
      rfl
    | float x => exact absurd hv id
  | string s => exact readValue_string room s rest
  | array items ih =>
    rw [floatFree_array] at hv
    cases room with
    | zero => cases hdepth
    | succ room =>
      rw [depth_array_le] at hdepth
      have hitems := readItems_itemsText (readValue room) Value.sort
        (fun v hmem rest hrest => ih v hmem (hv v hmem) (hdepth v hmem) hrest) (items_clock items rest) true [] rest
      rw [readValue_array, hitems, Value.sort, sortItems_eq_map]
      rfl
  | object members ih =>
    rw [floatFree_object] at hv
    cases room with
    | zero => cases hdepth
    | succ room =>
      rw [depth_object_le] at hdepth
      have hfills := fills_insertDescending (readValue room) Value.sort
        (fun m hmem rest hrest => ih m hmem (hv m hmem) (hdepth m hmem) hrest) []
      have hmembers := readMembers_fills hfills (members_clock members rest) true rest
      rw [readValue_object, hmembers, Value.sort, sortValues_eq_map]
      rfl

theorem EndsAt.readMember {read : List Char → Reading Value} {q : Prop} {v : Value} {rest : List Char}
    (h : EndsAt rest (fun _ => q) (read (v.chars ++ rest))) (name : String) (out : List (String × Value)) :
    EndsAt rest (fun _ => True ∧ q) (readMember read name out (':' :: (v.chars ++ rest))) := by
  rw [Json.readMember, readColon_value]
  dsimp only
  split
  · exact EndsAt.error _
  · rename_i v' tail heq
    obtain ⟨rfl, hq⟩ := h v' tail heq
    exact EndsAt.ok ⟨trivial, hq⟩

/-- The text of a value is read to its end, or not at all; and it is not deeper than the reader allows. -/
theorem readValue_ends (v : Value) (room : Nat) {rest : List Char} (h : Delimited rest) :
    EndsAt rest (fun _ => v.depth ≤ room) (readValue room (v.chars ++ rest)) := by
  induction v using Value.nested generalizing room rest with
  | null =>
    rw [readValue_null]
    exact EndsAt.ok (Nat.zero_le room)
  | bool b =>
    rw [readValue_bool]
    exact EndsAt.ok (Nat.zero_le room)
  | number n =>
    rw [readValue_number]
    have hnumber : EndsAt rest (fun _ => True) (readNumber (n.digits ++ rest)) :=
      fun m rest' hread => ⟨readNumber_digits_rest h hread, trivial⟩
    exact hnumber.map Value.number fun _ _ => Nat.zero_le room
  | string s =>
    rw [readValue_string]
    exact EndsAt.ok (Nat.zero_le room)
  | array items ih =>
    cases room with
    | zero =>
      obtain ⟨f, hf⟩ := readValue_array_zero items rest
      rw [hf]
      exact EndsAt.error f
    | succ room =>
      have hitems := readItems_ends (readValue room) (fun v => v.depth ≤ room)
        (fun v hmem rest hrest => ih v hmem room hrest) (itemsText true items rest) true [] rest
      rw [readValue_array]
      exact hitems.map Value.array fun _ hall => depth_array_le.mpr hall
  | object members ih =>
    cases room with
    | zero =>
      obtain ⟨f, hf⟩ := readValue_object_zero members rest
      rw [hf]
      exact EndsAt.error f
    | succ room =>
      have hmember : ∀ m ∈ members, ∀ s, True → ∀ rest, Delimited rest →
          EndsAt rest (fun _ => True ∧ m.2.depth ≤ room)
            (readMember (readValue room) m.1 s (':' :: (m.2.chars ++ rest))) :=
        fun m hmem s _ rest hrest => EndsAt.readMember (ih m hmem room hrest) m.1 s
      have hmembers := readMembers_ends (readMember (readValue room)) (fun _ => True) (fun m => m.2.depth ≤ room)
        hmember (membersText true members rest) true [] trivial rest
      rw [readValue_object]
      exact hmembers.map (fun members => Value.object members.reverse) fun _ hall => depth_object_le.mpr hall.2

/-! ## Scalars that are passed over -/

theorem skipValue_scalar {cs rest : List Char} (hcs : Begins cs) (h : skipScalar cs = .ok (some rest)) :
    skipValue cs = .ok rest := by
  have hskip := hcs.skipSpace
  obtain ⟨c, tail, rfl, -⟩ := hcs
  simp only [skipValue, skipFrom, skipStep, hskip, h]
  rfl

theorem skipValue_string (s : String) (rest : List Char) : skipValue ((Value.string s).chars ++ rest) = .ok rest := by
  have hskip := skipChars_string s rest
  have hscalar : skipScalar ((Value.string s).chars ++ rest)
      = (skipChars ((stringChars s).tail ++ rest)).map some := rfl
  refine skipValue_scalar ((chars_begins (.string s)).append rest) ?_
  rw [hscalar, hskip]
  rfl

theorem skipValue_number (n : Number) {rest : List Char} (h : Delimited rest) :
    skipValue ((Value.number n).chars ++ rest) = .ok rest := by
  have hskip := n.digits_text.skips h
  refine skipValue_scalar ((chars_begins (.number n)).append rest) ?_
  obtain ⟨c, cs, heq, hstart⟩ := n.digits_text.starts
  rw [heq, List.cons_append] at hskip
  rw [Value.chars, heq, List.cons_append]
  have hn : c ≠ 'n' := startsNumber_ne hstart rfl
  have ht : c ≠ 't' := startsNumber_ne hstart rfl
  have hf : c ≠ 'f' := startsNumber_ne hstart rfl
  simp only [skipScalar, if_neg hn, if_neg ht, if_neg hf, if_pos hstart, hskip]
  rfl

end ShellHost.Json
