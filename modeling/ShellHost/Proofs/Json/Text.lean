import ShellHost.Proofs.Json.Numbers
import ShellHost.Proofs.Json.Strings

/-!
# The text of a value, from front to back

The printer builds a text backwards. `Value.chars` is the same text as it is read: items and members stand between
their brackets with a comma before each but the first (`separated`). No character of it is a control character, so a
text without any space takes one line.
-/

namespace ShellHost.Json

/-! ## Induction over values -/

mutual

/-- A property of all values: containers have it if all that they hold has it. -/
theorem Value.nested {P : Value → Prop} (null : P .null) (bool : ∀ b, P (.bool b)) (number : ∀ n, P (.number n))
    (string : ∀ s, P (.string s)) (array : ∀ items, (∀ v ∈ items, P v) → P (.array items))
    (object : ∀ members, (∀ m ∈ members, P m.2) → P (.object members)) : ∀ v, P v
  | .null => null
  | .bool b => bool b
  | .number n => number n
  | .string s => string s
  | .array items => array items (nestedItems null bool number string array object items)
  | .object members => object members (nestedMembers null bool number string array object members)

theorem nestedItems {P : Value → Prop} (null : P .null) (bool : ∀ b, P (.bool b)) (number : ∀ n, P (.number n))
    (string : ∀ s, P (.string s)) (array : ∀ items, (∀ v ∈ items, P v) → P (.array items))
    (object : ∀ members, (∀ m ∈ members, P m.2) → P (.object members)) : ∀ items : List Value, ∀ v ∈ items, P v
  | [], _, h => absurd h List.not_mem_nil
  | w :: rest, v, h => by
    cases List.mem_cons.mp h with
    | inl h => exact h ▸ Value.nested null bool number string array object w
    | inr h => exact nestedItems null bool number string array object rest v h

theorem nestedMembers {P : Value → Prop} (null : P .null) (bool : ∀ b, P (.bool b)) (number : ∀ n, P (.number n))
    (string : ∀ s, P (.string s)) (array : ∀ items, (∀ v ∈ items, P v) → P (.array items))
    (object : ∀ members, (∀ m ∈ members, P m.2) → P (.object members)) :
    ∀ members : List (String × Value), ∀ m ∈ members, P m.2
  | [], _, h => absurd h List.not_mem_nil
  | n :: rest, m, h => by
    cases List.mem_cons.mp h with
    | inl h => exact h ▸ Value.nested null bool number string array object n.2
    | inr h => exact nestedMembers null bool number string array object rest m h

end

/-! ## Texts -/

/-- Texts with a comma before each but the first. -/
def separated (first : Bool) : List (List Char) → List Char
  | [] => []
  | t :: rest => (if first then t else ',' :: t) ++ separated false rest

/-- A member, given the text of its value. -/
def memberChars (key : String) (value : List Char) : List Char := stringChars key ++ ':' :: value

mutual

/-- The text of a value. -/
def Value.chars : Value → List Char
  | .null => nullWord
  | .bool b => boolWord b
  | .number n => n.digits
  | .string s => stringChars s
  | .array items => '[' :: (separated true (itemTexts items) ++ [']'])
  | .object members => '\x7b' :: (separated true (memberTexts members) ++ ['\x7d'])

/-- The texts of some items. -/
def itemTexts : List Value → List (List Char)
  | [] => []
  | v :: rest => v.chars :: itemTexts rest

/-- The texts of some members. -/
def memberTexts : List (String × Value) → List (List Char)
  | [] => []
  | m :: rest => memberChars m.1 m.2.chars :: memberTexts rest

end

theorem itemTexts_eq_map (items : List Value) : itemTexts items = items.map Value.chars := by
  induction items with
  | nil => rfl
  | cons v rest ih => rw [itemTexts, ih, List.map_cons]

theorem memberTexts_eq_map (members : List (String × Value)) :
    memberTexts members = members.map fun m => memberChars m.1 m.2.chars := by
  induction members with
  | nil => rfl
  | cons m rest ih => rw [memberTexts, ih, List.map_cons]

theorem chars_array (items : List Value) :
    (Value.array items).chars = '[' :: (separated true (items.map Value.chars) ++ [']']) := by
  rw [Value.chars, itemTexts_eq_map]

theorem chars_object (members : List (String × Value)) :
    (Value.object members).chars
      = '\x7b' :: (separated true (members.map fun m => memberChars m.1 m.2.chars) ++ ['\x7d']) := by
  rw [Value.chars, memberTexts_eq_map]

/-- Items behind the opening bracket, and what follows the array. -/
def itemsText (first : Bool) (items : List Value) (rest : List Char) : List Char :=
  separated first (items.map Value.chars) ++ ']' :: rest

/-- Members behind the opening brace, and what follows the object. -/
def membersText (first : Bool) (members : List (String × Value)) (rest : List Char) : List Char :=
  separated first (members.map fun m => memberChars m.1 m.2.chars) ++ '\x7d' :: rest

theorem chars_array_append (items : List Value) (rest : List Char) :
    (Value.array items).chars ++ rest = '[' :: itemsText true items rest := by
  rw [chars_array, List.cons_append, List.append_assoc, List.singleton_append, itemsText]

theorem chars_object_append (members : List (String × Value)) (rest : List Char) :
    (Value.object members).chars ++ rest = '\x7b' :: membersText true members rest := by
  rw [chars_object, List.cons_append, List.append_assoc, List.singleton_append, membersText]

/-! ## The printer writes these texts -/

theorem push_eq (cs out : List Char) : push cs out = cs.reverse ++ out := List.reverseAux_eq ..

theorem emitChars_eq (cs out : List Char) : emitChars cs out = (cs.flatMap escape).reverse ++ out := by
  induction cs generalizing out with
  | nil => rfl
  | cons c cs ih => simp [emitChars, ih, push_eq]

theorem emitString_eq (s : String) (out : List Char) : emitString s out = (stringChars s).reverse ++ out := by
  simp [emitString, emitChars_eq, stringChars]

/-- What is written does not depend on what was written before it. -/
theorem emit_eq (v : Value) (out : List Char) : v.emit out = v.chars.reverse ++ out := by
  induction v using Value.nested generalizing out with
  | null | bool | number => simp [Value.emit, Value.chars, push_eq]
  | string s => rw [Value.emit, Value.chars, emitString_eq]
  | array items ih =>
    have hitems : ∀ (items : List Value) (first : Bool) (out : List Char),
        (∀ v ∈ items, ∀ out, v.emit out = v.chars.reverse ++ out) →
        emitItems first items out = (separated first (items.map Value.chars)).reverse ++ out := by
      intro items
      induction items with
      | nil => intro first out _; rfl
      | cons v rest ih =>
        intro first out hv
        have hrest := fun w hw => hv w (List.mem_cons_of_mem _ hw)
        cases first <;> simp [emitItems, separated, hv v List.mem_cons_self, ih false _ hrest]
    rw [Value.emit, chars_array, hitems items true _ fun v hv out => ih v hv out]
    simp
  | object members ih =>
    have hmembers : ∀ (members : List (String × Value)) (first : Bool) (out : List Char),
        (∀ m ∈ members, ∀ out, m.2.emit out = m.2.chars.reverse ++ out) →
        emitMembers first members out
          = (separated first (members.map fun m => memberChars m.1 m.2.chars)).reverse ++ out := by
      intro members
      induction members with
      | nil => intro first out _; rfl
      | cons m rest ih =>
        intro first out hm
        have hrest := fun w hw => hm w (List.mem_cons_of_mem _ hw)
        cases first <;>
          simp [emitMembers, separated, memberChars, emitString_eq, hm m List.mem_cons_self, ih false _ hrest]
    rw [Value.emit, chars_object, hmembers members true _ fun m hm out => ih m hm out]
    simp

theorem toList_render (v : Value) : v.render.toList = v.chars := by
  simp [Value.render, emit_eq]

/-! ## What the texts are made of -/

theorem separated_forall {p : Char → Prop} (hcomma : p ',') {texts : List (List Char)}
    (h : ∀ t ∈ texts, ∀ c ∈ t, p c) (first : Bool) : ∀ c ∈ separated first texts, p c := by
  induction texts generalizing first with
  | nil => intro c hc; cases hc
  | cons t texts ih =>
    have hfirst := h t List.mem_cons_self
    have hrest := ih (fun u hu => h u (List.mem_cons_of_mem _ hu)) false
    intro c hc
    rcases List.mem_append.mp hc with hc | hc
    · cases first with
      | true => exact hfirst c hc
      | false => exact (List.mem_cons.mp hc).elim (· ▸ hcomma) (hfirst c)
    · exact hrest c hc

/-- No control character stands in the text of a value: those of strings and keys are escaped. -/
theorem chars_printable (v : Value) : ∀ c ∈ v.chars, 0x20 ≤ c.toNat := by
  induction v using Value.nested with
  | null => simp [Value.chars, nullWord]
  | bool b => cases b <;> simp [Value.chars, boolWord]
  | number n => exact n.digits_text.printable
  | string s => exact fun c => stringChars_printable
  | array items ih =>
    rw [chars_array]
    have hitems := separated_forall (by decide : 0x20 ≤ ','.toNat) (List.forall_mem_map.mpr ih) true
    intro c hc
    rcases List.mem_cons.mp hc with rfl | hc
    · decide
    rcases List.mem_append.mp hc with hc | hc
    · exact hitems c hc
    · exact List.mem_singleton.mp hc ▸ by decide
  | object members ih =>
    rw [chars_object]
    have hmember : ∀ m ∈ members, ∀ c ∈ memberChars m.1 m.2.chars, 0x20 ≤ c.toNat := by
      intro m hm c hc
      rcases List.mem_append.mp hc with hc | hc
      · exact stringChars_printable hc
      · exact (List.mem_cons.mp hc).elim (fun h => h ▸ by decide) (ih m hm c)
    have hmembers := separated_forall (by decide : 0x20 ≤ ','.toNat) (List.forall_mem_map.mpr hmember) true
    intro c hc
    rcases List.mem_cons.mp hc with rfl | hc
    · decide
    rcases List.mem_append.mp hc with hc | hc
    · exact hmembers c hc
    · exact List.mem_singleton.mp hc ▸ by decide

/-- The text begins as an item or a key does: with no blank, and not with the end of a container. -/
def Begins (cs : List Char) : Prop :=
  ∃ c rest, cs = c :: rest ∧ isSpace c = false ∧ c ≠ ']' ∧ c ≠ '\x7d'

theorem begins_of_startsNumber {c : Char} (h : startsNumber c = true) (rest : List Char) : Begins (c :: rest) := by
  refine ⟨c, rest, rfl, ?_, startsNumber_ne h rfl, startsNumber_ne h rfl⟩
  by_contra hspace
  simp only [isSpace, Bool.not_eq_false, Bool.or_eq_true, beq_iff_eq] at hspace
  rcases hspace with ((rfl | rfl) | rfl) | rfl <;> exact absurd h (by decide)

theorem stringChars_begins (s : String) : Begins (stringChars s) :=
  ⟨'"', _, rfl, by decide, by decide, by decide⟩

theorem chars_begins (v : Value) : Begins v.chars := by
  cases v with
  | null => exact ⟨'n', _, rfl, by decide, by decide, by decide⟩
  | bool b => cases b <;> exact ⟨_, _, rfl, by decide, by decide, by decide⟩
  | number n =>
    obtain ⟨c, rest, heq, hstart⟩ := n.digits_text.starts
    rw [Value.chars, heq]
    exact begins_of_startsNumber hstart rest
  | string s => exact stringChars_begins s
  | array items => exact ⟨'[', _, rfl, by decide, by decide, by decide⟩
  | object members => exact ⟨'\x7b', _, rfl, by decide, by decide, by decide⟩

theorem Begins.append {cs : List Char} (h : Begins cs) (rest : List Char) : Begins (cs ++ rest) := by
  obtain ⟨c, tail, rfl, hc⟩ := h
  exact ⟨c, tail ++ rest, rfl, hc⟩

theorem Begins.skipSpace {cs : List Char} (h : Begins cs) : skipSpace cs = cs := by
  obtain ⟨c, rest, rfl, hspace, -⟩ := h
  rw [Json.skipSpace, List.dropWhile_cons_of_neg (by simp [hspace])]

end ShellHost.Json
