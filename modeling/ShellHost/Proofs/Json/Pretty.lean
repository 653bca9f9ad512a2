import ShellHost.Json.Decoder
import ShellHost.Proofs.Json.Decoding

/-!
# Reading back texts of several lines

`Value.renderPretty` gives every item and every member a line of its own. `Value.prettyChars` is that text from front
to back. The reader passes over the blanks that begin a line, so it gives back the same value as from the text on one
line (`parse_renderPretty`).
-/

namespace ShellHost.Json

variable {α : Type}

/-! ## The text -/

/-- The beginning of a line at a level. -/
def lineStart (level : Nat) : List Char := '\n' :: List.replicate (2 * level) ' '

/-- What stands between the brackets of a container: a line for each part, and one for the closing bracket. Without
parts there is nothing. -/
def block (level : Nat) : List (List Char) → List Char
  | [] => []
  | t :: rest => separated true ((t :: rest).map (lineStart (level + 1) ++ ·)) ++ lineStart level

/-- A member on a line of several, given the text of its value. -/
def prettyMemberChars (key : String) (value : List Char) : List Char := stringChars key ++ ':' :: ' ' :: value

mutual

/-- The text of a value over several lines. -/
def Value.prettyChars (level : Nat) : Value → List Char
  | .null => nullWord
  | .bool b => boolWord b
  | .number n => n.digits
  | .string s => stringChars s
  | .array items => '[' :: (block level (prettyItemTexts (level + 1) items) ++ [']'])
  | .object members => '\x7b' :: (block level (prettyMemberTexts (level + 1) members) ++ ['\x7d'])

/-- The texts of some items. -/
def prettyItemTexts (level : Nat) : List Value → List (List Char)
  | [] => []
  | v :: rest => v.prettyChars level :: prettyItemTexts level rest

/-- The texts of some members. -/
def prettyMemberTexts (level : Nat) : List (String × Value) → List (List Char)
  | [] => []
  | m :: rest => prettyMemberChars m.1 (m.2.prettyChars level) :: prettyMemberTexts level rest

end

theorem prettyItemTexts_eq_map (level : Nat) (items : List Value) :
    prettyItemTexts level items = items.map (Value.prettyChars level) := by
  induction items with
  | nil => rfl
  | cons v rest ih => rw [prettyItemTexts, ih, List.map_cons]

theorem prettyMemberTexts_eq_map (level : Nat) (members : List (String × Value)) :
    prettyMemberTexts level members = members.map fun m => prettyMemberChars m.1 (m.2.prettyChars level) := by
  induction members with
  | nil => rfl
  | cons m rest ih => rw [prettyMemberTexts, ih, List.map_cons]

/-- Lines behind an opening bracket, the last one with the closing bracket `close` and what follows the container. -/
def linesText (level : Nat) (close : Char) (first : Bool) (texts : List (List Char)) (rest : List Char) : List Char :=
  separated first (texts.map (lineStart (level + 1) ++ ·)) ++ (lineStart level ++ close :: rest)

theorem block_append (level : Nat) {texts : List (List Char)} (h : texts ≠ []) (close : Char) (rest : List Char) :
    block level texts ++ close :: rest = linesText level close true texts rest := by
  cases texts with
  | nil => exact absurd rfl h
  | cons t texts => rw [block, linesText, List.append_assoc]

theorem newline_eq (level : Nat) (out : List Char) : newline level out = (lineStart level).reverse ++ out := by
  simp [newline, lineStart, push_eq]

theorem emitPrettyItems_eq (level : Nat) {items : List Value}
    (h : ∀ v ∈ items, ∀ out, v.emitPretty level out = (v.prettyChars level).reverse ++ out) (out : List Char) :
    emitPrettyItems level items out
      = (separated false ((items.map (Value.prettyChars level)).map (lineStart level ++ ·))).reverse ++ out := by
  induction items generalizing out with
  | nil => rfl
  | cons v rest ih =>
    have hrest := ih fun w hw => h w (List.mem_cons_of_mem _ hw)
    simp [emitPrettyItems, separated, h v List.mem_cons_self, hrest, newline_eq]

theorem emitPrettyMembers_eq (level : Nat) {members : List (String × Value)}
    (h : ∀ m ∈ members, ∀ out, m.2.emitPretty level out = (m.2.prettyChars level).reverse ++ out) (out : List Char) :
    emitPrettyMembers level members out
      = (separated false ((members.map fun m => prettyMemberChars m.1 (m.2.prettyChars level)).map
          (lineStart level ++ ·))).reverse ++ out := by
  induction members generalizing out with
  | nil => rfl
  | cons m rest ih =>
    have hrest := ih fun n hn => h n (List.mem_cons_of_mem _ hn)
    simp [emitPrettyMembers, separated, prettyMemberChars, h m List.mem_cons_self, hrest, newline_eq, emitString_eq]

/-- What is written over several lines does not depend on what was written before it. -/
theorem emitPretty_eq (v : Value) (level : Nat) (out : List Char) :
    v.emitPretty level out = (v.prettyChars level).reverse ++ out := by
  induction v using Value.nested generalizing level out with
  | null | bool | number => simp [Value.emitPretty, Value.prettyChars, push_eq]
  | string s => rw [Value.emitPretty, Value.prettyChars, emitString_eq]
  | array items ih =>
    rw [Value.prettyChars, prettyItemTexts_eq_map]
    cases items with
    | nil => rfl
    | cons v rest =>
      have hfirst := ih v List.mem_cons_self
      have hrest := emitPrettyItems_eq (level + 1) fun w hw => ih w (List.mem_cons_of_mem _ hw) (level + 1)
      simp [Value.emitPretty, block, separated, newline_eq, hfirst, hrest]
  | object members ih =>
    rw [Value.prettyChars, prettyMemberTexts_eq_map]
    cases members with
    | nil => rfl
    | cons m rest =>
      have hfirst := ih m List.mem_cons_self
      have hrest := emitPrettyMembers_eq (level + 1) fun n hn => ih n (List.mem_cons_of_mem _ hn) (level + 1)
      simp [Value.emitPretty, block, separated, prettyMemberChars, newline_eq, emitString_eq, hfirst, hrest]

theorem toList_renderPretty (v : Value) : v.renderPretty.toList = v.prettyChars 0 := by
  simp [Value.renderPretty, emitPretty_eq]

/-! ## Blanks -/

theorem skipSpace_lineStart (level : Nat) (cs : List Char) : skipSpace (lineStart level ++ cs) = skipSpace cs := by
  refine List.dropWhile_append_of_pos fun c hc => ?_
  rcases List.mem_cons.mp hc with rfl | hc
  · rfl
  · rw [(List.mem_replicate.mp hc).2]
    rfl

theorem readValue_blank (room : Nat) (cs : List Char) : readValue room (' ' :: cs) = readValue room cs := by
  have hskip : skipSpace (' ' :: cs) = skipSpace cs := rfl
  rw [readValue.eq_def, readValue.eq_def room cs, hskip]

theorem delimited_lineStart (level : Nat) (cs : List Char) : Delimited (lineStart level ++ cs) := by
  intro c hc
  cases hc
  exact .inr (.inr (.inr rfl))

theorem linesText_delimited (level : Nat) (close : Char) (texts : List (List Char)) (rest : List Char) :
    Delimited (linesText level close false texts rest) :=
  separated_delimited _ (delimited_lineStart level _)

theorem lines_clock (level : Nat) (close : Char) (texts : List (List Char)) (rest : List Char) :
    texts.length < (linesText level close true texts rest).length := by
  have hne : ∀ t ∈ texts.map (lineStart (level + 1) ++ ·), t ≠ [] :=
    List.forall_mem_map.mpr fun _ _ => List.cons_ne_nil _ _
  have htail : lineStart level ++ close :: rest ≠ [] := List.cons_ne_nil _ _
  simpa only [linesText, List.length_map] using separated_clock true hne htail

theorem linesText_cons (level : Nat) (close : Char) (first : Bool) (t : List Char) (texts : List (List Char))
    (rest : List Char) :
    linesText level close first (t :: texts) rest
      = if first then lineStart (level + 1) ++ (t ++ linesText level close false texts rest)
        else ',' :: (lineStart (level + 1) ++ (t ++ linesText level close false texts rest)) := by
  have hcons := separated_cons_append first (lineStart (level + 1) ++ t) (texts.map (lineStart (level + 1) ++ ·))
    (lineStart level ++ close :: rest)
  rwa [List.append_assoc] at hcons

theorem prettyChars_begins (level : Nat) (v : Value) : Begins (v.prettyChars level) := by
  cases v with
  | null => exact chars_begins .null
  | bool b => exact chars_begins (.bool b)
  | number n => exact chars_begins (.number n)
  | string s => exact chars_begins (.string s)
  | array items => exact ⟨'[', _, rfl, by decide, by decide, by decide⟩
  | object members => exact ⟨'\x7b', _, rfl, by decide, by decide, by decide⟩

/-! ## The loops on lines -/

/-- Items are read line by line. -/
theorem readItems_lines (item : List Char → Reading α) (f : Value → α) (level : Nat) {items : List Value}
    (h : ∀ v ∈ items, ∀ rest, Delimited rest → item (v.prettyChars (level + 1) ++ rest) = .ok (f v, rest))
    {clock : List Char} (hclock : items.length < clock.length) (first : Bool) (out : List α) (rest : List Char) :
    readItems item clock first out (linesText level ']' first (items.map (Value.prettyChars (level + 1))) rest)
      = .ok (out.reverse ++ items.map f, rest) := by
  rw [linesText, List.map_map]
  exact readItems_separated item (Value.prettyChars (level + 1)) f (skipSpace_lineStart (level + 1))
    (skipSpace_lineStart level _) (delimited_lineStart level _) (prettyChars_begins (level + 1)) h hclock first out

theorem readMember_pretty {read : List Char → Reading Value} {v : Value} {cs rest : List Char}
    (h : read (' ' :: cs) = .ok (v, rest)) (key : String) (out : List (String × Value)) :
    readMember read key out (':' :: ' ' :: cs) = .ok (insertDescending key v out, rest) := by
  have hcolon : readColon (':' :: ' ' :: cs) = .ok (' ' :: cs) := rfl
  rw [readMember, hcolon]
  simp only [h]

/-- Members are read line by line. -/
theorem readMembers_lines (read : List Char → Reading Value) (f : Value → Value) (level : Nat)
    {members : List (String × Value)}
    (h : ∀ m ∈ members, ∀ rest, Delimited rest →
      read (' ' :: (m.2.prettyChars (level + 1) ++ rest)) = .ok (f m.2, rest))
    {clock : List Char} (hclock : members.length < clock.length) (first : Bool) (out : List (String × Value))
    (rest : List Char) :
    readMembers (readMember read) clock first out
        (linesText level '\x7d' first (members.map fun m => prettyMemberChars m.1 (m.2.prettyChars (level + 1))) rest)
      = .ok ((members.map fun m => (m.1, f m.2)).foldl (fun out m => insertDescending m.1 m.2 out) out, rest) := by
  induction members generalizing clock first out with
  | nil =>
    cases clock with
    | nil => cases hclock
    | cons tick clock => exact readMembers_close (readMember read) tick clock first out (skipSpace_lineStart level _)
  | cons m members ih =>
    cases clock with
    | nil => cases hclock
    | cons tick clock =>
      have hm := readMember_pretty (h m List.mem_cons_self _ (linesText_delimited level '\x7d'
        (members.map fun m => prettyMemberChars m.1 (m.2.prettyChars (level + 1))) rest)) m.1 out
      have hmembers := ih (fun n hn => h n (List.mem_cons_of_mem _ hn)) (Nat.lt_of_succ_lt_succ hclock) false
        (insertDescending m.1 (f m.2) out)
      have hskip := (skipSpace_lineStart (level + 1) _).trans ((stringChars_begins m.1).append
        (':' :: ' ' :: (m.2.prettyChars (level + 1) ++ linesText level '\x7d' false
          (members.map fun m => prettyMemberChars m.1 (m.2.prettyChars (level + 1))) rest))).skipSpace
      have hnext := nextKey_string first hskip
      rw [List.map_cons, linesText_cons, prettyMemberChars]
      simp only [List.append_assoc, List.cons_append]
      rw [readMembers_next (readMember read) tick clock out hnext, hm]
      exact hmembers

/-! ## Whole values -/

/-- What stands between the brackets of an array, and the closing bracket, are read to the end. -/
theorem readItems_block (item : List Char → Reading α) (f : Value → α) (level : Nat) {items : List Value}
    (h : ∀ v ∈ items, ∀ rest, Delimited rest → item (v.prettyChars (level + 1) ++ rest) = .ok (f v, rest))
    (rest : List Char) {cs : List Char}
    (hcs : cs = block level (items.map (Value.prettyChars (level + 1))) ++ ']' :: rest) :
    readItems item cs true [] cs = .ok (items.map f, rest) := by
  subst hcs
  cases items with
  | nil => rfl
  | cons v items =>
    have hclock := lines_clock level ']' ((v :: items).map (Value.prettyChars (level + 1))) rest
    have hne : (v :: items).map (Value.prettyChars (level + 1)) ≠ [] := List.cons_ne_nil _ _
    rw [List.length_map] at hclock
    rw [block_append level hne]
    exact readItems_lines item f level h hclock true [] rest

/-- What stands between the braces of an object, and the closing brace, are read to the end. -/
theorem readMembers_block (read : List Char → Reading Value) (f : Value → Value) (level : Nat)
    {members : List (String × Value)}
    (h : ∀ m ∈ members, ∀ rest, Delimited rest →
      read (' ' :: (m.2.prettyChars (level + 1) ++ rest)) = .ok (f m.2, rest))
    (rest : List Char) {cs : List Char}
    (hcs : cs = block level (members.map fun m => prettyMemberChars m.1 (m.2.prettyChars (level + 1)))
      ++ '\x7d' :: rest) :
    readMembers (readMember read) cs true [] cs
      = .ok ((members.map fun m => (m.1, f m.2)).foldl (fun out m => insertDescending m.1 m.2 out) [], rest) := by
  subst hcs
  cases members with
  | nil => rfl
  | cons m members =>
    have hclock := lines_clock level '\x7d'
      ((m :: members).map fun m => prettyMemberChars m.1 (m.2.prettyChars (level + 1))) rest
    have hne : ((m :: members).map fun m => prettyMemberChars m.1 (m.2.prettyChars (level + 1))) ≠ [] :=
      List.cons_ne_nil _ _
    rw [List.length_map] at hclock
    rw [block_append level hne]
    exact readMembers_lines read f level h hclock true [] rest

/-- The text of a value without floats over several lines is read as the value, sorted, if it is not too deep. -/
theorem readValue_prettyChars {v : Value} (hv : v.FloatFree) {room : Nat} (hdepth : v.depth ≤ room) (level : Nat)
    {rest : List Char} (h : Delimited rest) : readValue room (v.prettyChars level ++ rest) = .ok (v.sort, rest) := by
  induction v using Value.nested generalizing room level rest with
  | null => exact readValue_chars hv hdepth h
  | bool b => exact readValue_chars hv hdepth h
  | number n => exact readValue_chars hv hdepth h
  | string s => exact readValue_chars hv hdepth h
  | array items ih =>
    rw [floatFree_array] at hv
    cases room with
    | zero => cases hdepth
    | succ room =>
      rw [depth_array_le] at hdepth
      have hitems := readItems_block (readValue room) Value.sort level
        (fun v hmem rest hrest => ih v hmem (hv v hmem) (hdepth v hmem) (level + 1) hrest) rest rfl
      rw [Value.prettyChars, prettyItemTexts_eq_map, List.cons_append, List.append_assoc, List.singleton_append,
        readValue_square, hitems, Value.sort, sortItems_eq_map]
      rfl
  | object members ih =>
    rw [floatFree_object] at hv
    cases room with
    | zero => cases hdepth
    | succ room =>
      rw [depth_object_le] at hdepth
      -- between the colon and the value stands a blank
      have hmembers := readMembers_block (readValue room) Value.sort level
        (fun m hmem rest hrest =>
          (readValue_blank room _).trans (ih m hmem (hv m hmem) (hdepth m hmem) (level + 1) hrest)) rest rfl
      rw [Value.prettyChars, prettyMemberTexts_eq_map, List.cons_append, List.append_assoc, List.singleton_append,
        readValue_curly, hmembers, Value.sort, sortValues_eq_map]
      rfl

/-- What is written over several lines is read back, its members in order, if it is not too deep. -/
theorem parse_renderPretty {v : Value} (hv : v.FloatFree) (hdepth : v.depth ≤ nestingLimit) :
    Value.parse v.renderPretty = .ok v.sort := by
  have hread := readValue_prettyChars hv hdepth 0 delimited_nil
  rw [List.append_nil] at hread
  rw [Value.parse, Decoder.parse, toList_renderPretty]
  have hvalue : value.ofText nestingLimit (v.prettyChars 0) = .ok (v.sort, []) := hread
  rw [hvalue]
  rfl

end ShellHost.Json
