import Mathlib.Data.List.DropRight
import ShellHost.Proofs.Json.Numbers

/-!
# Values that are passed over

A value that nobody asked for is passed over, with a list of the brackets that are open in place of a recursion. It is
checked less than a value that is read; but what can be read is passed over, too, and up to the same place
(`readValue_skips`).

What a scanner leaves is always a suffix of its text. So every step over a text makes it shorter, and the clock of
`skipFrom` never stops early: `skipRest` is `skipFrom` without it.
-/

namespace ShellHost.Json

variable {α σ : Type} {cs rest : List Char}

/-! ## What a scanner leaves -/

theorem skipSpace_suffix (cs : List Char) : skipSpace cs <:+ cs := List.dropWhile_suffix _

theorem skipSpace_skipSpace (cs : List Char) : skipSpace (skipSpace cs) = skipSpace cs := List.dropWhile_idempotent isSpace cs

theorem suffix_of_skipSpace {c : Char} {tail : List Char} (h : skipSpace cs = c :: tail) : tail <:+ cs := by
  have hcons : c :: tail <:+ cs := h ▸ skipSpace_suffix cs
  exact (List.suffix_cons c tail).trans hcons

theorem readWord_suffix {word : List Char} (h : readWord word cs = .ok rest) : rest <:+ cs := by
  induction word generalizing cs with
  | nil =>
    cases h
    exact List.suffix_refl _
  | cons w word ih =>
    cases cs with
    | nil => cases h
    | cons c cs =>
      rw [readWord] at h
      split_ifs at h
      exact (ih h).trans (List.suffix_cons c cs)

/-- One turn of the scanner in a string: the string ends, or some of its characters are passed over. -/
theorem skipChars_turn (h : skipChars cs = .ok rest) :
    cs = '"' :: rest ∨ ∃ front tail, front ≠ [] ∧ cs = front ++ tail ∧ skipChars tail = .ok rest := by
  rw [skipChars.eq_def] at h
  split at h
  · cases h
  · rename_i c behind
    split_ifs at h with hquote hslash hcontrol
    · cases h
      exact .inl (by rw [hquote])
    · split at h
      · cases h
      · rename_i e tail
        split_ifs at h with hunit
        · split at h
          · rename_i h₁ h₂ h₃ h₄ tail
            split at h
            · cases h
            · exact .inr ⟨[c, e, h₁, h₂, h₃, h₄], tail, List.cons_ne_nil _ _, rfl, h⟩
          · cases h
        · split at h
          · exact .inr ⟨[c, e], tail, List.cons_ne_nil _ _, rfl, h⟩
          · cases h
    · exact .inr ⟨[c], behind, List.cons_ne_nil _ _, rfl, h⟩

theorem skipChars_suffix (h : skipChars cs = .ok rest) : rest <:+ cs := by
  induction hn : cs.length using Nat.strong_induction_on generalizing cs with
  | _ n ih =>
    rcases skipChars_turn h with rfl | ⟨front, tail, hfront, rfl, htail⟩
    · exact List.suffix_cons _ _
    · have hshorter : tail.length < n := by
        have hpos := List.length_pos_of_ne_nil hfront
        rw [List.length_append] at hn
        omega
      exact (ih tail.length hshorter htail rfl).trans (List.suffix_append front tail)

theorem dropDigits_suffix (cs : List Char) : dropDigits cs <:+ cs := List.dropWhile_suffix _

theorem skipExponent_suffix (h : skipExponent cs = .ok rest) : rest <:+ cs := by
  unfold skipExponent at h
  dsimp only at h
  split at h
  all_goals split_ifs at h; cases h
  · exact (dropDigits_suffix _).trans (List.suffix_cons _ _)
  · exact (dropDigits_suffix _).trans (List.suffix_cons _ _)
  · exact dropDigits_suffix _

theorem skipFloatEnd_suffix (h : (if startsExponent cs then skipExponent cs.tail else .ok cs) = .ok rest) :
    rest <:+ cs := by
  split_ifs at h
  · exact (skipExponent_suffix h).trans (List.tail_suffix cs)
  · cases h
    exact List.suffix_refl _

theorem skipNumberEnd_suffix (h : skipNumberEnd cs = .ok rest) : rest <:+ cs := by
  unfold skipNumberEnd at h
  split at h
  · split_ifs at h
    exact (skipFloatEnd_suffix h).trans ((dropDigits_suffix _).trans (List.suffix_cons _ _))
  · exact skipFloatEnd_suffix h

theorem skipUnsigned_suffix {c : Char} (h : skipUnsigned (c :: cs) = .ok rest) : rest <:+ cs := by
  rw [skipUnsigned] at h
  split_ifs at h
  · exact skipNumberEnd_suffix h
  · exact (skipNumberEnd_suffix h).trans (dropDigits_suffix cs)

theorem skipNumber_suffix {c : Char} (h : skipNumber (c :: cs) = .ok rest) : rest <:+ cs := by
  unfold skipNumber at h
  split at h
  · rename_i tail heq
    cases heq
    cases cs with
    | nil => cases h
    | cons d cs => exact (skipUnsigned_suffix h).trans (List.suffix_cons d cs)
  · exact skipUnsigned_suffix h

theorem readColon_suffix (h : readColon cs = .ok rest) : rest <:+ cs := by
  unfold readColon at h
  split at h
  · cases h
  · rename_i tail hskip
    cases h
    exact suffix_of_skipSpace hskip
  · cases h

theorem ok_of_map {β ε : Type} {r : Except ε α} {f : α → β} {b : β} (h : r.map f = .ok b) :
    ∃ a, r = .ok a ∧ f a = b := by
  cases r with
  | error e => cases h
  | ok a => exact ⟨a, rfl, Except.ok.inj h⟩

theorem skipScalar_suffix {c : Char} (h : skipScalar (c :: cs) = .ok (some rest)) : rest <:+ cs := by
  rw [skipScalar] at h
  split_ifs at h
  · obtain ⟨_, hread, ⟨⟩⟩ := ok_of_map h
    exact readWord_suffix hread
  · obtain ⟨_, hread, ⟨⟩⟩ := ok_of_map h
    exact readWord_suffix hread
  · obtain ⟨_, hread, ⟨⟩⟩ := ok_of_map h
    exact readWord_suffix hread
  · obtain ⟨_, hread, ⟨⟩⟩ := ok_of_map h
    exact skipNumber_suffix hread
  · obtain ⟨_, hread, ⟨⟩⟩ := ok_of_map h
    exact skipChars_suffix hread
  · cases h

theorem skipKey_suffix {b : Bracket} (h : skipKey b cs = .ok rest) : rest <:+ cs := by
  unfold skipKey at h
  cases b with
  | square =>
    cases h
    exact List.suffix_refl _
  | curly =>
    dsimp only at h
    split at h
    · cases h
    · rename_i tail hskip
      split at h
      · cases h
      · rename_i behind hchars
        exact (readColon_suffix h).trans ((skipChars_suffix hchars).trans (suffix_of_skipSpace hskip))
    · cases h

/-- The text that is left. -/
def Skipped.left : Skipped → List Char
  | complete rest => rest
  | inside _ rest => rest

theorem skipClosing_suffix {brackets : List Bracket} {next : Skipped} (h : skipClosing brackets cs = .ok next) :
    next.left <:+ cs := by
  induction brackets generalizing cs with
  | nil =>
    cases h
    exact List.suffix_refl _
  | cons b brackets ih =>
    rw [skipClosing] at h
    split at h
    · cases h
    · rename_i c tail hskip
      have htail := suffix_of_skipSpace hskip
      split_ifs at h
      · obtain ⟨_, hkey, rfl⟩ := ok_of_map h
        exact (skipKey_suffix hkey).trans htail
      · exact (ih h).trans htail

theorem skipOpening_suffix {b : Bracket} {brackets : List Bracket} {next : Skipped}
    (h : skipOpening b brackets cs = .ok next) : next.left <:+ cs := by
  unfold skipOpening at h
  split at h
  · cases h
  · rename_i c tail hskip
    split_ifs at h
    · exact (skipClosing_suffix h).trans (suffix_of_skipSpace hskip)
    · obtain ⟨_, hkey, rfl⟩ := ok_of_map h
      rw [← hskip] at hkey
      exact (skipKey_suffix hkey).trans (skipSpace_suffix cs)

/-- Every step passes over a character at least. -/
theorem skipStep_shorter {brackets : List Bracket} {next : Skipped} (h : skipStep brackets cs = .ok next) :
    next.left.length < cs.length := by
  unfold skipStep at h
  cases hskip : skipSpace cs with
  | nil =>
    rw [hskip] at h
    cases h
  | cons c tail =>
    rw [hskip] at h
    have htail : tail.length < cs.length := by
      have hcons : c :: tail <:+ cs := hskip ▸ skipSpace_suffix cs
      exact hcons.length_le
    have hleft : next.left <:+ tail := by
      dsimp only at h
      split at h
      · cases h
      · rename_i rest hscalar
        exact (skipClosing_suffix h).trans (skipScalar_suffix hscalar)
      · exact skipOpening_suffix h
    exact Nat.lt_of_le_of_lt hleft.length_le htail

/-! ## Passing over without a clock -/

theorem skipFrom_clock (brackets : List Bracket) {clock clock' : List Char} (h : cs.length ≤ clock.length)
    (h' : cs.length ≤ clock'.length) : skipFrom clock brackets cs = skipFrom clock' brackets cs := by
  induction clock generalizing brackets cs clock' with
  | nil =>
    -- an empty text is refused, whatever the clock says
    obtain rfl : cs = [] := List.length_eq_zero_iff.mp (Nat.le_zero.mp h)
    cases clock' with
    | nil => rfl
    | cons _ clock' => rfl
  | cons _ clock ih =>
    cases clock' with
    | nil =>
      obtain rfl : cs = [] := List.length_eq_zero_iff.mp (Nat.le_zero.mp h')
      rfl
    | cons _ clock' =>
      rw [skipFrom, skipFrom]
      cases hstep : skipStep brackets cs with
      | error f => rfl
      | ok next =>
        have hshorter := skipStep_shorter hstep
        cases next with
        | complete rest => rfl
        | inside brackets rest =>
          exact ih brackets (Nat.le_of_lt_succ (Nat.lt_of_lt_of_le hshorter h))
            (Nat.le_of_lt_succ (Nat.lt_of_lt_of_le hshorter h'))

/-- Passes over the rest of the containers that are open. -/
def skipRest (brackets : List Bracket) (cs : List Char) : Except Fault (List Char) := skipFrom cs brackets cs

/-- Goes on after a step. -/
def goOn : Except Fault Skipped → Except Fault (List Char)
  | .error f => .error f
  | .ok (.complete rest) => .ok rest
  | .ok (.inside brackets rest) => skipRest brackets rest

theorem skipRest_eq (brackets : List Bracket) (cs : List Char) : skipRest brackets cs = goOn (skipStep brackets cs) := by
  cases cs with
  | nil => rfl
  | cons c cs =>
    rw [skipRest, skipFrom]
    cases hstep : skipStep brackets (c :: cs) with
    | error f => rfl
    | ok next =>
      have hshorter := skipStep_shorter hstep
      cases next with
      | complete rest => rfl
      | inside brackets rest => exact skipFrom_clock brackets (Nat.le_of_lt_succ hshorter) le_rfl

theorem skipRest_skipSpace (brackets : List Bracket) (cs : List Char) :
    skipRest brackets (skipSpace cs) = skipRest brackets cs := by
  rw [skipRest_eq, skipRest_eq, skipStep, skipStep, skipSpace_skipSpace]

/-! ## What can be read is passed over -/

theorem skipChars_unit {h₁ h₂ h₃ h₄ : Char} {n : Nat} (hunit : hexUnit? h₁ h₂ h₃ h₄ = some n) (tail : List Char) :
    skipChars ('\\' :: 'u' :: h₁ :: h₂ :: h₃ :: h₄ :: tail) = skipChars tail := by
  rw [skipChars.eq_def]
  simp [hunit]

/-- One turn of the reader in a string: the scanner passes over what is read, the halves of a pair one by one. -/
theorem readChars_turn {s : String} {out : List Char} (h : readChars out cs = .ok (s, rest)) :
    cs = '"' :: rest ∨ ∃ out' tail, tail.length < cs.length ∧ readChars out' tail = .ok (s, rest) ∧
      skipChars cs = skipChars tail := by
  rw [readChars.eq_def] at h
  split at h
  · cases h
  · rename_i c behind
    split_ifs at h with hquote hslash hcontrol
    · cases h
      exact .inl (by rw [hquote])
    · split at h
      · cases h
      · rename_i e tail
        split_ifs at h with hunit
        · obtain rfl := hslash
          obtain rfl := hunit
          split at h
          · rename_i h₁ h₂ h₃ h₄ tail
            split at h
            · cases h
            · rename_i n hfirst
              split_ifs at h with hsingle hlone
              · exact .inr ⟨_, tail, by simp only [List.length_cons]; omega, h, skipChars_unit hfirst tail⟩
              · split at h
                · rename_i l₁ l₂ l₃ l₄ more
                  split at h
                  · cases h
                  · rename_i m hsecond
                    split_ifs at h with hlow
                    refine .inr ⟨_, more, by simp only [List.length_cons]; omega, h, ?_⟩
                    rw [skipChars_unit hfirst, skipChars_unit hsecond]
                · cases h
          · cases h
        · split at h
          · rename_i x hletter
            refine .inr ⟨_, tail, by simp only [List.length_cons]; omega, h, ?_⟩
            rw [skipChars.eq_def]
            simp [hslash, hunit, hletter]
          · cases h
    · refine .inr ⟨_, behind, by simp only [List.length_cons]; omega, h, ?_⟩
      rw [skipChars.eq_def]
      simp [hquote, hslash, hcontrol]

theorem readChars_skips {s : String} {out : List Char} (h : readChars out cs = .ok (s, rest)) :
    skipChars cs = .ok rest := by
  induction hn : cs.length using Nat.strong_induction_on generalizing cs out with
  | _ n ih =>
    rcases readChars_turn h with rfl | ⟨out', tail, hshorter, htail, hskip⟩
    · rw [skipChars.eq_def]
      simp
    · rw [hskip]
      exact ih tail.length (hn ▸ hshorter) htail rfl

/-- The scanner passes over values that this reader gives, be it in whatever brackets. -/
def Skips (item : List Char → Reading α) : Prop :=
  ∀ ⦃cs a rest⦄, item cs = .ok (a, rest) → ∀ brackets, skipRest brackets cs = goOn (skipClosing brackets rest)

/-- What the scanner makes of a container behind its opening bracket, or behind one of its values. -/
def skipNext (b : Bracket) (first : Bool) (brackets : List Bracket) (cs : List Char) : Except Fault Skipped :=
  if first then skipOpening b brackets cs else skipClosing (b :: brackets) cs

theorem skipNext_close {b : Bracket} (h : skipSpace cs = b.closing :: rest) (first : Bool) (brackets : List Bracket) :
    skipNext b first brackets cs = skipClosing brackets rest := by
  have hcomma : b.closing ≠ ',' := by cases b <;> decide
  cases first with
  | true => simp [skipNext, skipOpening, h]
  | false => simp [skipNext, skipClosing, h, hcomma]

theorem nextItem_close {first : Bool} (h : nextItem first cs = .ok (.close rest)) : skipSpace cs = ']' :: rest := by
  unfold nextItem at h
  split at h
  · cases h
  · rename_i c tail hskip
    split_ifs at h with hclose
    · cases h
      rw [hskip, hclose]
    · cases h
    · split at h <;> cases h

theorem nextItem_item {first : Bool} (h : nextItem first cs = .ok (.item rest)) (brackets : List Bracket) :
    goOn (skipNext .square first brackets cs) = skipRest (.square :: brackets) rest := by
  unfold nextItem at h
  split at h
  · cases h
  · rename_i c tail hskip
    split_ifs at h with hclose hfirst hcomma
    · cases h
    · cases h
      have hopen : c ≠ Bracket.square.closing := hclose
      simp only [skipNext, if_pos hfirst, skipOpening, hskip, if_neg hopen]
      rfl
    · -- the blanks behind the comma are passed over with the item
      have hrest : rest = skipSpace tail := by
        split at h
        · cases h
        · cases h
        · cases h
          rfl
      simp only [skipNext, if_neg hfirst, skipClosing, hskip, if_pos hcomma]
      rw [hrest, skipRest_skipSpace]
      rfl

theorem readItems_skips {item : List Char → Reading α} (hitem : Skips item) {clock : List Char} {first : Bool}
    {out items : List α} (h : readItems item clock first out cs = .ok (items, rest)) (brackets : List Bracket) :
    goOn (skipNext .square first brackets cs) = goOn (skipClosing brackets rest) := by
  induction clock generalizing first out cs with
  | nil => cases h
  | cons _ clock ih =>
    rw [readItems] at h
    split at h
    · cases h
    · rename_i behind hnext
      cases h
      rw [skipNext_close (nextItem_close hnext)]
    · rename_i behind hnext
      split at h
      · cases h
      · rename_i a left hread
        rw [nextItem_item hnext, hitem hread]
        exact ih h

theorem skipKey_of_readKey {cs' behind : List Char} {name : String} (hskip : skipSpace cs' = cs)
    (hkey : readKey cs = .ok (.key name behind)) (hcolon : readColon behind = .ok rest) :
    skipKey .curly cs' = .ok rest := by
  unfold readKey at hkey
  split at hkey
  · rename_i tail
    split at hkey
    · cases hkey
    · rename_i hchars
      cases hkey
      simp only [skipKey, hskip, readChars_skips hchars, hcolon]
  · cases hkey

theorem readKey_ne_close : readKey cs ≠ .ok (.close rest) := by
  unfold readKey
  split
  · split <;> exact nofun
  · exact nofun

theorem nextKey_close {first : Bool} (h : nextKey first cs = .ok (.close rest)) : skipSpace cs = '\x7d' :: rest := by
  unfold nextKey at h
  split at h
  · cases h
  · rename_i c tail hskip
    split_ifs at h with hclose
    · cases h
      rw [hskip, hclose]
    · exact absurd h readKey_ne_close
    · split at h
      · cases h
      · cases h
      · exact absurd h readKey_ne_close

theorem nextKey_key {first : Bool} {name : String} {behind : List Char} (h : nextKey first cs = .ok (.key name behind))
    (hcolon : readColon behind = .ok rest) (brackets : List Bracket) :
    goOn (skipNext .curly first brackets cs) = skipRest (.curly :: brackets) rest := by
  unfold nextKey at h
  split at h
  · cases h
  · rename_i c tail hskip
    split_ifs at h with hclose hfirst hcomma
    · cases h
    · have hopen : c ≠ Bracket.curly.closing := hclose
      have hblank : skipSpace (c :: tail) = c :: tail := by rw [← hskip, skipSpace_skipSpace]
      have hkey := skipKey_of_readKey hblank h hcolon
      simp only [skipNext, if_pos hfirst, skipOpening, hskip, if_neg hopen, hkey]
      rfl
    · have hkey : readKey (skipSpace tail) = .ok (.key name behind) := by
        split at h
        · cases h
        · cases h
        · exact h
      simp only [skipNext, if_neg hfirst, skipClosing, hskip, if_pos hcomma, skipKey_of_readKey rfl hkey hcolon]
      rfl

theorem readMembers_skips {value : List Char → Reading Value} (hvalue : Skips value) {clock : List Char} {first : Bool}
    {out members : List (String × Value)}
    (h : readMembers (readMember value) clock first out cs = .ok (members, rest)) (brackets : List Bracket) :
    goOn (skipNext .curly first brackets cs) = goOn (skipClosing brackets rest) := by
  induction clock generalizing first out cs with
  | nil => cases h
  | cons _ clock ih =>
    rw [readMembers] at h
    split at h
    · cases h
    · rename_i behind hnext
      cases h
      rw [skipNext_close (nextKey_close hnext)]
    · rename_i name behind hnext
      split at h
      · cases h
      · rename_i out' left hmember
        rw [readMember] at hmember
        split at hmember
        · cases hmember
        · rename_i start hcolon
          split at hmember
          · cases hmember
          · rename_i hread
            cases hmember
            rw [nextKey_key hnext hcolon, hvalue hread]
            exact ih h

/-- A value that is no container is passed over in one step. -/
theorem skipRest_of_scalar (h : skipScalar (skipSpace cs) = .ok (some rest)) (brackets : List Bracket) :
    skipRest brackets cs = goOn (skipClosing brackets rest) := by
  rw [skipRest_eq, skipStep, h]

theorem skipRest_of_open (b : Bracket) {c : Char} (hskip : skipSpace cs = c :: rest)
    (hc : c = if b = .square then '[' else '\x7b') (brackets : List Bracket) :
    skipRest brackets cs = goOn (skipNext b true brackets rest) := by
  have hscalar : skipScalar (c :: rest) = .ok none := by
    cases b <;> subst hc <;> rfl
  rw [skipRest_eq, skipStep, hskip, hscalar]
  cases b <;> subst hc <;> rfl

theorem readValue_scalar {room : Nat} {c : Char} {tail : List Char} {v : Value} (hskip : skipSpace cs = c :: tail)
    (hsquare : c ≠ '[') (hcurly : c ≠ '\x7b') (h : readValue room cs = .ok (v, rest)) :
    skipScalar (c :: tail) = .ok (some rest) := by
  rw [readValue, hskip] at h
  dsimp only at h
  rw [skipScalar]
  split_ifs at h ⊢
  · obtain ⟨_, hread, ⟨⟩⟩ := ok_of_map h
    rw [hread]
    rfl
  · obtain ⟨_, hread, ⟨⟩⟩ := ok_of_map h
    rw [hread]
    rfl
  · obtain ⟨_, hread, ⟨⟩⟩ := ok_of_map h
    rw [hread]
    rfl
  · obtain ⟨⟨n, left⟩, hread, ⟨⟩⟩ := ok_of_map h
    rw [readNumber_skips hread]
    rfl
  · obtain ⟨⟨s, left⟩, hread, ⟨⟩⟩ := ok_of_map h
    rw [readChars_skips hread]
    rfl

theorem readValue_skipsRest (room : Nat) : Skips (readValue room) := by
  induction room using Nat.strong_induction_on with
  | _ room ih =>
    intro cs v rest h brackets
    cases hskip : skipSpace cs with
    | nil =>
      rw [readValue, hskip] at h
      cases h
    | cons c tail =>
      by_cases hsquare : c = '['
      · subst hsquare
        rw [readValue, hskip] at h
        cases room with
        | zero => cases h
        | succ room =>
          obtain ⟨⟨items, left⟩, hread, ⟨⟩⟩ := ok_of_map h
          rw [skipRest_of_open .square hskip rfl]
          exact readItems_skips (ih room room.lt_succ_self) hread brackets
      by_cases hcurly : c = '\x7b'
      · subst hcurly
        rw [readValue, hskip] at h
        cases room with
        | zero => cases h
        | succ room =>
          obtain ⟨⟨members, left⟩, hread, ⟨⟩⟩ := ok_of_map h
          rw [skipRest_of_open .curly hskip rfl]
          exact readMembers_skips (ih room room.lt_succ_self) hread brackets
      have hscalar := readValue_scalar hskip hsquare hcurly h
      exact skipRest_of_scalar (by rw [hskip, hscalar]) brackets

/-- What can be read as a value is passed over, up to where the value ends. -/
theorem readValue_skips {room : Nat} {v : Value} (h : readValue room cs = .ok (v, rest)) : skipValue cs = .ok rest :=
  readValue_skipsRest room h []

end ShellHost.Json
