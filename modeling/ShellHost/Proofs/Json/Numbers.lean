import Mathlib.Data.Nat.Digits.Lemmas
import ShellHost.Json.Reader

/-!
# Reading back numbers

A whole number is read back as it is. A float need not come back as it was, but it is read to its last digit: reading
a number and passing over it stop at the same place (`readNumber_skips`), and what the printer writes has the form of
a number (`NumberText`), which is passed over whole.
-/

namespace ShellHost.Json

/-! ## Digits -/

/-- The text does not go on with a digit. -/
abbrev NoDigit (cs : List Char) : Prop := startsWithDigit cs = false

theorem isDigit_of_mem_toDigits {n : Nat} {c : Char} (h : c ∈ Nat.toDigits 10 n) : isDigit c = true := by
  have hc := Nat.isDigit_of_mem_toDigits (by decide) le_rfl h
  simpa [isDigit, Char.isDigit, Char.le_def] using hc

theorem takeDigits_noDigit {cs : List Char} (h : NoDigit cs) (n count : Nat) :
    takeDigits n count cs = (n, count, cs) := by
  cases cs with
  | nil => rfl
  | cons c cs => simp [takeDigits, show isDigit c = false from h]

/-- Digits that are left behind the significand are passed over next. -/
theorem dropDigits_takeDigits (n count : Nat) (cs : List Char) :
    dropDigits (takeDigits n count cs).2.2 = dropDigits cs := by
  induction cs generalizing n count with
  | nil => rfl
  | cons c cs ih =>
    rw [takeDigits]
    split_ifs with h
    · rw [ih, dropDigits, dropDigits, List.dropWhile_cons_of_pos h.1]
    · rfl

theorem countDigits_snd (count : Nat) (cs : List Char) : (countDigits count cs).2 = dropDigits cs := by
  induction cs generalizing count with
  | nil => rfl
  | cons c cs ih =>
    rw [countDigits, dropDigits, List.dropWhile_cons]
    split_ifs
    · exact ih (count + 1)
    · rfl

theorem dropDigits_append {ds rest : List Char} (hds : ∀ c ∈ ds, isDigit c = true) (h : NoDigit rest) :
    dropDigits (ds ++ rest) = rest := by
  rw [dropDigits, List.dropWhile_append_of_pos hds]
  cases rest with
  | nil => rfl
  | cons c rest =>
    have hc : isDigit c = false := h
    rw [List.dropWhile_cons_of_neg (by simp [hc])]

/-! ## Reading a number and passing over it -/

theorem finishFloat_skips {negative : Bool} {n : Nat} {exponent : Int} {cs rest : List Char} {m : Number}
    (h : finishFloat negative n exponent cs = .ok (m, rest)) : rest = cs := by
  unfold finishFloat at h
  split at h
  · cases h
    rfl
  · cases h

theorem readExponentDigits_skips {negative down : Bool} {n e : Nat} {exponent : Int} {cs rest : List Char}
    {m : Number} (h : readExponentDigits negative n exponent down e cs = .ok (m, rest)) : rest = dropDigits cs := by
  induction cs generalizing e with
  | nil => exact finishFloat_skips h
  | cons c cs ih =>
    rw [readExponentDigits] at h
    rw [dropDigits, List.dropWhile_cons]
    by_cases hc : isDigit c = true
    · simp only [if_pos hc] at h ⊢
      split_ifs at h
      · exact ih h
      · cases h
        rfl
    · simp only [if_neg hc] at h ⊢
      exact finishFloat_skips h

/-- Behind the sign an exponent begins with a digit and goes on to the last one. -/
theorem digits_of_exponent {negative down : Bool} {n : Nat} {exponent : Int} {ds rest : List Char} {m : Number}
    (h : (match ds with
      | [] => .error (Fault.behind .endOfValue [])
      | c :: tail =>
        if isDigit c then readExponentDigits negative n exponent down (digitValue c) tail
        else .error (.next .invalidNumber ds)) = Except.ok (m, rest)) :
    startsWithDigit ds = true ∧ dropDigits ds = rest := by
  cases ds with
  | nil => cases h
  | cons c tail =>
    by_cases hc : isDigit c = true
    · simp only [if_pos hc] at h
      exact ⟨hc, by rw [readExponentDigits_skips h, dropDigits, List.dropWhile_cons_of_pos hc, dropDigits]⟩
    · simp only [if_neg hc] at h
      cases h

theorem readExponent_skips {negative : Bool} {n : Nat} {exponent : Int} {cs rest : List Char} {m : Number}
    (h : readExponent negative n exponent cs = .ok (m, rest)) : skipExponent cs = .ok rest := by
  unfold readExponent at h
  split at h
  rename_i down ds hsign
  obtain ⟨hstart, hrest⟩ := digits_of_exponent h
  unfold skipExponent
  split at hsign <;> cases hsign <;> dsimp only <;> rw [if_pos hstart, hrest]

theorem readFloatEnd_skips {negative : Bool} {n : Nat} {exponent : Int} {cs rest : List Char} {m : Number}
    (h : readFloatEnd negative n exponent cs = .ok (m, rest)) :
    (if startsExponent cs then skipExponent cs.tail else .ok cs) = .ok rest := by
  unfold readFloatEnd at h
  split_ifs at h ⊢
  · exact readExponent_skips h
  · rw [finishFloat_skips h]

theorem readFraction_skips {negative : Bool} {n : Nat} {exponent : Int} {cs rest : List Char} {m : Number}
    (h : readFraction negative n exponent cs = .ok (m, rest)) : skipNumberEnd ('.' :: cs) = .ok rest := by
  unfold readFraction at h
  have hdrop := dropDigits_takeDigits n 0 cs
  by_cases hstart : startsWithDigit cs = true
  · rw [skipNumberEnd, if_pos hstart]
    dsimp only at h
    split_ifs at h with hnone
    · split at h <;> cases h
    · rw [hdrop] at h
      exact readFloatEnd_skips h
  · have hnone : NoDigit cs := by simpa using hstart
    rw [takeDigits_noDigit hnone] at h
    dsimp only at h
    rw [if_pos ⟨rfl, by simp [hnone]⟩] at h
    split at h <;> cases h

theorem finishWhole_skips {negative : Bool} {n : Nat} {cs rest : List Char} {m : Number}
    (h : finishWhole negative n cs = .ok (m, rest)) : rest = cs := by
  unfold finishWhole at h
  split at h
  · split_ifs at h
    · cases h
      rfl
    · split at h
      · cases h
        rfl
      · exact finishFloat_skips h
  · split at h
    · cases h
      rfl
    · exact finishFloat_skips h

theorem readNumberEnd_skips {negative : Bool} {n dropped : Nat} {cs rest : List Char} {m : Number}
    (h : readNumberEnd negative n dropped cs = .ok (m, rest)) : skipNumberEnd cs = .ok rest := by
  unfold readNumberEnd at h
  split at h
  · exact readFraction_skips h
  · rename_i hpoint
    have hskip : skipNumberEnd cs = if startsExponent cs then skipExponent cs.tail else .ok cs := by
      unfold skipNumberEnd
      split
      · exact absurd rfl (hpoint _)
      · rfl
    rw [hskip]
    by_cases hexp : startsExponent cs = true
    · simp only [hexp, Bool.true_or, if_true] at h
      exact readFloatEnd_skips h
    · simp only [Bool.not_eq_true] at hexp
      simp only [hexp, Bool.false_or] at h
      split_ifs at h
      · exact readFloatEnd_skips h
      · rw [finishWhole_skips h, hexp]
        rfl

theorem readUnsigned_skips {negative : Bool} {cs rest : List Char} {m : Number}
    (h : readUnsigned negative cs = .ok (m, rest)) : skipUnsigned cs = .ok rest := by
  cases cs with
  | nil => cases h
  | cons c cs =>
    rw [readUnsigned] at h
    rw [skipUnsigned]
    split_ifs at h ⊢
    · exact readNumberEnd_skips h
    · have hskip := readNumberEnd_skips h
      rwa [countDigits_snd, dropDigits_takeDigits] at hskip

/-- A number that is read ends where it ends for one who passes over it. -/
theorem readNumber_skips {cs rest : List Char} {m : Number} (h : readNumber cs = .ok (m, rest)) :
    skipNumber cs = .ok rest := by
  unfold readNumber at h
  unfold skipNumber
  split at h
  all_goals exact readUnsigned_skips h

/-! ## The form of a number -/

/-- Digits, and at least one. -/
def Digits (ds : List Char) : Prop := ds ≠ [] ∧ ∀ c ∈ ds, isDigit c = true

/-- Digits before the point: a zero comes first only if it stands alone. -/
def Lead (ds : List Char) : Prop := Digits ds ∧ (ds.head? = some '0' → ds = ['0'])

/-- What follows the digits before the point. -/
inductive NumberTail : List Char → Prop where
  /-- Nothing. -/
  | none : NumberTail []
  /-- A fraction. -/
  | fraction {ds : List Char} (hds : Digits ds) : NumberTail ('.' :: ds)
  /-- An exponent. -/
  | exponent {sign : Char} {es : List Char} (hsign : sign = '+' ∨ sign = '-') (hes : Digits es) :
    NumberTail ('e' :: sign :: es)
  /-- A fraction and an exponent. -/
  | both {ds : List Char} {sign : Char} {es : List Char} (hds : Digits ds) (hsign : sign = '+' ∨ sign = '-')
    (hes : Digits es) : NumberTail ('.' :: (ds ++ 'e' :: sign :: es))

/-- The text of a number. -/
def NumberText (cs : List Char) : Prop :=
  ∃ sign lead tail, cs = sign ++ (lead ++ tail) ∧ (sign = [] ∨ sign = ['-']) ∧ Lead lead ∧ NumberTail tail

/-- The text goes on as it does behind a value: with a comma, the end of a container or that of the line, or not at
all. -/
def Delimited (rest : List Char) : Prop := ∀ c ∈ rest.head?, c = ',' ∨ c = ']' ∨ c = '\x7d' ∨ c = '\n'

theorem Delimited.noDigit {rest : List Char} (h : Delimited rest) : NoDigit rest := by
  cases rest with
  | nil => rfl
  | cons c rest => rcases h c rfl with rfl | rfl | rfl | rfl <;> rfl

theorem Delimited.noExponent {rest : List Char} (h : Delimited rest) : startsExponent rest = false := by
  cases rest with
  | nil => rfl
  | cons c rest => rcases h c rfl with rfl | rfl | rfl | rfl <;> rfl

theorem Delimited.noPoint {rest : List Char} (h : Delimited rest) (cs : List Char) : rest ≠ '.' :: cs := by
  rintro rfl
  rcases h '.' rfl with h | h | h | h <;> exact absurd h (by decide)

theorem Digits.starts {ds : List Char} (h : Digits ds) (rest : List Char) : startsWithDigit (ds ++ rest) = true := by
  obtain ⟨hne, hds⟩ := h
  cases ds with
  | nil => exact absurd rfl hne
  | cons c ds => exact hds c List.mem_cons_self

theorem skipNumberEnd_delimited {rest : List Char} (h : Delimited rest) : skipNumberEnd rest = .ok rest := by
  unfold skipNumberEnd
  split
  · exact absurd rfl (h.noPoint _)
  · rw [h.noExponent]
    rfl

theorem skipExponent_text {sign : Char} {es rest : List Char} (hsign : sign = '+' ∨ sign = '-') (hes : Digits es)
    (h : Delimited rest) : skipExponent (sign :: (es ++ rest)) = .ok rest := by
  have hskip : skipExponent (sign :: (es ++ rest)) =
      if startsWithDigit (es ++ rest) then .ok (dropDigits (es ++ rest))
      else .error (.next .invalidNumber (es ++ rest)) := by
    rcases hsign with rfl | rfl <;> rfl
  rw [hskip, if_pos (hes.starts rest), dropDigits_append hes.2 h.noDigit]

theorem skipFraction_text {ds tail : List Char} (hds : Digits ds) (h : NoDigit tail) :
    skipNumberEnd ('.' :: (ds ++ tail)) = if startsExponent tail then skipExponent tail.tail else .ok tail := by
  rw [skipNumberEnd, if_pos (hds.starts tail)]
  dsimp only
  rw [dropDigits_append hds.2 h]

theorem NumberTail.skips {tail rest : List Char} (ht : NumberTail tail) (h : Delimited rest) :
    skipNumberEnd (tail ++ rest) = .ok rest := by
  cases ht with
  | none => exact skipNumberEnd_delimited h
  | fraction hds =>
    rw [List.cons_append, skipFraction_text hds h.noDigit, h.noExponent]
    rfl
  | exponent hsign hes => exact skipExponent_text hsign hes h
  | @both ds sign es hds hsign hes =>
    have happ : '.' :: (ds ++ 'e' :: sign :: es) ++ rest = '.' :: (ds ++ 'e' :: sign :: (es ++ rest)) := by simp
    rw [happ, skipFraction_text hds rfl]
    exact skipExponent_text hsign hes h

theorem NumberTail.noDigit {tail rest : List Char} (ht : NumberTail tail) (h : Delimited rest) :
    NoDigit (tail ++ rest) := by
  cases ht with
  | none => exact h.noDigit
  | fraction | exponent | both => rfl

theorem skipUnsigned_text {lead tail : List Char} (hlead : Lead lead) (h : NoDigit tail) :
    skipUnsigned (lead ++ tail) = skipNumberEnd tail := by
  obtain ⟨⟨hne, hds⟩, hzero⟩ := hlead
  cases lead with
  | nil => exact absurd rfl hne
  | cons c lead =>
    rw [List.cons_append, skipUnsigned]
    by_cases hc : c = '0'
    · have hlone : lead = [] := by simpa [hc] using hzero
      rw [if_pos hc, hlone, List.nil_append, h]
      rfl
    · have hlead : ∀ d ∈ lead, isDigit d = true := fun d hd => hds d (List.mem_cons_of_mem _ hd)
      rw [if_neg hc, if_pos (hds c List.mem_cons_self), dropDigits_append hlead h]

theorem Lead.noSign {lead : List Char} (h : Lead lead) (tail cs : List Char) : lead ++ tail ≠ '-' :: cs := by
  obtain ⟨⟨hne, hds⟩, -⟩ := h
  cases lead with
  | nil => exact absurd rfl hne
  | cons c lead =>
    intro heq
    have hc := hds c List.mem_cons_self
    rw [List.cons_append, List.cons.injEq] at heq
    exact absurd (heq.1 ▸ hc) (by decide)

theorem skipNumber_unsigned {cs : List Char} (h : ∀ rest, cs ≠ '-' :: rest) : skipNumber cs = skipUnsigned cs := by
  unfold skipNumber
  split
  · exact absurd rfl (h _)
  · rfl

/-- A number is passed over to its last digit. -/
theorem NumberText.skips {cs rest : List Char} (hcs : NumberText cs) (h : Delimited rest) :
    skipNumber (cs ++ rest) = .ok rest := by
  obtain ⟨sign, lead, tail, rfl, rfl | rfl, hlead, htail⟩ := hcs
  · rw [List.nil_append, List.append_assoc, skipNumber_unsigned (hlead.noSign _),
      skipUnsigned_text hlead (htail.noDigit h), htail.skips h]
  · have happ : ['-'] ++ (lead ++ tail) ++ rest = '-' :: (lead ++ (tail ++ rest)) := by simp
    rw [happ, skipNumber, skipUnsigned_text hlead (htail.noDigit h), htail.skips h]

theorem isDigit_printable {c : Char} (h : isDigit c = true) : 0x20 ≤ c.toNat := by
  have hc : '0'.toNat ≤ c.toNat := by
    simp only [isDigit, Bool.and_eq_true, decide_eq_true_eq] at h
    exact h.1
  have hzero : '0'.toNat = 48 := rfl
  omega

theorem Digits.printable {ds : List Char} (h : Digits ds) : ∀ c ∈ ds, 0x20 ≤ c.toNat :=
  fun c hc => isDigit_printable (h.2 c hc)

theorem NumberTail.printable {tail : List Char} (h : NumberTail tail) : ∀ c ∈ tail, 0x20 ≤ c.toNat := by
  have hsigned : ∀ sign es, sign = '+' ∨ sign = '-' → Digits es → ∀ c ∈ 'e' :: sign :: es, 0x20 ≤ c.toNat := by
    intro sign es hsign hes c hc
    rcases List.mem_cons.mp hc with rfl | hc
    · decide
    rcases List.mem_cons.mp hc with rfl | hc
    · rcases hsign with rfl | rfl <;> decide
    · exact hes.printable c hc
  intro c hc
  cases h with
  | none => cases hc
  | fraction hds =>
    rcases List.mem_cons.mp hc with rfl | hc
    · decide
    · exact hds.printable c hc
  | exponent hsign hes => exact hsigned _ _ hsign hes c hc
  | both hds hsign hes =>
    rcases List.mem_cons.mp hc with rfl | hc
    · decide
    rcases List.mem_append.mp hc with hc | hc
    · exact hds.printable c hc
    · exact hsigned _ _ hsign hes c hc

theorem NumberText.printable {cs : List Char} (h : NumberText cs) : ∀ c ∈ cs, 0x20 ≤ c.toNat := by
  obtain ⟨sign, lead, tail, rfl, hsign, hlead, htail⟩ := h
  intro c hc
  rcases List.mem_append.mp hc with hc | hc
  · rcases hsign with rfl | rfl
    · cases hc
    · rw [List.mem_singleton.mp hc]
      decide
  rcases List.mem_append.mp hc with hc | hc
  · exact hlead.1.printable c hc
  · exact htail.printable c hc

theorem startsNumber_ne {c d : Char} (hc : startsNumber c = true) (hd : startsNumber d = false) : c ≠ d := by
  rintro rfl
  rw [hc] at hd
  cases hd

theorem NumberText.starts {cs : List Char} (h : NumberText cs) : ∃ c rest, cs = c :: rest ∧ startsNumber c = true := by
  obtain ⟨sign, lead, tail, rfl, rfl | rfl, ⟨⟨hne, hds⟩, -⟩, -⟩ := h
  · cases lead with
    | nil => exact absurd rfl hne
    | cons c lead => exact ⟨c, lead ++ tail, rfl, by simp [startsNumber, hds c List.mem_cons_self]⟩
  · exact ⟨'-', lead ++ tail, rfl, rfl⟩

/-! ## The numbers that are printed -/

theorem digitChar_eq_zero : ∀ d < 10, Nat.digitChar d = '0' → d = 0 := by
  decide

theorem head_toDigits {n : Nat} (h : n ≠ 0) : (Nat.toDigits 10 n).head? ≠ some '0' := by
  induction n using Nat.strong_induction_on with
  | _ n ih =>
    by_cases hlt : n < 10
    · rw [Nat.toDigits_of_lt_base hlt]
      intro hzero
      exact h (digitChar_eq_zero n hlt (Option.some.inj hzero))
    · rw [Nat.toDigits_of_base_le (by decide) (by omega), List.head?_append_of_ne_nil _ Nat.toDigits_ne_nil]
      exact ih (n / 10) (by omega) (by omega)

theorem digits_toDigits (n : Nat) : Digits (Nat.toDigits 10 n) :=
  ⟨Nat.toDigits_ne_nil, fun _ => isDigit_of_mem_toDigits⟩

theorem lead_toDigits (n : Nat) : Lead (Nat.toDigits 10 n) := by
  refine ⟨digits_toDigits n, fun hzero => ?_⟩
  by_cases hn : n = 0
  · subst hn
    rfl
  · exact absurd hzero (head_toDigits hn)

/-- Digits that do not begin with a zero may be followed by more. -/
theorem Lead.of_head {ds : List Char} (h : Digits ds) (hzero : ds.head? ≠ some '0') : Lead ds :=
  ⟨h, fun hz => absurd hz hzero⟩

theorem Digits.append {ds es : List Char} (hds : Digits ds) (hes : ∀ c ∈ es, isDigit c = true) : Digits (ds ++ es) :=
  ⟨List.append_ne_nil_of_left_ne_nil hds.1 es, fun c hc =>
    (List.mem_append.mp hc).elim (hds.2 c) (hes c)⟩

theorem Digits.take {ds : List Char} (h : Digits ds) (n : Nat) : Digits (ds.take (n + 1)) := by
  obtain ⟨hne, hds⟩ := h
  refine ⟨?_, fun c hc => hds c (List.mem_of_mem_take hc)⟩
  cases ds with
  | nil => exact absurd rfl hne
  | cons c ds => exact List.cons_ne_nil _ _

theorem Digits.drop {ds : List Char} (h : Digits ds) {n : Nat} (hn : n < ds.length) : Digits (ds.drop n) :=
  ⟨fun hnil => by have := List.drop_eq_nil_iff.mp hnil; omega, fun c hc => h.2 c (List.mem_of_mem_drop hc)⟩

theorem head?_take_succ (ds : List Char) (n : Nat) : (ds.take (n + 1)).head? = ds.head? := by
  cases ds <;> rfl

theorem digits_zeros (n : Nat) : ∀ c ∈ List.replicate n '0', isDigit c = true := by
  intro c hc
  rw [List.eq_of_mem_replicate hc]
  rfl

theorem intDigits_text (n : Int) : NumberText (intDigits n) := by
  unfold intDigits
  split
  · exact ⟨['-'], Nat.toDigits 10 n.natAbs, [], by simp, .inr rfl, lead_toDigits _, .none⟩
  · exact ⟨[], Nat.toDigits 10 n.natAbs, [], by simp, .inl rfl, lead_toDigits _, .none⟩

/-! ## The digits of a float -/

theorem cover_low_pos {x : Double} (h : x.isZero = false) : 0 < x.cover.low := by
  have hsig : x.significand ≠ 0 := by simpa [Double.isZero] using h
  have hup : 0 < if 0 ≤ x.exponent - 2 then 1 <<< (x.exponent - 2).toNat else 1 := by
    split_ifs
    · rw [Nat.one_shiftLeft]
      exact Nat.two_pow_pos _
    · exact Nat.one_pos
  simp only [Double.cover]
  refine Nat.mul_pos ?_ hup
  split_ifs <;> omega

theorem holds_zero {c : Double.Cover} (hlow : 0 < c.low) {a b : Nat} (hb : 0 < b) : c.holds a b 0 = false := by
  have hpos : 0 < c.low * b := Nat.mul_pos hlow hb
  simp only [Double.Cover.holds, Nat.zero_mul]
  split_ifs <;> simp [Nat.not_le.mpr hpos]

theorem onGrid?_ne_zero {c : Double.Cover} (hlow : 0 < c.low) {k : Int} {d : Nat} (h : c.onGrid? k = some d) :
    d ≠ 0 := by
  have hb : 0 < if 0 ≤ k then 1 else Nat.pow 10 (-k).toNat := by
    split_ifs
    · exact Nat.one_pos
    · exact Nat.pow_pos (by decide)
  unfold Double.Cover.onGrid? at h
  generalize (if 0 ≤ k then 1 else Nat.pow 10 (-k).toNat) = b at h hb
  generalize (if 0 ≤ k then Nat.pow 10 k.toNat else 1) = a at h
  dsimp only at h
  -- the multiple below the middle is not zero if the cover holds it, and the one above is a successor
  split_ifs at h with hboth _ hbelow
  · cases h
    rintro hzero
    rw [hzero, holds_zero hlow hb] at hboth
    cases hboth
  · cases h
    exact Nat.succ_ne_zero _
  · cases h
    rintro hzero
    rw [hzero, holds_zero hlow hb] at hbelow
    cases hbelow
  · cases h
    exact Nat.succ_ne_zero _

theorem dropZeros_eq_zero {fuel d : Nat} {k : Int} (h : (Double.dropZeros fuel d k).1 = 0) : d = 0 := by
  induction fuel generalizing d k with
  | zero => exact h
  | succ fuel ih =>
    rw [Double.dropZeros] at h
    split_ifs at h with hd
    · have := ih h
      omega
    · exact h

/-- The digits of a double that is not zero are no lone zero, unless none were found. -/
theorem shortest_of_eq_zero {x : Double} (h : x.isZero = false) (hd : x.shortest.1 = 0) : x.shortest.2 = 0 := by
  unfold Double.shortest at hd ⊢
  simp only [h, Bool.false_eq_true, if_false] at hd ⊢
  cases hfound : (List.range 17).findSome? fun i : Nat =>
      (x.cover.onGrid? (Double.magnitude x.cover.mid x.cover.scale - i)).map
        (·, Double.magnitude x.cover.mid x.cover.scale - i) with
  | none => rfl
  | some dk =>
    rw [hfound] at hd
    obtain ⟨i, -, hi⟩ := List.exists_of_findSome?_eq_some hfound
    obtain ⟨d, hgrid, rfl⟩ := Option.map_eq_some_iff.mp hi
    exact absurd (dropZeros_eq_zero hd) (onGrid?_ne_zero (cover_low_pos h) hgrid)

/-- The text of a number without its sign. -/
def UnsignedText (cs : List Char) : Prop := ∃ lead tail, cs = lead ++ tail ∧ Lead lead ∧ NumberTail tail

theorem UnsignedText.signed {cs : List Char} (h : UnsignedText cs) (negative : Bool) :
    NumberText ((if negative then ['-'] else []) ++ cs) := by
  obtain ⟨lead, tail, rfl, hlead, htail⟩ := h
  refine ⟨_, lead, tail, rfl, ?_, hlead, htail⟩
  cases negative <;> simp

theorem lead_take {d : Nat} (hd : d ≠ 0) (n : Nat) : Lead ((Nat.toDigits 10 d).take (n + 1)) := by
  refine Lead.of_head ((digits_toDigits d).take n) ?_
  rw [head?_take_succ]
  exact head_toDigits hd

theorem whole_float_text {d : Nat} {k : Int} (hzero : d = 0 → k = 0) :
    UnsignedText (Nat.toDigits 10 d ++ List.replicate k.toNat '0' ++ ['.', '0']) := by
  refine ⟨_, _, rfl, ?_, .fraction (digits_toDigits 0)⟩
  by_cases hd : d = 0
  · rw [hd, hzero hd]
    exact lead_toDigits 0
  · have hdigits := digits_toDigits d
    refine Lead.of_head (hdigits.append (digits_zeros _)) ?_
    rw [List.head?_append_of_ne_nil _ hdigits.1]
    exact head_toDigits hd

theorem point_float_text {d n : Nat} (hd : d ≠ 0) (hn : n + 1 < (Nat.toDigits 10 d).length) :
    UnsignedText ((Nat.toDigits 10 d).take (n + 1) ++ '.' :: (Nat.toDigits 10 d).drop (n + 1)) :=
  ⟨_, _, rfl, lead_take hd n, .fraction ((digits_toDigits d).drop hn)⟩

theorem small_float_text (d n : Nat) : UnsignedText ('0' :: '.' :: List.replicate n '0' ++ Nat.toDigits 10 d) := by
  have hdigits := digits_toDigits d
  refine ⟨['0'], _, rfl, lead_toDigits 0, .fraction ⟨List.append_ne_nil_of_right_ne_nil _ hdigits.1, fun c hc => ?_⟩⟩
  rcases List.mem_append.mp hc with hc | hc
  · exact digits_zeros n c hc
  · exact hdigits.2 c hc

theorem exponent_float_text {d : Nat} (hd : d ≠ 0) (first : Int) :
    UnsignedText ((Nat.toDigits 10 d).take 1
      ++ (if (Nat.toDigits 10 d).length = 1 then [] else '.' :: (Nat.toDigits 10 d).drop 1)
      ++ 'e' :: (if first < 0 then '-' else '+') :: Nat.toDigits 10 first.natAbs) := by
  have hdigits := digits_toDigits d
  have hlen : 0 < (Nat.toDigits 10 d).length := List.length_pos_iff.mpr hdigits.1
  have hsign : (if first < 0 then '-' else '+') = '+' ∨ (if first < 0 then '-' else '+') = '-' := by
    split_ifs <;> simp
  have hexponent := digits_toDigits first.natAbs
  rw [List.append_assoc]
  refine ⟨_, _, rfl, lead_take hd 0, ?_⟩
  by_cases hone : (Nat.toDigits 10 d).length = 1
  · rw [if_pos hone]
    exact .exponent hsign hexponent
  · rw [if_neg hone]
    exact .both (hdigits.drop (by omega)) hsign hexponent

theorem floatDigits_text (x : Double) : NumberText (floatDigits x) := by
  unfold floatDigits
  cases hx : x.isZero with
  | true =>
    have hzero : UnsignedText ['0', '.', '0'] := whole_float_text (d := 0) (k := 0) fun _ => rfl
    exact hzero.signed x.negative
  | false =>
    have hshort := shortest_of_eq_zero hx
    generalize x.shortest = dk at hshort ⊢
    obtain ⟨d, k⟩ := dk
    have hlen : 0 < (Nat.toDigits 10 d).length := List.length_pos_iff.mpr (digits_toDigits d).1
    dsimp only at hshort ⊢
    rw [if_neg (by decide)]
    refine UnsignedText.signed ?_ x.negative
    generalize hfirst : k + (Nat.toDigits 10 d).length - 1 = first
    by_cases hplain : layout.leastPlain ≤ first ∧ first ≤ layout.greatestPlain
    · rw [if_pos hplain]
      split_ifs with hk hpoint
      · exact whole_float_text hshort
      · have hd : d ≠ 0 := fun hd => hk (hshort hd ▸ le_rfl)
        exact point_float_text hd (by omega)
      · exact small_float_text d _
    · rw [if_neg hplain]
      -- a lone zero stands without an exponent
      have hd : d ≠ 0 := by
        rintro rfl
        have hk := hshort rfl
        have hone : (Nat.toDigits 10 0).length = 1 := rfl
        have hbounds : layout.leastPlain = -5 ∧ layout.greatestPlain = 15 := ⟨rfl, rfl⟩
        omega
      exact exponent_float_text hd first

theorem Number.digits_text (n : Number) : NumberText n.digits := by
  cases n with
  | whole n => exact intDigits_text n.val
  | float x => exact floatDigits_text x

/-- A number that is read from what was printed ends where the print ends. -/
theorem readNumber_digits_rest {n m : Number} {rest rest' : List Char} (h : Delimited rest)
    (hread : readNumber (n.digits ++ rest) = .ok (m, rest')) : rest' = rest := by
  have hskip := readNumber_skips hread
  rw [n.digits_text.skips h] at hskip
  cases hskip
  rfl

/-! ## Whole numbers -/

theorem le_ofDigitChars (ds : List Char) (n : Nat) : n ≤ Nat.ofDigitChars 10 ds n := by
  induction ds generalizing n with
  | nil => exact le_rfl
  | cons c ds ih =>
    rw [Nat.ofDigitChars_cons]
    have := ih (10 * n + (c.toNat - '0'.toNat))
    omega

theorem takeDigits_digits {ds rest : List Char} {n : Nat} (hds : ∀ c ∈ ds, isDigit c = true) (h : NoDigit rest)
    (hfit : Nat.ofDigitChars 10 ds n < UInt64.size) (count : Nat) :
    takeDigits n count (ds ++ rest) = (Nat.ofDigitChars 10 ds n, count + ds.length, rest) := by
  induction ds generalizing n count with
  | nil => exact takeDigits_noDigit h n count
  | cons c ds ih =>
    have hvalue : n * 10 + digitValue c = 10 * n + (c.toNat - '0'.toNat) := by
      rw [Nat.mul_comm n 10]
      rfl
    rw [Nat.ofDigitChars_cons] at hfit ⊢
    have hlt := lt_of_le_of_lt (le_ofDigitChars ds _) hfit
    rw [List.cons_append, takeDigits, hvalue, if_pos ⟨hds c List.mem_cons_self, hlt⟩,
      ih (fun d hd => hds d (List.mem_cons_of_mem _ hd)) hfit]
    simp [Nat.add_assoc, Nat.add_comm 1]

theorem countDigits_noDigit {rest : List Char} (h : NoDigit rest) (count : Nat) :
    countDigits count rest = (count, rest) := by
  cases rest with
  | nil => rfl
  | cons c rest =>
    have hc : isDigit c = false := h
    simp [countDigits, hc]

theorem readNumberEnd_delimited {rest : List Char} (h : Delimited rest) (negative : Bool) (n : Nat) :
    readNumberEnd negative n 0 rest = finishWhole negative n rest := by
  unfold readNumberEnd
  split
  · exact absurd rfl (h.noPoint _)
  · simp [h.noExponent]

theorem readUnsigned_toDigits {n : Nat} {rest : List Char} (hn : n < UInt64.size) (h : Delimited rest)
    (negative : Bool) : readUnsigned negative (Nat.toDigits 10 n ++ rest) = finishWhole negative n rest := by
  by_cases hzero : n = 0
  · subst hzero
    have hdigits : Nat.toDigits 10 0 ++ rest = '0' :: rest := rfl
    rw [hdigits, readUnsigned, if_pos rfl, h.noDigit]
    exact readNumberEnd_delimited h negative 0
  · obtain ⟨hne, hds⟩ := digits_toDigits n
    have hhead := head_toDigits hzero
    have hvalue : Nat.ofDigitChars 10 (Nat.toDigits 10 n) 0 = n := Nat.ofDigitChars_ten_toDigits
    cases hcs : Nat.toDigits 10 n with
    | nil => exact absurd hcs hne
    | cons c ds =>
      rw [hcs] at hds hhead hvalue
      rw [Nat.ofDigitChars_cons] at hvalue
      have hrest : Nat.ofDigitChars 10 ds (digitValue c) = n := by
        have hstart : digitValue c = 10 * 0 + (c.toNat - '0'.toNat) := by simp [digitValue]
        rw [hstart, hvalue]
      have hc : c ≠ '0' := fun hc => hhead (congrArg some hc)
      rw [List.cons_append, readUnsigned, if_neg hc, if_pos (hds c List.mem_cons_self),
        takeDigits_digits (fun d hd => hds d (List.mem_cons_of_mem _ hd)) h.noDigit (hrest ▸ hn), hrest]
      dsimp only
      rw [countDigits_noDigit h.noDigit]
      exact readNumberEnd_delimited h negative n

theorem ofInt?_val (n : Whole) : Whole.ofInt? n.val = some n := by
  rw [Whole.ofInt?, dif_pos ⟨n.lower, n.upper⟩]

/-- A whole number is read back as it is. -/
theorem readNumber_whole (n : Whole) {rest : List Char} (h : Delimited rest) :
    readNumber (intDigits n.val ++ rest) = .ok (.whole n, rest) := by
  have hlower := n.lower
  have hupper := n.upper
  have hsize : UInt64.size = 0x10000000000000000 := rfl
  have habs : n.val.natAbs < UInt64.size := by omega
  unfold intDigits
  split_ifs with hneg
  · have hval : -(n.val.natAbs : Int) = n.val := by omega
    rw [List.cons_append, readNumber, readUnsigned_toDigits habs h, finishWhole, if_pos rfl, if_neg (by omega),
      hval, ofInt?_val]
  · have hval : (n.val.natAbs : Int) = n.val := by omega
    have hread : readNumber (Nat.toDigits 10 n.val.natAbs ++ rest)
        = readUnsigned false (Nat.toDigits 10 n.val.natAbs ++ rest) := by
      unfold readNumber
      split
      · rename_i heq
        exact absurd heq ((lead_toDigits _).noSign _ _)
      · rfl
    rw [hread, readUnsigned_toDigits habs h, finishWhole, if_neg (by simp), hval, ofInt?_val]

end ShellHost.Json
