import Mathlib.Tactic.SplitIfs
import ShellHost.Proofs.Text.Utf8

/-!
# Bytes come back from their characters

Bytes that are UTF-8 are those of the characters that they are decoded as (`encode_of_decode`), and no character is put
in the place of any of them (`decodeLossy_of_decode`). `Begun` tells which bytes a state of the reader stands for. One
more byte either completes the character of these bytes or leads on to another such state (`Progress.Follows`).
-/

namespace ShellHost.Utf8

/-! ## The bytes of a number -/

theorem toNat_ofNat {n : Nat} (h : n < 0xD800 ∨ 0xDFFF < n ∧ n < 0x110000) : (Char.ofNat n).toNat = n := by
  rw [Char.ofNat, dif_pos h]
  rfl

theorem encodeChar_one {a : Nat} (ha : a < 0x80) : encodeChar (Char.ofNat a) = [a.toUInt8] := by
  simp only [encodeChar, toNat_ofNat (.inl (by omega : a < 0xD800)), if_pos ha]

theorem encodeChar_two {a b : Nat} (ha : 0xC2 ≤ a ∧ a < 0xE0) (hb : 0x80 ≤ b ∧ b ≤ 0xBF) :
    encodeChar (Char.ofNat ((a - 0xC0) * 64 + (b - 0x80))) = [a.toUInt8, b.toUInt8] := by
  generalize hn : (a - 0xC0) * 64 + (b - 0x80) = n
  have hfirst : 0xC0 + n / 64 = a := by omega
  have hsecond : 0x80 + n % 64 = b := by omega
  simp only [encodeChar, toNat_ofNat (.inl (by omega : n < 0xD800))]
  rw [if_neg (by omega), if_pos (by omega), hfirst, hsecond]

/-- What may follow the first of three bytes: nothing that makes the character overlong or a surrogate. -/
def SecondOfThree (a b : Nat) : Prop :=
  (if a = 0xE0 then 0xA0 else 0x80) ≤ b ∧ b ≤ (if a = 0xED then 0x9F else 0xBF)

theorem encodeChar_three {a b c : Nat} (ha : 0xE0 ≤ a ∧ a < 0xF0) (hb : SecondOfThree a b)
    (hc : 0x80 ≤ c ∧ c ≤ 0xBF) :
    encodeChar (Char.ofNat (((a - 0xE0) * 64 + (b - 0x80)) * 64 + (c - 0x80)))
      = [a.toUInt8, b.toUInt8, c.toUInt8] := by
  generalize hn : ((a - 0xE0) * 64 + (b - 0x80)) * 64 + (c - 0x80) = n
  obtain ⟨hlow, hhigh⟩ := hb
  have hrange : 0x80 ≤ b ∧ b ≤ 0xBF ∧ 0x800 ≤ n ∧ (n < 0xD800 ∨ 0xDFFF < n) := by
    split_ifs at hlow hhigh <;> omega
  have hvalid : n < 0xD800 ∨ 0xDFFF < n ∧ n < 0x110000 := by omega
  have hfirst : 0xE0 + n / 4096 = a := by omega
  have hsecond : 0x80 + n / 64 % 64 = b := by omega
  have hthird : 0x80 + n % 64 = c := by omega
  simp only [encodeChar, toNat_ofNat hvalid]
  rw [if_neg (by omega), if_neg (by omega), if_pos (by omega), hfirst, hsecond, hthird]

/-- What may follow the first of four bytes: nothing that makes the character overlong or too great. -/
def SecondOfFour (a b : Nat) : Prop :=
  (if a = 0xF0 then 0x90 else 0x80) ≤ b ∧ b ≤ (if a = 0xF4 then 0x8F else 0xBF)

theorem encodeChar_four {a b c d : Nat} (ha : 0xF0 ≤ a ∧ a < 0xF5) (hb : SecondOfFour a b)
    (hc : 0x80 ≤ c ∧ c ≤ 0xBF) (hd : 0x80 ≤ d ∧ d ≤ 0xBF) :
    encodeChar (Char.ofNat ((((a - 0xF0) * 64 + (b - 0x80)) * 64 + (c - 0x80)) * 64 + (d - 0x80)))
      = [a.toUInt8, b.toUInt8, c.toUInt8, d.toUInt8] := by
  generalize hn : (((a - 0xF0) * 64 + (b - 0x80)) * 64 + (c - 0x80)) * 64 + (d - 0x80) = n
  obtain ⟨hlow, hhigh⟩ := hb
  have hrange : 0x80 ≤ b ∧ b ≤ 0xBF ∧ 0x10000 ≤ n ∧ n < 0x110000 := by
    split_ifs at hlow hhigh <;> omega
  have hvalid : n < 0xD800 ∨ 0xDFFF < n ∧ n < 0x110000 := by omega
  have hfirst : 0xF0 + n / 262144 = a := by omega
  have hsecond : 0x80 + n / 4096 % 64 = b := by omega
  have hthird : 0x80 + n / 64 % 64 = c := by omega
  have hfourth : 0x80 + n % 64 = d := by omega
  simp only [encodeChar, toNat_ofNat hvalid]
  rw [if_neg (by omega), if_neg (by omega), if_neg (by omega), hfirst, hsecond, hthird, hfourth]

/-! ## The states of the reader -/

/-- The state that the reader is in after these bytes of a character. -/
inductive Begun : Partial → List UInt8 → Prop where
  /-- The first of two bytes. -/
  | two {a : Nat} (ha : 0xC2 ≤ a ∧ a < 0xE0) : Begun ⟨0, 0x80, 0xBF, a - 0xC0, 1⟩ [a.toUInt8]
  /-- The first of three bytes. -/
  | three {a : Nat} (ha : 0xE0 ≤ a ∧ a < 0xF0) :
      Begun ⟨1, if a = 0xE0 then 0xA0 else 0x80, if a = 0xED then 0x9F else 0xBF, a - 0xE0, 1⟩ [a.toUInt8]
  /-- Two of three bytes. -/
  | threeSecond {a b : Nat} (ha : 0xE0 ≤ a ∧ a < 0xF0) (hb : SecondOfThree a b) :
      Begun ⟨0, 0x80, 0xBF, (a - 0xE0) * 64 + (b - 0x80), 2⟩ [a.toUInt8, b.toUInt8]
  /-- The first of four bytes. -/
  | four {a : Nat} (ha : 0xF0 ≤ a ∧ a < 0xF5) :
      Begun ⟨2, if a = 0xF0 then 0x90 else 0x80, if a = 0xF4 then 0x8F else 0xBF, a - 0xF0, 1⟩ [a.toUInt8]
  /-- Two of four bytes. -/
  | fourSecond {a b : Nat} (ha : 0xF0 ≤ a ∧ a < 0xF5) (hb : SecondOfFour a b) :
      Begun ⟨1, 0x80, 0xBF, (a - 0xF0) * 64 + (b - 0x80), 2⟩ [a.toUInt8, b.toUInt8]
  /-- Three of four bytes. -/
  | fourThird {a b c : Nat} (ha : 0xF0 ≤ a ∧ a < 0xF5) (hb : SecondOfFour a b) (hc : 0x80 ≤ c ∧ c ≤ 0xBF) :
      Begun ⟨0, 0x80, 0xBF, ((a - 0xF0) * 64 + (b - 0x80)) * 64 + (c - 0x80), 3⟩ [a.toUInt8, b.toUInt8, c.toUInt8]

/-- What has been made of these bytes, if anything, is their character or the state that they lead to. -/
def Progress.Follows (seen : List UInt8) : Progress → Prop
  | complete c => encodeChar c = seen
  | unfinished p => Begun p seen
  | refused => True

theorem exists_toUInt8 (b : UInt8) : ∃ n, n < 256 ∧ b = n.toUInt8 := ⟨b.toNat, b.toNat_lt, UInt8.ofNat_toNat.symm⟩

theorem first_follows (b : UInt8) : (first b).Follows [b] := by
  obtain ⟨n, hn, rfl⟩ := exists_toUInt8 b
  rcases Nat.lt_or_ge n 0x80 with hone | hstray
  · rw [first_ascii hone]
    exact encodeChar_one hone
  rcases Nat.lt_or_ge n 0xC2 with htail | htwo
  · have hrefused : first n.toUInt8 = .refused := by
      simp only [first, toNat_toUInt8 hn]
      rw [if_neg (by omega), if_pos htail]
    rw [hrefused]
    trivial
  rcases Nat.lt_or_ge n 0xE0 with htwo' | hthree
  · rw [first_of_two ⟨htwo, htwo'⟩]
    exact .two ⟨htwo, htwo'⟩
  rcases Nat.lt_or_ge n 0xF0 with hthree' | hfour
  · rw [first_of_three ⟨hthree, hthree'⟩]
    exact .three ⟨hthree, hthree'⟩
  rcases Nat.lt_or_ge n 0xF5 with hfour' | hpast
  · rw [first_of_four ⟨hfour, hfour'⟩]
    exact .four ⟨hfour, hfour'⟩
  · have hrefused : first n.toUInt8 = .refused := by
      simp only [first, toNat_toUInt8 hn]
      rw [if_neg (by omega), if_neg (by omega), if_neg (by omega), if_neg (by omega), if_neg (by omega)]
    rw [hrefused]
    trivial

theorem next_follows {p : Partial} {seen : List UInt8} (h : Begun p seen) (b : UInt8) :
    (p.next b).Follows (seen ++ [b]) := by
  obtain ⟨n, hn, rfl⟩ := exists_toUInt8 b
  by_cases hrange : p.low ≤ n ∧ n ≤ p.high
  · cases h with
    | two ha =>
      rw [next_last hrange hn]
      exact encodeChar_two ha hrange
    | three ha =>
      rw [next_more hrange hn]
      exact .threeSecond ha hrange
    | threeSecond ha hb =>
      rw [next_last hrange hn]
      exact encodeChar_three ha hb hrange
    | four ha =>
      rw [next_more hrange hn]
      exact .fourSecond ha hrange
    | fourSecond ha hb =>
      rw [next_more hrange hn]
      exact .fourThird ha hb hrange
    | fourThird ha hb hc =>
      rw [next_last hrange hn]
      exact encodeChar_four ha hb hc hrange
  · have hrefused : p.next n.toUInt8 = .refused := by
      simp only [Partial.next, toNat_toUInt8 hn]
      exact if_neg hrange
    rw [hrefused]
    trivial

/-! ## Texts -/

/-- Where the reader stands between two bytes, and the bytes of the character that it has not completed. -/
def Stands : Option Partial → List UInt8 → Prop
  | none, seen => seen = []
  | some p, seen => Begun p seen

/-- What is read from some place on are the characters of the bytes that are left, and of those of a character that is
not complete there. -/
theorem encode_of_decodeFrom {bs : List UInt8} {index : Nat} {begun : Option Partial} {out cs : List Char}
    {seen : List UInt8} (hbegun : Stands begun seen) (h : decodeFrom index begun out bs = .ok cs) :
    encode cs = encode out.reverse ++ (seen ++ bs) := by
  fun_induction decodeFrom index begun out bs generalizing seen with
  | case1 index out =>
    obtain rfl : seen = [] := hbegun
    cases h
    simp
  | case2 | case5 | case8 => cases h
  | case3 index out b bs c hfirst ih =>
    obtain rfl : seen = [] := hbegun
    have hfollows := first_follows b
    rw [hfirst] at hfollows
    have hc : encodeChar c = [b] := hfollows
    rw [ih (rfl : Stands none []) h]
    simp [encode, hc]
  | case4 index out b bs p hfirst ih =>
    obtain rfl : seen = [] := hbegun
    have hfollows := first_follows b
    rw [hfirst] at hfollows
    exact ih (hfollows : Stands (some p) [b]) h
  | case6 index out b bs p c hnext ih =>
    have hfollows := next_follows hbegun b
    rw [hnext] at hfollows
    have hc : encodeChar c = seen ++ [b] := hfollows
    rw [ih (rfl : Stands none []) h]
    simp [encode, hc]
  | case7 index out b bs p q hnext ih =>
    have hfollows := next_follows hbegun b
    rw [hnext] at hfollows
    rw [ih (hfollows : Stands (some q) (seen ++ [b])) h]
    simp

/-- Bytes that are a text are the bytes of the text. -/
theorem encode_of_decode {bs : List UInt8} {cs : List Char} (h : decode bs = .ok cs) : encode cs = bs := by
  have hbetween : Stands none [] := rfl
  exact encode_of_decodeFrom hbetween h

theorem decodeLossyFrom_of_decodeFrom {bs : List UInt8} {index : Nat} {begun : Option Partial} {out cs : List Char}
    (h : decodeFrom index begun out bs = .ok cs) : decodeLossyFrom begun out bs = cs := by
  fun_induction decodeFrom index begun out bs with
  | case1 => exact Except.ok.inj h
  | case2 | case5 | case8 => cases h
  | case3 index out b bs c hfirst ih | case4 index out b bs p hfirst ih =>
    simp only [decodeLossyFrom, hfirst]
    exact ih h
  | case6 index out b bs p c hnext ih | case7 index out b bs p q hnext ih =>
    simp only [decodeLossyFrom, hnext]
    exact ih h

/-- Nothing is lost of bytes that are a text. -/
theorem decodeLossy_of_decode {bs : List UInt8} {cs : List Char} (h : decode bs = .ok cs) : decodeLossy bs = cs :=
  decodeLossyFrom_of_decodeFrom h

end ShellHost.Utf8
