import Mathlib.Tactic.SplitIfs
import ShellHost.Text.Utf8

/-!
# Characters come back from their bytes

What is encoded is decoded as what it was, without a flaw. Characters that are no control characters are encoded without
any byte that is one.
-/

namespace ShellHost.Utf8

theorem toNat_toUInt8 {n : Nat} (h : n < 256) : n.toUInt8.toNat = n :=
  UInt8.toNat_ofNat_of_lt' h

/-! ## One byte -/

theorem first_ascii {n : Nat} (h : n < 0x80) : first n.toUInt8 = .complete (Char.ofNat n) := by
  simp only [first, toNat_toUInt8 (by omega : n < 256), if_pos h]

theorem first_of_two {n : Nat} (h : 0xC2 ≤ n ∧ n < 0xE0) :
    first n.toUInt8 = .unfinished ⟨0, 0x80, 0xBF, n - 0xC0, 1⟩ := by
  simp only [first, toNat_toUInt8 (by omega : n < 256)]
  rw [if_neg (by omega), if_neg (by omega), if_pos h.2]

theorem first_of_three {n : Nat} (h : 0xE0 ≤ n ∧ n < 0xF0) :
    first n.toUInt8
      = .unfinished ⟨1, if n = 0xE0 then 0xA0 else 0x80, if n = 0xED then 0x9F else 0xBF, n - 0xE0, 1⟩ := by
  simp only [first, toNat_toUInt8 (by omega : n < 256)]
  rw [if_neg (by omega), if_neg (by omega), if_neg (by omega), if_pos h.2]

theorem first_of_four {n : Nat} (h : 0xF0 ≤ n ∧ n < 0xF5) :
    first n.toUInt8
      = .unfinished ⟨2, if n = 0xF0 then 0x90 else 0x80, if n = 0xF4 then 0x8F else 0xBF, n - 0xF0, 1⟩ := by
  simp only [first, toNat_toUInt8 (by omega : n < 256)]
  rw [if_neg (by omega), if_neg (by omega), if_neg (by omega), if_neg (by omega), if_pos h.2]

theorem next_last {low high code taken n : Nat} (h : low ≤ n ∧ n ≤ high) (hn : n < 256) :
    (Partial.mk 0 low high code taken).next n.toUInt8 = .complete (Char.ofNat (code * 64 + (n - 0x80))) := by
  simp only [Partial.next, toNat_toUInt8 hn, if_pos h]

theorem next_more {owed low high code taken n : Nat} (h : low ≤ n ∧ n ≤ high) (hn : n < 256) :
    (Partial.mk (owed + 1) low high code taken).next n.toUInt8
      = .unfinished ⟨owed, 0x80, 0xBF, code * 64 + (n - 0x80), taken + 1⟩ := by
  simp only [Partial.next, toNat_toUInt8 hn, if_pos h]

/-! ## One character -/

/-- The number of a character is no surrogate and not too great. -/
theorem toNat_valid (c : Char) : c.toNat < 0xD800 ∨ 0xDFFF < c.toNat ∧ c.toNat < 0x110000 := c.valid

/-- The bytes of a character are read as the character, from between characters to between characters. -/
theorem decodeFrom_encodeChar (c : Char) (index : Nat) (out : List Char) (bs : List UInt8) :
    ∃ index', decodeFrom index none out (encodeChar c ++ bs) = decodeFrom index' none (c :: out) bs := by
  have hvalid := toNat_valid c
  have hback : Char.ofNat c.toNat = c := Char.ofNat_toNat c
  generalize hn : c.toNat = n at hvalid hback
  unfold encodeChar
  dsimp only
  rw [hn]
  split_ifs with hone htwo hthree
  · refine ⟨index + 1, ?_⟩
    simp only [List.cons_append, List.nil_append, decodeFrom, first_ascii hone, hback]
  · have hlast : (0xC0 + n / 64 - 0xC0) * 64 + (0x80 + n % 64 - 0x80) = n := by omega
    refine ⟨index + 1 + 1, ?_⟩
    simp only [List.cons_append, List.nil_append, decodeFrom]
    rw [first_of_two (by omega)]
    dsimp only
    rw [next_last (by omega) (by omega), hlast, hback]
  · have hlast : ((0xE0 + n / 4096 - 0xE0) * 64 + (0x80 + n / 64 % 64 - 0x80)) * 64 + (0x80 + n % 64 - 0x80) = n := by
      omega
    have hsecond : (if 0xE0 + n / 4096 = 0xE0 then 0xA0 else 0x80) ≤ 0x80 + n / 64 % 64 ∧
        0x80 + n / 64 % 64 ≤ (if 0xE0 + n / 4096 = 0xED then 0x9F else 0xBF) := by
      split_ifs <;> omega
    refine ⟨index + (1 + 1) + 1, ?_⟩
    simp only [List.cons_append, List.nil_append, decodeFrom]
    rw [first_of_three (by omega)]
    dsimp only
    rw [next_more hsecond (by omega)]
    dsimp only
    rw [next_last (by omega) (by omega), hlast, hback]
  · have hlast : (((0xF0 + n / 262144 - 0xF0) * 64 + (0x80 + n / 4096 % 64 - 0x80)) * 64
        + (0x80 + n / 64 % 64 - 0x80)) * 64 + (0x80 + n % 64 - 0x80) = n := by
      omega
    have hsecond : (if 0xF0 + n / 262144 = 0xF0 then 0x90 else 0x80) ≤ 0x80 + n / 4096 % 64 ∧
        0x80 + n / 4096 % 64 ≤ (if 0xF0 + n / 262144 = 0xF4 then 0x8F else 0xBF) := by
      split_ifs <;> omega
    refine ⟨index + (1 + 1 + 1) + 1, ?_⟩
    simp only [List.cons_append, List.nil_append, decodeFrom]
    rw [first_of_four (by omega)]
    dsimp only
    rw [next_more hsecond (by omega)]
    dsimp only
    rw [next_more (by omega) (by omega)]
    dsimp only
    rw [next_last (by omega) (by omega), hlast, hback]

theorem encodeChar_printable {c : Char} (h : 0x20 ≤ c.toNat) : ∀ b ∈ encodeChar c, 0x20 ≤ b.toNat := by
  have hvalid := toNat_valid c
  generalize hn : c.toNat = n at h hvalid
  have hbyte : ∀ k, 0x20 ≤ k → k < 256 → 0x20 ≤ k.toUInt8.toNat := fun k hk hlt => by rwa [toNat_toUInt8 hlt]
  unfold encodeChar
  dsimp only
  rw [hn]
  intro b hb
  split_ifs at hb with hone htwo hthree
  all_goals
    simp only [List.mem_cons, List.not_mem_nil, or_false] at hb
    rcases hb with rfl | rfl | rfl | rfl <;> exact hbyte _ (by omega) (by omega)

/-! ## Texts -/

theorem decodeFrom_encode (cs : List Char) (index : Nat) (out : List Char) :
    decodeFrom index none out (encode cs) = .ok (out.reverse ++ cs) := by
  induction cs generalizing index out with
  | nil => simp [encode, decodeFrom]
  | cons c cs ih =>
    obtain ⟨index', hstep⟩ := decodeFrom_encodeChar c index out (encode cs)
    have hcons : encode (c :: cs) = encodeChar c ++ encode cs := rfl
    rw [hcons, hstep, ih]
    simp

/-- Every text is UTF-8. -/
theorem decode_encode (cs : List Char) : decode (encode cs) = .ok cs := decodeFrom_encode cs 0 []

theorem encode_printable {cs : List Char} (h : ∀ c ∈ cs, 0x20 ≤ c.toNat) : ∀ b ∈ encode cs, 0x20 ≤ b.toNat := by
  intro b hb
  obtain ⟨c, hc, hb⟩ := List.mem_flatMap.mp hb
  exact encodeChar_printable (h c hc) b hb

/-! ## Sizes -/

theorem size_append (cs ds : List Char) : size (cs ++ ds) = size cs + size ds := by
  have hfrom : ∀ n, ds.foldl (fun n c => n + c.utf8Size) n = n + size ds := by
    unfold size
    induction ds with
    | nil => exact fun n => rfl
    | cons c ds ih =>
      intro n
      rw [List.foldl_cons, List.foldl_cons, ih, ih (0 + c.utf8Size)]
      omega
  unfold size at hfrom ⊢
  rw [List.foldl_append, hfrom]

end ShellHost.Utf8
