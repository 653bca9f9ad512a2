import Mathlib.Data.List.Basic
import ShellHost.Lines.Reader

/-!
# A newline at the end of a text

Whether the newline that ends a line is read with it makes no difference to its text: the line is UTF-8 with the newline
if it is so without, and the newline is trimmed off as a blank. Only a character that the end of the line cuts off is
told in another way.
-/

namespace ShellHost

namespace Utf8

/-- A flaw as it is told when a newline follows the bytes: a character that was cut off ends there. -/
def Flaw.beforeNewline (f : Flaw) (size : Nat) : Flaw := { f with length := some (f.length.getD (size - f.index)) }

/-- No newline continues a character that has begun. -/
def Partial.Sound (p : Partial) : Prop := 0x80 ≤ p.low

theorem first_unfinished {b : UInt8} {p : Partial} (h : first b = .unfinished p) : p.Sound ∧ p.taken = 1 := by
  simp only [first] at h
  split_ifs at h <;> simp only [Progress.unfinished.injEq] at h <;> subst h <;>
    exact ⟨by simp [Partial.Sound], rfl⟩

theorem Partial.next_unfinished {p q : Partial} {b : UInt8} (h : p.next b = .unfinished q) :
    q.Sound ∧ q.taken = p.taken + 1 := by
  simp only [Partial.next] at h
  split at h
  · split at h
    · cases h
    · cases h
      exact ⟨Nat.le_refl _, rfl⟩
  · cases h

theorem Partial.Sound.next_newline {p : Partial} (h : p.Sound) : p.next newlineByte = .refused := by
  refine if_neg fun hle => ?_
  have hlow : 0x80 ≤ newlineByte.toNat := Nat.le_trans h hle.1
  exact absurd hlow (by decide)

theorem decodeFrom_append_newline (index : Nat) (begun : Option Partial) (out : List Char) (bs : List UInt8)
    (hbegun : ∀ p, begun = some p → p.Sound) :
    decodeFrom index begun out (bs ++ [newlineByte]) =
      match decodeFrom index begun out bs with
      | .ok cs => .ok (cs ++ ['\n'])
      | .error f => .error (f.beforeNewline (index + (begun.elim 0 Partial.taken) + bs.length)) := by
  induction bs generalizing index begun out with
  | nil =>
    cases begun with
    | none =>
      show Except.ok ('\n' :: out).reverse = Except.ok (out.reverse ++ ['\n'])
      rw [List.reverse_cons]
    | some p =>
      simp [decodeFrom, (hbegun p rfl).next_newline, Flaw.beforeNewline]
  | cons b bs ih =>
    cases begun with
    | none =>
      rw [List.cons_append, decodeFrom, decodeFrom]
      cases hb : first b with
      | complete c =>
        dsimp only
        rw [ih _ none _ nofun]
        simp [Nat.add_assoc, Nat.add_comm 1]
      | unfinished p =>
        obtain ⟨hp, htaken⟩ := first_unfinished hb
        dsimp only
        rw [ih _ _ _ (by simpa using hp)]
        simp [htaken, Nat.add_assoc, Nat.add_comm 1]
      | refused => simp [Flaw.beforeNewline]
    | some p =>
      rw [List.cons_append, decodeFrom, decodeFrom]
      cases hb : p.next b with
      | complete c =>
        dsimp only
        rw [ih _ none _ nofun]
        simp [Nat.add_assoc, Nat.add_comm 1]
      | unfinished q =>
        obtain ⟨hq, htaken⟩ := Partial.next_unfinished hb
        dsimp only
        rw [ih _ _ _ (by simpa using hq)]
        simp [htaken, Nat.add_assoc, Nat.add_comm 1]
      | refused => simp [Flaw.beforeNewline]

/-- With a newline behind them, bytes are UTF-8 if they are so without. -/
theorem decode_append_newline (bs : List UInt8) :
    decode (bs ++ [newlineByte]) =
      match decode bs with
      | .ok cs => .ok (cs ++ ['\n'])
      | .error f => .error (f.beforeNewline bs.length) := by
  unfold decode
  rw [decodeFrom_append_newline 0 none [] bs nofun]
  simp

end Utf8

namespace Text

theorem trim_append_newline (cs : List Char) : trim (cs ++ ['\n']) = trim cs := by
  have hblank : isBlank '\n' = true := by decide
  unfold trim
  rw [List.dropWhile_append]
  cases hcs : cs.dropWhile isBlank with
  | nil => simp [hblank]
  | cons c rest => simp [hblank]

end Text

end ShellHost
