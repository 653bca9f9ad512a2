import Mathlib.Data.List.Basic
import ShellHost.Json.Scanner

/-!
# Reading back strings

Every character between quotes is written in one of three ways (`escape_cases`), and each is read back as the
character. So the printed form of a string is read as that string, and no control character stands in it.
-/

namespace ShellHost.Json

/-- A text with its quotes. -/
def stringChars (s : String) : List Char := '"' :: (s.toList.flatMap escape ++ ['"'])

/-- The three ways to write a character between quotes: a letter behind a backslash, its number, or itself. -/
theorem escape_cases (c : Char) :
    (∃ e, escape c = ['\\', e] ∧ e ≠ 'u' ∧ unescape? e = some c ∧ 0x20 ≤ e.toNat) ∨
    (escape c = ['\\', 'u', '0', '0', hexDigit (c.toNat / 16), hexDigit (c.toNat % 16)] ∧ c.toNat < 0x20) ∨
    (escape c = [c] ∧ c ≠ '"' ∧ c ≠ '\\' ∧ 0x20 ≤ c.toNat) := by
  unfold escape
  split_ifs with hquote hslash hb hf hn hr ht hcontrol
  · exact .inl ⟨_, rfl, by decide, by subst hquote; decide, by decide⟩
  · exact .inl ⟨_, rfl, by decide, by subst hslash; decide, by decide⟩
  · exact .inl ⟨_, rfl, by decide, by subst hb; decide, by decide⟩
  · exact .inl ⟨_, rfl, by decide, by subst hf; decide, by decide⟩
  · exact .inl ⟨_, rfl, by decide, by subst hn; decide, by decide⟩
  · exact .inl ⟨_, rfl, by decide, by subst hr; decide, by decide⟩
  · exact .inl ⟨_, rfl, by decide, by subst ht; decide, by decide⟩
  · exact .inr (.inl ⟨rfl, hcontrol⟩)
  · exact .inr (.inr ⟨rfl, hquote, hslash, by omega⟩)

theorem hexUnit_control : ∀ n < 0x20, hexUnit? '0' '0' (hexDigit (n / 16)) (hexDigit (n % 16)) = some n := by
  decide

theorem hexDigit_printable : ∀ n < 16, 0x20 ≤ (hexDigit n).toNat := by
  decide

theorem escape_printable {c d : Char} (h : d ∈ escape c) : 0x20 ≤ d.toNat := by
  obtain ⟨e, he, -, -, hprint⟩ | ⟨he, hlt⟩ | ⟨he, -, -, hprint⟩ := escape_cases c <;> rw [he] at h
  · rcases List.mem_pair.mp h with rfl | rfl
    · decide
    · exact hprint
  · have hhigh := hexDigit_printable (c.toNat / 16) (by omega)
    have hlow := hexDigit_printable (c.toNat % 16) (by omega)
    simp only [List.mem_cons, List.not_mem_nil, or_false] at h
    rcases h with rfl | rfl | rfl | rfl | rfl | rfl
    all_goals first | exact hhigh | exact hlow | decide
  · exact List.mem_singleton.mp h ▸ hprint

theorem readChars_escape (c : Char) (out rest : List Char) :
    readChars out (escape c ++ rest) = readChars (c :: out) rest := by
  obtain ⟨e, he, hu, hc, -⟩ | ⟨he, hlt⟩ | ⟨he, hquote, hslash, hprint⟩ := escape_cases c <;> rw [he]
  · rw [List.cons_append, readChars.eq_def]
    simp [hu, hc]
  · rw [List.cons_append, readChars.eq_def]
    simp [hexUnit_control c.toNat hlt, show c.toNat < 0xD800 by omega]
  · rw [List.cons_append, readChars.eq_def]
    simp [hquote, hslash, show ¬c.toNat < 0x20 by omega]

theorem readChars_escapes (cs out rest : List Char) :
    readChars out (cs.flatMap escape ++ '"' :: rest) = .ok (String.ofList (out.reverse ++ cs), rest) := by
  induction cs generalizing out with
  | nil =>
    rw [List.flatMap_nil, List.nil_append, readChars.eq_def]
    simp
  | cons c cs ih => rw [List.flatMap_cons, List.append_assoc, readChars_escape, ih]; simp

theorem skipChars_escape (c : Char) (rest : List Char) : skipChars (escape c ++ rest) = skipChars rest := by
  obtain ⟨e, he, hu, hc, -⟩ | ⟨he, hlt⟩ | ⟨he, hquote, hslash, hprint⟩ := escape_cases c <;> rw [he]
  · rw [List.cons_append, skipChars.eq_def]
    simp [hu, hc]
  · rw [List.cons_append, skipChars.eq_def]
    simp [hexUnit_control c.toNat hlt]
  · rw [List.cons_append, skipChars.eq_def]
    simp [hquote, hslash, show ¬c.toNat < 0x20 by omega]

theorem skipChars_escapes (cs rest : List Char) : skipChars (cs.flatMap escape ++ '"' :: rest) = .ok rest := by
  induction cs with
  | nil =>
    rw [List.flatMap_nil, List.nil_append, skipChars.eq_def]
    simp
  | cons c cs ih => rw [List.flatMap_cons, List.append_assoc, skipChars_escape, ih]

/-- A string is read back whole, whatever follows. -/
theorem readChars_string (s : String) (rest : List Char) :
    readChars [] ((stringChars s).tail ++ rest) = .ok (s, rest) := by
  have h := readChars_escapes s.toList [] rest
  simpa [stringChars] using h

theorem skipChars_string (s : String) (rest : List Char) :
    skipChars ((stringChars s).tail ++ rest) = .ok rest := by
  have h := skipChars_escapes s.toList rest
  simpa [stringChars] using h

theorem stringChars_printable {s : String} {c : Char} (h : c ∈ stringChars s) : 0x20 ≤ c.toNat := by
  simp only [stringChars, List.mem_cons, List.mem_append, List.mem_flatMap, List.not_mem_nil, or_false] at h
  rcases h with rfl | ⟨d, -, hd⟩ | rfl
  · decide
  · exact escape_printable hd
  · decide

end ShellHost.Json
