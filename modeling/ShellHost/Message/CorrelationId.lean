/-!
# Correlation ids

Short names for sessions in a log: eight hexadecimal digits, drawn at random.
-/

namespace ShellHost

/-- The digits of the lowest `n` hexadecimal places of a number. -/
def hexPlaces : Nat → Nat → List Char
  | 0, _ => []
  | n + 1, word => hexPlaces n (word / 16) ++ Nat.toDigits 16 (word % 16)

/-- The correlation id of a random word. -/
def correlationId (word : UInt32) : String := String.ofList (hexPlaces 8 word.toNat)

end ShellHost
