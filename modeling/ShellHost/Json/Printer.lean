import ShellHost.Json.Value
import ShellHost.Number.Decimal

/-!
# The text of a JSON value

`Value.render` writes a value without any space, `Value.renderPretty` over several lines with two blanks for each
level. Members are written in the order in which they stand.

A text is built backwards: `emit` puts the characters of a value in front of the text so far, which has its last
character first. So the work for a value does not depend on what was written before it, and no list is too long.
-/

namespace ShellHost.Json

/-- Puts characters behind a text whose last character stands first. -/
def push (cs out : List Char) : List Char := cs.reverseAux out

/-- A whole number in decimal digits. -/
def intDigits (n : Int) : List Char :=
  if n < 0 then '-' :: Nat.toDigits 10 n.natAbs else Nat.toDigits 10 n.natAbs

/-- How a double is written whose digits are known. -/
structure FloatLayout where
  /-- The least power of ten of a first digit that is written without an exponent. -/
  leastPlain : Int
  /-- The greatest one. -/
  greatestPlain : Int

/-- Exponents are avoided from `0.00001` up to sixteen places before the point. -/
def layout : FloatLayout := ⟨-5, 15⟩

/-- A double in the fewest digits that are read back as it, always with a point or an exponent. -/
def floatDigits (x : Double) : List Char :=
  let sign := if x.negative then ['-'] else []
  if x.isZero then sign ++ ['0', '.', '0']
  else
    let (d, k) := x.shortest
    let digits := Nat.toDigits 10 d
    let first := k + digits.length - 1
    sign ++
      if layout.leastPlain ≤ first ∧ first ≤ layout.greatestPlain then
        if 0 ≤ k then digits ++ List.replicate k.toNat '0' ++ ['.', '0']
        else if 0 ≤ first then
          digits.take (first.toNat + 1) ++ '.' :: digits.drop (first.toNat + 1)
        else '0' :: '.' :: List.replicate (-first - 1).toNat '0' ++ digits
      else
        let fraction := if digits.length = 1 then [] else '.' :: digits.drop 1
        digits.take 1 ++ fraction ++ 'e' :: (if first < 0 then '-' else '+') :: Nat.toDigits 10 first.natAbs

/-- A number in digits. -/
def Number.digits : Number → List Char
  | whole n => intDigits n.val
  | float x => floatDigits x

/-- A digit in hexadecimal, in lower case. -/
def hexDigit (n : Nat) : Char := if n < 10 then Char.ofNat (48 + n) else Char.ofNat (87 + n)

/-- One character between the quotes of a text. -/
def escape (c : Char) : List Char :=
  if c = '"' then ['\\', '"']
  else if c = '\\' then ['\\', '\\']
  else if c = '\x08' then ['\\', 'b']
  else if c = '\x0c' then ['\\', 'f']
  else if c = '\n' then ['\\', 'n']
  else if c = '\r' then ['\\', 'r']
  else if c = '\t' then ['\\', 't']
  else if c.toNat < 0x20 then ['\\', 'u', '0', '0', hexDigit (c.toNat / 16), hexDigit (c.toNat % 16)]
  else [c]

/-- Writes characters that stand between quotes. -/
def emitChars : List Char → List Char → List Char
  | [], out => out
  | c :: rest, out => emitChars rest (push (escape c) out)

/-- Writes a text with its quotes. -/
def emitString (s : String) (out : List Char) : List Char := '"' :: emitChars s.toList ('"' :: out)

/-- The word for a truth value. -/
def boolWord (b : Bool) : List Char := if b then ['t', 'r', 'u', 'e'] else ['f', 'a', 'l', 's', 'e']

/-- The word for no value. -/
def nullWord : List Char := ['n', 'u', 'l', 'l']

mutual

/-- Writes a value without any space. -/
def Value.emit : Value → List Char → List Char
  | .null, out => push nullWord out
  | .bool b, out => push (boolWord b) out
  | .number n, out => push n.digits out
  | .string s, out => emitString s out
  | .array items, out => ']' :: emitItems true items ('[' :: out)
  | .object members, out => '\x7d' :: emitMembers true members ('\x7b' :: out)

/-- Writes items, with a comma before each but the first. -/
def emitItems (first : Bool) : List Value → List Char → List Char
  | [], out => out
  | v :: rest, out => emitItems false rest (v.emit (if first then out else ',' :: out))

/-- Writes members, with a comma before each but the first. -/
def emitMembers (first : Bool) : List (String × Value) → List Char → List Char
  | [], out => out
  | m :: rest, out =>
    emitMembers false rest (m.2.emit (':' :: emitString m.1 (if first then out else ',' :: out)))

end

/-- The text of a value, without any space. -/
def Value.render (v : Value) : String := String.ofList (v.emit []).reverse

/-- Begins a line at a level. -/
def newline (level : Nat) (out : List Char) : List Char := push (List.replicate (2 * level) ' ') ('\n' :: out)

mutual

/-- Writes a value over several lines. -/
def Value.emitPretty (level : Nat) : Value → List Char → List Char
  | .null, out => push nullWord out
  | .bool b, out => push (boolWord b) out
  | .number n, out => push n.digits out
  | .string s, out => emitString s out
  | .array [], out => ']' :: '[' :: out
  | .array (v :: rest), out =>
    ']' :: newline level (emitPrettyItems (level + 1) rest
      (v.emitPretty (level + 1) (newline (level + 1) ('[' :: out))))
  | .object [], out => '\x7d' :: '\x7b' :: out
  | .object (m :: rest), out =>
    '\x7d' :: newline level (emitPrettyMembers (level + 1) rest
      (m.2.emitPretty (level + 1) (' ' :: ':' :: emitString m.1 (newline (level + 1) ('\x7b' :: out)))))

/-- Writes items after the first, each on a line of its own. -/
def emitPrettyItems (level : Nat) : List Value → List Char → List Char
  | [], out => out
  | v :: rest, out => emitPrettyItems level rest (v.emitPretty level (newline level (',' :: out)))

/-- Writes members after the first, each on a line of its own. -/
def emitPrettyMembers (level : Nat) : List (String × Value) → List Char → List Char
  | [], out => out
  | m :: rest, out =>
    emitPrettyMembers level rest
      (m.2.emitPretty level (' ' :: ':' :: emitString m.1 (newline level (',' :: out))))

end

/-- The text of a value over several lines, two blanks for each level. -/
def Value.renderPretty (v : Value) : String := String.ofList (v.emitPretty 0 []).reverse

end ShellHost.Json
