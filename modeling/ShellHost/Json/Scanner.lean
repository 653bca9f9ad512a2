import ShellHost.Json.Fault

/-!
# The words of a JSON text

Readers for what a JSON text is made of: blanks, strings, the three words and numbers. Each takes the characters that
are still to be read and gives what stands in front of them together with the rest, or a fault.

A number without point and exponent that fits a 64-bit word is whole. All others are floats: digits go into a
significand as long as it fits a word, further ones only count towards the exponent.
-/

namespace ShellHost.Json

/-- What a reader gives: a result and the rest of the text, or a fault. -/
abbrev Reading (α : Type) := Except Fault (α × List Char)

/-- The blanks between the parts of a text. -/
def isSpace (c : Char) : Bool := c == ' ' || c == '\n' || c == '\t' || c == '\r'

/-- The text from its first character on that is no blank. -/
def skipSpace (cs : List Char) : List Char := cs.dropWhile isSpace

/-- Reads the rest of a word. -/
def readWord : List Char → List Char → Except Fault (List Char)
  | [], cs => .ok cs
  | _ :: _, [] => .error (.behind .endOfValue [])
  | w :: word, c :: cs => if c = w then readWord word cs else .error (.next .expectedIdent (c :: cs))

/-! ## Strings -/

/-- The value of a hexadecimal digit. -/
def hexValue? (c : Char) : Option Nat :=
  if '0' ≤ c ∧ c ≤ '9' then some (c.toNat - 48)
  else if 'a' ≤ c ∧ c ≤ 'f' then some (c.toNat - 87)
  else if 'A' ≤ c ∧ c ≤ 'F' then some (c.toNat - 55)
  else none

/-- The number that four hexadecimal digits write. -/
def hexUnit? (a b c d : Char) : Option Nat := do
  return ((← hexValue? a) * 16 + (← hexValue? b)) * 256 + ((← hexValue? c) * 16 + (← hexValue? d))

/-- The fault of an escape that should continue with four digits and does not: four bytes are read, if there are so
many. -/
def badHexUnit (cs : List Char) : Fault :=
  if Utf8.size (cs.take 4) < 4 then .behind .endOfString [] else ⟨.invalidEscape, cs, 4, true⟩

/-- The fault of a high surrogate that no escaped low one follows. -/
def missingLowHalf : List Char → Fault
  | [] => .behind .endOfString []
  | '\\' :: [] => .behind .endOfString []
  | '\\' :: 'u' :: rest => badHexUnit rest
  | '\\' :: rest => .next .endOfHexEscape rest
  | cs => .next .endOfHexEscape cs

/-- The character that a letter after a backslash stands for. -/
def unescape? (c : Char) : Option Char :=
  if c = '"' ∨ c = '\\' ∨ c = '/' then some c
  else if c = 'b' then some '\x08'
  else if c = 'f' then some '\x0c'
  else if c = 'n' then some '\n'
  else if c = 'r' then some '\r'
  else if c = 't' then some '\t'
  else none

/-- Reads a string behind its opening quote; `out` holds its characters so far, the last one first. -/
def readChars (out : List Char) : List Char → Reading String
  | [] => .error (.behind .endOfString [])
  | c :: rest =>
    if c = '"' then .ok (String.ofList out.reverse, rest)
    else if c = '\\' then
      match rest with
      | [] => .error (.behind .endOfString [])
      | e :: rest =>
        if e = 'u' then
          match rest with
          | h₁ :: h₂ :: h₃ :: h₄ :: tail =>
            match hexUnit? h₁ h₂ h₃ h₄ with
            | none => .error (badHexUnit rest)
            | some n =>
              if n < 0xD800 ∨ 0xE000 ≤ n then readChars (Char.ofNat n :: out) tail
              else if 0xDC00 ≤ n then .error (.behind .loneSurrogate tail)
              else
                match tail with
                | '\\' :: 'u' :: l₁ :: l₂ :: l₃ :: l₄ :: more =>
                  match hexUnit? l₁ l₂ l₃ l₄ with
                  | none => .error (missingLowHalf tail)
                  | some m =>
                    if 0xDC00 ≤ m ∧ m < 0xE000 then
                      readChars (Char.ofNat (0x10000 + (n - 0xD800) * 0x400 + (m - 0xDC00)) :: out) more
                    else .error (.behind .loneSurrogate more)
                | _ => .error (missingLowHalf tail)
          | _ => .error (badHexUnit rest)
        else
          match unescape? e with
          | some x => readChars (x :: out) rest
          | none => .error (.next .invalidEscape (e :: rest))
    else if c.toNat < 0x20 then .error (.behind .controlCharacter rest)
    else readChars (c :: out) rest

/-- Passes over a string behind its opening quote. The halves of surrogate pairs may stand alone. -/
def skipChars : List Char → Except Fault (List Char)
  | [] => .error (.behind .endOfString [])
  | c :: rest =>
    if c = '"' then .ok rest
    else if c = '\\' then
      match rest with
      | [] => .error (.behind .endOfString [])
      | e :: rest =>
        if e = 'u' then
          match rest with
          | h₁ :: h₂ :: h₃ :: h₄ :: tail =>
            match hexUnit? h₁ h₂ h₃ h₄ with
            | none => .error (badHexUnit rest)
            | some _ => skipChars tail
          | _ => .error (badHexUnit rest)
        else
          match unescape? e with
          | some _ => skipChars rest
          | none => .error (.next .invalidEscape (e :: rest))
    else if c.toNat < 0x20 then .error (.behind .controlCharacter (c :: rest))
    else skipChars rest

/-! ## Numbers -/

/-- Whether a character is a decimal digit. -/
def isDigit (c : Char) : Bool := '0' ≤ c && c ≤ '9'

/-- The value of a decimal digit. -/
def digitValue (c : Char) : Nat := c.toNat - 48

/-- Whether the text goes on with a digit. -/
def startsWithDigit : List Char → Bool
  | [] => false
  | c :: _ => isDigit c

/-- Takes digits into a significand as long as it fits a 64-bit word, and counts them. -/
def takeDigits (n count : Nat) : List Char → Nat × Nat × List Char
  | [] => (n, count, [])
  | c :: rest =>
    if isDigit c ∧ n * 10 + digitValue c < UInt64.size then takeDigits (n * 10 + digitValue c) (count + 1) rest
    else (n, count, c :: rest)

/-- Counts digits. -/
def countDigits (count : Nat) : List Char → Nat × List Char
  | [] => (count, [])
  | c :: rest => if isDigit c then countDigits (count + 1) rest else (count, c :: rest)

/-- The text behind its leading digits. -/
def dropDigits (cs : List Char) : List Char := cs.dropWhile isDigit

/-- A float of known digits. -/
def finishFloat (negative : Bool) (n : Nat) (exponent : Int) (rest : List Char) : Reading Number :=
  match Double.ofDecimal? negative n exponent with
  | some x => .ok (.float x, rest)
  | none => .error (.behind .numberOutOfRange rest)

/-- Reads the digits of an exponent, behind its first one. An exponent of more than 31 bits decides alone: the number
is zero, or out of range. -/
def readExponentDigits (negative : Bool) (n : Nat) (exponent : Int) (down : Bool) (e : Nat) :
    List Char → Reading Number
  | [] => finishFloat negative n (if down then exponent - e else exponent + e) []
  | c :: rest =>
    if isDigit c then
      let e' := e * 10 + digitValue c
      if e' < 0x80000000 then readExponentDigits negative n exponent down e' rest
      else if n ≠ 0 ∧ ¬down then .error (.behind .numberOutOfRange rest)
      else .ok (.float (.zero negative), dropDigits rest)
    else finishFloat negative n (if down then exponent - e else exponent + e) (c :: rest)

/-- Reads an exponent behind its letter. -/
def readExponent (negative : Bool) (n : Nat) (exponent : Int) (cs : List Char) : Reading Number :=
  let (down, cs) :=
    match cs with
    | '+' :: rest => (false, rest)
    | '-' :: rest => (true, rest)
    | _ => (false, cs)
  match cs with
  | [] => .error (.behind .endOfValue [])
  | c :: rest =>
    if isDigit c then readExponentDigits negative n exponent down (digitValue c) rest
    else .error (.next .invalidNumber cs)

/-- Whether a text goes on with the letter of an exponent. -/
def startsExponent : List Char → Bool
  | [] => false
  | c :: _ => c == 'e' || c == 'E'

/-- Reads what follows the digits of a float. -/
def readFloatEnd (negative : Bool) (n : Nat) (exponent : Int) (cs : List Char) : Reading Number :=
  if startsExponent cs then readExponent negative n exponent cs.tail else finishFloat negative n exponent cs

/-- Reads a fraction behind its point. Digits that no longer fit the significand are passed over. -/
def readFraction (negative : Bool) (n : Nat) (exponent : Int) (cs : List Char) : Reading Number :=
  let (m, count, rest) := takeDigits n 0 cs
  if count = 0 ∧ !startsWithDigit rest then
    match rest with
    | [] => .error (.next .endOfValue [])
    | _ => .error (.next .invalidNumber rest)
  else readFloatEnd negative m (exponent - count) (dropDigits rest)

/-- A whole number of known sign and digits. One below the least signed word is a float, and so is minus zero. -/
def finishWhole (negative : Bool) (n : Nat) (rest : List Char) : Reading Number :=
  if negative then
    if n = 0 then .ok (.float (.zero true), rest)
    else
      match Whole.ofInt? (-n) with
      | some w => .ok (.whole w, rest)
      | none => finishFloat true n 0 rest
  else
    match Whole.ofInt? n with
    | some w => .ok (.whole w, rest)
    | none => finishFloat false n 0 rest

/-- Reads what follows the digits before the point, of which `dropped` did not fit the significand. -/
def readNumberEnd (negative : Bool) (n dropped : Nat) (cs : List Char) : Reading Number :=
  match cs with
  | '.' :: rest => readFraction negative n dropped rest
  | _ =>
    if startsExponent cs || dropped ≠ 0 then readFloatEnd negative n dropped cs
    else finishWhole negative n cs

/-- Reads a number behind its sign. -/
def readUnsigned (negative : Bool) : List Char → Reading Number
  | [] => .error (.behind .endOfValue [])
  | c :: rest =>
    if c = '0' then
      if startsWithDigit rest then .error (.next .invalidNumber rest) else readNumberEnd negative 0 0 rest
    else if isDigit c then
      let (n, _, rest) := takeDigits (digitValue c) 0 rest
      let (dropped, rest) := countDigits 0 rest
      readNumberEnd negative n dropped rest
    else .error (.next .invalidNumber (c :: rest))

/-- Whether a number begins with this character. -/
def startsNumber (c : Char) : Bool := c == '-' || isDigit c

/-- Reads a number. -/
def readNumber : List Char → Reading Number
  | '-' :: rest => readUnsigned true rest
  | cs => readUnsigned false cs

/-- Passes over an exponent behind its letter. -/
def skipExponent (cs : List Char) : Except Fault (List Char) :=
  let cs :=
    match cs with
    | '+' :: rest => rest
    | '-' :: rest => rest
    | _ => cs
  if startsWithDigit cs then .ok (dropDigits cs) else .error (.next .invalidNumber cs)

/-- Passes over what follows the digits before the point. -/
def skipNumberEnd (cs : List Char) : Except Fault (List Char) :=
  match cs with
  | '.' :: rest =>
    if startsWithDigit rest then
      let rest := dropDigits rest
      if startsExponent rest then skipExponent rest.tail else .ok rest
    else .error (.next .invalidNumber rest)
  | _ => if startsExponent cs then skipExponent cs.tail else .ok cs

/-- Passes over a number behind its sign. Its size does not matter. -/
def skipUnsigned : List Char → Except Fault (List Char)
  | [] => .error (.behind .invalidNumber [])
  | c :: rest =>
    if c = '0' then
      if startsWithDigit rest then .error (.next .invalidNumber rest) else skipNumberEnd rest
    else if isDigit c then skipNumberEnd (dropDigits rest)
    else .error (.next .invalidNumber (c :: rest))

/-- Passes over a number. -/
def skipNumber : List Char → Except Fault (List Char)
  | '-' :: rest => skipUnsigned rest
  | cs => skipUnsigned cs

end ShellHost.Json
