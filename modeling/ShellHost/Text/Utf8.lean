/-!
# UTF-8

Bytes and characters. `encode` writes characters as bytes; `decode` reads bytes as characters or names the first
`Flaw`; `decodeLossy` reads any bytes and puts the replacement character where a flaw is. Both readers run the same
machine, one byte at a time: between characters, or inside a character that still owes continuation bytes
(`Partial`). The ranges a continuation byte may come from depend on the first byte, so overlong forms, surrogates and
numbers past the last character are refused at the first byte that rules them out.
-/

namespace ShellHost.Utf8

/-- The bytes of one character, between one and four of them. -/
def encodeChar (c : Char) : List UInt8 :=
  let n := c.toNat
  if n < 0x80 then [n.toUInt8]
  else if n < 0x800 then [(0xC0 + n / 64).toUInt8, (0x80 + n % 64).toUInt8]
  else if n < 0x10000 then
    [(0xE0 + n / 4096).toUInt8, (0x80 + n / 64 % 64).toUInt8, (0x80 + n % 64).toUInt8]
  else
    [(0xF0 + n / 262144).toUInt8, (0x80 + n / 4096 % 64).toUInt8, (0x80 + n / 64 % 64).toUInt8,
      (0x80 + n % 64).toUInt8]

/-- The bytes of a sequence of characters. -/
def encode (cs : List Char) : List UInt8 := cs.flatMap encodeChar

/-- The bytes of a string. -/
def encodeString (s : String) : List UInt8 := encode s.toList

/-- Where and how a byte sequence stops being UTF-8. -/
structure Flaw where
  /-- The number of bytes before the flaw, all of them good. -/
  index : Nat
  /-- How many bytes begin no character, or `none` where the end cuts a character off. -/
  length : Option Nat
  deriving DecidableEq, Repr

/-- The flaw in words. -/
def Flaw.message (f : Flaw) : String :=
  match f.length with
  | some n => s!"invalid utf-8 sequence of {n} bytes from index {f.index}"
  | none => s!"incomplete utf-8 byte sequence from index {f.index}"

/-- A character whose first bytes have been read. -/
structure Partial where
  /-- The continuation bytes that are still to come after the next one. -/
  owed : Nat
  /-- The least value of the next byte. -/
  low : Nat
  /-- The greatest value of the next byte. -/
  high : Nat
  /-- The number read so far. -/
  code : Nat
  /-- The bytes read so far. -/
  taken : Nat
  deriving DecidableEq, Repr

/-- What one more byte makes of a character. -/
inductive Progress where
  /-- The character is complete. -/
  | complete (c : Char)
  /-- More bytes are to come. -/
  | unfinished (p : Partial)
  /-- No character continues in this way. -/
  | refused
  deriving Repr

/-- The first byte of a character. -/
def first (b : UInt8) : Progress :=
  let n := b.toNat
  if n < 0x80 then .complete (Char.ofNat n)
  else if n < 0xC2 then .refused
  else if n < 0xE0 then .unfinished ⟨0, 0x80, 0xBF, n - 0xC0, 1⟩
  else if n < 0xF0 then
    .unfinished ⟨1, if n = 0xE0 then 0xA0 else 0x80, if n = 0xED then 0x9F else 0xBF, n - 0xE0, 1⟩
  else if n < 0xF5 then
    .unfinished ⟨2, if n = 0xF0 then 0x90 else 0x80, if n = 0xF4 then 0x8F else 0xBF, n - 0xF0, 1⟩
  else .refused

/-- A byte after the first one. -/
def Partial.next (p : Partial) (b : UInt8) : Progress :=
  let n := b.toNat
  if p.low ≤ n ∧ n ≤ p.high then
    let code := p.code * 64 + (n - 0x80)
    match p.owed with
    | 0 => .complete (Char.ofNat code)
    | owed + 1 => .unfinished ⟨owed, 0x80, 0xBF, code, p.taken + 1⟩
  else .refused

/-- Reads on from `index` good bytes; `out` holds their characters, latest first. -/
def decodeFrom (index : Nat) (begun : Option Partial) (out : List Char) :
    List UInt8 → Except Flaw (List Char)
  | [] =>
    match begun with
    | none => .ok out.reverse
    | some _ => .error ⟨index, none⟩
  | b :: bs =>
    match begun with
    | none =>
      match first b with
      | .complete c => decodeFrom (index + 1) none (c :: out) bs
      | .unfinished p => decodeFrom index (some p) out bs
      | .refused => .error ⟨index, some 1⟩
    | some p =>
      match p.next b with
      | .complete c => decodeFrom (index + p.taken + 1) none (c :: out) bs
      | .unfinished q => decodeFrom index (some q) out bs
      | .refused => .error ⟨index, some p.taken⟩

/-- The characters of a byte sequence, or its first flaw. -/
def decode (bytes : List UInt8) : Except Flaw (List Char) := decodeFrom 0 none [] bytes

/-- Stands for bytes that are no character. -/
def replacement : Char := '\uFFFD'

/-- Reads on with the characters so far in `out`, latest first. A byte that does not continue a character is read
again as a first byte, after one replacement character for the bytes before it. -/
def decodeLossyFrom (begun : Option Partial) (out : List Char) : List UInt8 → List Char
  | [] =>
    match begun with
    | none => out.reverse
    | some _ => (replacement :: out).reverse
  | b :: bs =>
    let fresh (out : List Char) :=
      match first b with
      | .complete c => decodeLossyFrom none (c :: out) bs
      | .unfinished p => decodeLossyFrom (some p) out bs
      | .refused => decodeLossyFrom none (replacement :: out) bs
    match begun with
    | none => fresh out
    | some p =>
      match p.next b with
      | .complete c => decodeLossyFrom none (c :: out) bs
      | .unfinished q => decodeLossyFrom (some q) out bs
      | .refused => fresh (replacement :: out)

/-- The characters of any byte sequence, one replacement character for each stretch that is not UTF-8. -/
def decodeLossy (bytes : List UInt8) : List Char := decodeLossyFrom none [] bytes

/-- The number of bytes that characters take. -/
def size (cs : List Char) : Nat := cs.foldl (fun n c => n + c.utf8Size) 0

/-- A text in two parts, the first of which has so many bytes; `none` if that place is inside a character or behind the
end. -/
def splitAt? : Nat → List Char → Option (List Char × List Char)
  | 0, cs => some ([], cs)
  | _ + 1, [] => none
  | n + 1, c :: cs =>
    if c.utf8Size ≤ n + 1 then (splitAt? (n + 1 - c.utf8Size) cs).map fun (front, rest) => (c :: front, rest)
    else none

end ShellHost.Utf8
