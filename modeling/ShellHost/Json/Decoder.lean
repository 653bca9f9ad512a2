import ShellHost.Json.Reader

/-!
# Decoders

A `Decoder` reads a value of some type in two ways: straight from a text, where a mismatch gets a place, or from a
JSON value that was read before. Here are the decoders of plain values, options, lists and enumerations; records are
in `Json.Record`.
-/

namespace ShellHost.Json

variable {α β : Type}

/-- The two ways to read an `α`. -/
structure Decoder (α : Type) where
  /-- Reads it from a text, with at most so many brackets open at a time. -/
  ofText : Nat → List Char → Reading α
  /-- Reads it from a value. -/
  ofValue : Value → Except Mismatch α

/-- Reads a whole text. -/
def Decoder.parse (d : Decoder α) (text : String) : Except ReadError α :=
  let cs := text.toList
  match d.ofText nestingLimit cs with
  | .error f => .error (f.inText cs)
  | .ok (a, rest) =>
    match skipSpace rest with
    | [] => .ok a
    | rest => .error ((Fault.next .trailingCharacters rest).inText cs)

/-- Reads a value; a mismatch has no place. -/
def Decoder.convert (d : Decoder α) (v : Value) : Except ReadError α :=
  (d.ofValue v).mapError fun m => ⟨.mismatch m, none⟩

/-- Any JSON value. -/
def value : Decoder Value := ⟨readValue, .ok⟩

/-- Reads a whole text as a JSON value. -/
def Value.parse (text : String) : Except ReadError Value := value.parse text

/-! ## Plain values -/

/-- A mismatch with the place behind what was read. -/
def mismatchAt (m : Mismatch) (rest : List Char) : Fault := (Fault.unplaced m rest).place

/-- The fault of a text that holds something else than `expected`: a scalar is read whole, a container is not
entered. -/
def wrongType (expected : String) (cs : List Char) : Fault :=
  let found (r : Except Fault (Found × List Char)) : Fault :=
    match r with
    | .error f => f
    | .ok (x, rest) => mismatchAt (.invalidType x expected) rest
  match skipSpace cs with
  | [] => .next .endOfValue []
  | c :: rest =>
    if c = 'n' then found ((readWord ['u', 'l', 'l'] rest).map (.null, ·))
    else if c = 't' then found ((readWord ['r', 'u', 'e'] rest).map (.bool true, ·))
    else if c = 'f' then found ((readWord ['a', 'l', 's', 'e'] rest).map (.bool false, ·))
    else if startsNumber c then found ((readNumber (c :: rest)).map fun (n, rest) => (.number n, rest))
    else if c = '"' then found ((readChars [] rest).map fun (s, rest) => (.string s, rest))
    else if c = '[' then mismatchAt (.invalidType .sequence expected) (c :: rest)
    else if c = '\x7b' then mismatchAt (.invalidType .map expected) (c :: rest)
    else .next .expectedValue (c :: rest)

/-- A text, which an objection calls `expected`. -/
def text (expected : String) : Decoder String where
  ofText _ cs :=
    match skipSpace cs with
    | '"' :: rest => readChars [] rest
    | cs => .error (wrongType expected cs)
  ofValue
    | .string s => .ok s
    | v => .error (.invalidType v.found expected)

/-- A text. -/
def string : Decoder String := text "a string"

/-- A number that `pick` turns into an `α`, and which an objection calls `expected`. -/
def number (expected : String) (pick : Number → Except Mismatch α) : Decoder α where
  ofText _ cs :=
    match skipSpace cs with
    | [] => .error (.next .endOfValue [])
    | c :: rest =>
      if startsNumber c then
        match readNumber (c :: rest) with
        | .error f => .error f
        | .ok (n, rest) => ((pick n).mapError (mismatchAt · rest)).map (·, rest)
      else .error (wrongType expected (c :: rest))
  ofValue
    | .number n => pick n
    | v => .error (.invalidType v.found expected)

/-- A whole number below `bound`. -/
def pickBelow (bound : Nat) (expected : String) (make : Nat → α) (n : Number) : Except Mismatch α :=
  match n with
  | .whole w =>
    if 0 ≤ w.val ∧ w.val < bound then .ok (make w.val.toNat)
    else .error (.invalidValue (.number n) expected)
  | .float _ => .error (.invalidType (.number n) expected)

/-- An unsigned word of 64 bits. -/
def uint64 : Decoder UInt64 := number "u64" (pickBelow UInt64.size "u64" Nat.toUInt64)

/-- An unsigned word of 32 bits. -/
def uint32 : Decoder UInt32 := number "u32" (pickBelow UInt32.size "u32" Nat.toUInt32)

/-- The word `null`, which an objection calls `unit`. -/
def unit : Decoder Unit where
  ofText _ cs :=
    match skipSpace cs with
    | 'n' :: rest => (readWord ['u', 'l', 'l'] rest).map ((), ·)
    | cs => .error (wrongType "unit" cs)
  ofValue
    | .null => .ok ()
    | v => .error (.invalidType v.found "unit")

/-- The word `null`, or an `α`. -/
def option (d : Decoder α) : Decoder (Option α) where
  ofText room cs :=
    match skipSpace cs with
    | 'n' :: rest => (readWord ['u', 'l', 'l'] rest).map (none, ·)
    | cs => (d.ofText room cs).map fun (a, rest) => (some a, rest)
  ofValue
    | .null => .ok none
    | v => (d.ofValue v).map some

/-- An array of `α`. -/
def list (d : Decoder α) : Decoder (List α) where
  ofText room cs :=
    match skipSpace cs with
    | '[' :: rest =>
      match room with
      | 0 => .error (.next .recursionLimit ('[' :: rest))
      | room + 1 => readItems (d.ofText room) rest true [] rest
    | cs => .error (wrongType "a sequence" cs)
  ofValue
    | .array items => items.mapM d.ofValue
    | v => .error (.invalidType v.found "a sequence")

/-- What a decoder reads, seen through a function. -/
def Decoder.map (f : α → β) (d : Decoder α) : Decoder β where
  ofText room cs := (d.ofText room cs).map fun (a, rest) => (f a, rest)
  ofValue v := (d.ofValue v).map f

/-! ## Enumerations -/

/-- One of the names of an enumeration. -/
inductive Variant (α : Type) where
  /-- A name that stands alone. -/
  | unit (name : String) (a : α)
  /-- A name with a value. -/
  | newtype (name : String) (d : Decoder α)

/-- The name of a variant. -/
def Variant.name : Variant α → String
  | unit name _ => name
  | newtype name _ => name

/-- The variant with this name. -/
def findVariant (variants : List (Variant α)) (name : String) : Except Mismatch (Variant α) :=
  match variants.find? (·.name == name) with
  | some v => .ok v
  | none => .error (.unknownVariant name (variants.map Variant.name))

/-- Reads the name of a variant from a text. -/
def readVariant (variants : List (Variant α)) (cs : List Char) : Reading (Variant α) :=
  match (text "variant identifier").ofText 0 cs with
  | .error f => .error f
  | .ok (name, rest) => ((findVariant variants name).mapError (mismatchAt · rest)).map (·, rest)

/-- Reads the name of a variant as the key of an object, which has to have one. -/
def readVariantKey (variants : List (Variant α)) (cs : List Char) : Reading (Variant α) :=
  match skipSpace cs with
  | [] => .error (.next .endOfObject [])
  | c :: rest =>
    if c = '"' then readVariant variants (c :: rest)
    else if c = '\x7d' then .error (.next .expectedValue (c :: rest))
    else .error (.next .keyMustBeString (c :: rest))

/-- The value of a variant whose name stands alone. -/
def Variant.bare : Variant α → Except Mismatch α
  | unit _ a => .ok a
  | newtype _ _ => .error (.invalidType .unitVariant "newtype variant")

/-- Decodes what stands behind the name of a variant in an object. -/
def Variant.payload : Variant α → Decoder α
  | unit _ a => Json.unit.map fun _ => a
  | newtype _ d => d

/-- One of several names: the bare name, or an object with the name as its only key. -/
def enumeration (variants : List (Variant α)) : Decoder α where
  ofText room cs :=
    match skipSpace cs with
    | [] => .error (.next .endOfValue [])
    | c :: rest =>
      if c = '\x7b' then
        match room with
        | 0 => .error (.next .recursionLimit (c :: rest))
        | room + 1 =>
          match readVariantKey variants rest with
          | .error f => .error f
          | .ok (v, rest) =>
            match readColon rest with
            | .error f => .error f
            | .ok rest =>
              match v.payload.ofText room rest with
              | .error f => .error f
              | .ok (a, rest) =>
                match skipSpace rest with
                | '\x7d' :: rest => .ok (a, rest)
                | [] => .error (.behind .endOfObject [])
                | rest => .error (.behind .expectedValue rest)
      else if c = '"' then
        match readVariant variants (c :: rest) with
        | .error f => .error f
        | .ok (v, rest) => (v.bare.mapError (Fault.unplaced · rest)).map (·, rest)
      else .error (.next .expectedValue (c :: rest))
  ofValue
    | .object [(name, v)] =>
      match findVariant variants name with
      | .error m => .error m
      | .ok variant => variant.payload.ofValue v
    | .object _ => .error (.invalidValue .map "map with a single key")
    | .string name =>
      match findVariant variants name with
      | .error m => .error m
      | .ok variant => variant.bare
    | v => .error (.invalidType v.found "string or map")

end ShellHost.Json
