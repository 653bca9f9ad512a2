import ShellHost.Json.Decoder

/-!
# Decoding records

A `Record` describes a type with named fields: each `RecordField` fills one place of a draft, and `finish` turns the
draft into the value or names the first field that is missing. A record is read from an object, in any order and each
field once at most, or from an array with the fields in their order.

`Tagged` is an enumeration whose variants are records, where one member of the object names the variant.
-/

namespace ShellHost.Json

variable {α β σ : Type}

/-- A field of a record with drafts `σ`. -/
structure RecordField (σ : Type) where
  /-- The key. -/
  name : String
  /-- Whether the draft has the field. -/
  filled : σ → Bool
  /-- Reads the field, as a change of the draft. -/
  decoder : Decoder (σ → σ)

/-- The field that `d` reads, at the place of the draft that `get` and `set` name. -/
def field (name : String) (get : σ → Option β) (set : β → σ → σ) (d : Decoder β) : RecordField σ :=
  ⟨name, fun s => (get s).isSome, d.map set⟩

/-- The value of a field that has to be there, or its name if it is missing. -/
def required (name : String) : Option β → Except String β
  | some b => .ok b
  | none => .error name

/-- What becomes of members that are no fields. -/
inductive Others (σ : Type) where
  /-- They are passed over. -/
  | ignored
  /-- There must be none. -/
  | refused
  /-- The draft keeps them. -/
  | kept (keep : String → Value → σ → σ)

/-- A type with named fields. -/
structure Record (σ α : Type) where
  /-- What an objection calls it. -/
  name : String
  /-- The fields in order. -/
  fields : List (RecordField σ)
  /-- The draft without any field. -/
  empty : σ
  /-- The value of a draft, or the name of the first field that is missing. -/
  finish : σ → Except String α
  /-- What becomes of other members. -/
  others : Others σ
  /-- Whether an array is read, too. -/
  fromArray : Bool

namespace Record

/-- The record with this many items, in words. -/
def lengthText (r : Record σ α) : String :=
  let n := r.fields.length
  s!"{r.name} with {n} element" ++ if n = 1 then "" else "s"

/-! ## From a value -/

/-- Fills the draft from one member. -/
def addMember (r : Record σ α) (s : σ) (m : String × Value) : Except Mismatch σ :=
  match r.fields.find? (·.name == m.1) with
  | some f => if f.filled s then .error (.duplicateField m.1) else (f.decoder.ofValue m.2).map (· s)
  | none =>
    match r.others with
    | .ignored => .ok s
    | .refused => .error (.unknownField m.1)
    | .kept keep => .ok (keep m.1 m.2 s)

/-- Reads the record from the members of an object. -/
def ofMembers (r : Record σ α) (members : List (String × Value)) : Except Mismatch α :=
  match members.foldlM r.addMember r.empty with
  | .error m => .error m
  | .ok s => (r.finish s).mapError .missingField

/-- Fills the draft from items in the order of the fields, and gives the items that are left. -/
def addItems : List (RecordField σ) → σ → List Value → Except Mismatch (σ × List Value)
  | [], s, items => .ok (s, items)
  | _ :: _, s, [] => .ok (s, [])
  | f :: fields, s, v :: items =>
    match f.decoder.ofValue v with
    | .error m => .error m
    | .ok g => addItems fields (g s) items

/-- Reads the record from the items of an array; `tooMany` says what is expected if there are more items than
fields. -/
def ofItems (r : Record σ α) (tooMany : String) (items : List Value) : Except Mismatch α :=
  match addItems r.fields r.empty items with
  | .error m => .error m
  | .ok (s, left) =>
    match r.finish s with
    | .error _ => .error (.invalidLength items.length r.lengthText)
    | .ok a => if left.isEmpty then .ok a else .error (.invalidLength items.length tooMany)

/-- Reads the record from a value. -/
def ofValue (r : Record σ α) : Value → Except Mismatch α
  | .object members => r.ofMembers members
  | .array items =>
    if r.fromArray then r.ofItems "fewer elements in array" items
    else .error (.invalidType .sequence r.name)
  | v => .error (.invalidType v.found r.name)

/-! ## From a text -/

/-- Fills the draft from a member whose key has been read. -/
def readField (r : Record σ α) (room : Nat) (name : String) (s : σ) (cs : List Char) : Reading σ :=
  match r.fields.find? (·.name == name) with
  | some f =>
    if f.filled s then .error (.unplaced (.duplicateField name) cs)
    else
      match readColon cs with
      | .error e => .error e
      | .ok rest => (f.decoder.ofText room rest).map fun (g, rest) => (g s, rest)
  | none =>
    match r.others with
    | .refused => .error (.unplaced (.unknownField name) cs)
    | .ignored =>
      match readColon cs with
      | .error e => .error e
      | .ok rest => (skipValue rest).map (s, ·)
    | .kept keep =>
      match readColon cs with
      | .error e => .error e
      | .ok rest => (readValue room rest).map fun (v, rest) => (keep name v s, rest)

/-- Fills the draft from items in the order of the fields, up to the end of the array, and counts them. -/
def readFields (room : Nat) : List (RecordField σ) → Bool → Nat → σ → List Char → Reading (Nat × σ)
  | [], _, count, s, cs => (closeItems cs).map ((count, s), ·)
  | f :: fields, first, count, s, cs =>
    match nextItem first cs with
    | .error e => .error e
    | .ok (.close rest) => .ok ((count, s), rest)
    | .ok (.item rest) =>
      match f.decoder.ofText room rest with
      | .error e => .error e.inArray
      | .ok (g, rest) => readFields room fields false (count + 1) (g s) rest

/-- Reads the record from a text. -/
def ofText (r : Record σ α) (room : Nat) (cs : List Char) : Reading α :=
  match skipSpace cs with
  | [] => .error (.next .endOfValue [])
  | c :: rest =>
    if c = '\x7b' then
      match room with
      | 0 => .error (.next .recursionLimit (c :: rest))
      | room + 1 =>
        match readMembers (r.readField room) rest true r.empty rest with
        | .error e => .error e
        | .ok (s, rest) => ((r.finish s).mapError fun f => mismatchAt (.missingField f) rest).map (·, rest)
    else if c = '[' ∧ r.fromArray then
      match room with
      | 0 => .error (.next .recursionLimit (c :: rest))
      | room + 1 =>
        match readFields room r.fields true 0 r.empty rest with
        | .error e => .error e
        | .ok ((count, s), rest) =>
          ((r.finish s).mapError fun _ => mismatchAt (.invalidLength count r.lengthText) rest).map (·, rest)
    else .error (wrongType r.name (c :: rest))

/-- The decoder of a record. -/
def decoder (r : Record σ α) : Decoder α := ⟨r.ofText, r.ofValue⟩

end Record

/-! ## Tagged enumerations -/

/-- An enumeration whose variants are records. One member, the tag, names the variant. -/
structure Tagged (σ α : Type) where
  /-- What an objection calls it. -/
  name : String
  /-- The key of the tag. -/
  tag : String
  /-- The variants: the name, and the record of the other members. -/
  variants : List (String × Record σ α)

namespace Tagged

/-- The variants as names alone. -/
def names (t : Tagged σ α) : List (Variant (Record σ α)) := t.variants.map fun v => .unit v.1 v.2

/-- The variant that a value names. -/
def variantOf (t : Tagged σ α) (v : Value) : Except Mismatch (Record σ α) :=
  match v with
  | .string name =>
    match findVariant t.names name with
    | .error m => .error m
    | .ok variant => variant.bare
  | v => .error (.invalidType v.found "variant identifier")

/-- The tag and the other members, the last one first. -/
abbrev Parts (σ α : Type) := Option (Record σ α) × List (String × Value)

/-- Takes a member apart from the others if it is the tag. -/
def addMember (t : Tagged σ α) (p : Parts σ α) (m : String × Value) : Except Mismatch (Parts σ α) :=
  if m.1 = t.tag then
    if p.1.isSome then .error (.duplicateField t.tag) else (t.variantOf m.2).map fun r => (some r, p.2)
  else .ok (p.1, m :: p.2)

/-- The value of the parts of an object. -/
def ofParts (t : Tagged σ α) (p : Parts σ α) : Except Mismatch α :=
  match p.1 with
  | none => .error (.missingField t.tag)
  | some r => r.ofMembers p.2.reverse

/-- What is expected if an array has more items than the variant has fields. -/
def tooMany (r : Record σ α) : String :=
  let n := r.fields.length
  s!"{n} element" ++ (if n = 1 then "" else "s") ++ " in sequence"

/-- Reads it from a value. -/
def ofValue (t : Tagged σ α) : Value → Except Mismatch α
  | .object members =>
    match members.foldlM t.addMember (none, []) with
    | .error m => .error m
    | .ok p => t.ofParts p
  | .array [] => .error (.missingField t.tag)
  | .array (v :: items) =>
    match t.variantOf v with
    | .error m => .error m
    | .ok r => r.ofItems (tooMany r) items
  | v => .error (.invalidType v.found t.name)

/-- Reads the tag from a text. -/
def readTag (t : Tagged σ α) (cs : List Char) : Reading (Record σ α) :=
  match readVariant t.names cs with
  | .error f => .error f
  | .ok (variant, rest) => (variant.bare.mapError (mismatchAt · rest)).map (·, rest)

/-- Reads a member whose key has been read. -/
def readMember (t : Tagged σ α) (room : Nat) (name : String) (p : Parts σ α) (cs : List Char) :
    Reading (Parts σ α) :=
  if name = t.tag then
    if p.1.isSome then .error (.unplaced (.duplicateField t.tag) cs)
    else
      match readColon cs with
      | .error f => .error f
      | .ok rest => (t.readTag rest).map fun (r, rest) => ((some r, p.2), rest)
  else
    match readColon cs with
    | .error f => .error f
    | .ok rest => (readValue room rest).map fun (v, rest) => ((p.1, (name, v) :: p.2), rest)

/-- Reads it from a text. What is wrong with the members of the variant has no place of its own. -/
def ofText (t : Tagged σ α) (room : Nat) (cs : List Char) : Reading α :=
  match skipSpace cs with
  | [] => .error (.next .endOfValue [])
  | c :: rest =>
    if c = '\x7b' then
      match room with
      | 0 => .error (.next .recursionLimit (c :: rest))
      | room + 1 =>
        match readMembers (t.readMember room) rest true (none, []) rest with
        | .error f => .error f
        | .ok ((none, _), rest) => .error (mismatchAt (.missingField t.tag) rest)
        | .ok ((some r, members), rest) =>
          ((r.ofMembers members.reverse).mapError (Fault.unplaced · rest)).map (·, rest)
    else if c = '[' then
      match room with
      | 0 => .error (.next .recursionLimit (c :: rest))
      | room + 1 =>
        match nextItem true rest with
        | .error f => .error f
        | .ok (.close rest) => .error (mismatchAt (.missingField t.tag) rest)
        | .ok (.item rest) =>
          match t.readTag rest with
          | .error f => .error f.inArray
          | .ok (r, rest) =>
            match readItems (readValue room) rest false [] rest with
            | .error f => .error f
            | .ok (items, rest) =>
              ((r.ofItems (tooMany r) items).mapError (Fault.unplaced · rest)).map (·, rest)
    else .error (wrongType t.name (c :: rest))

/-- The decoder of a tagged enumeration. -/
def decoder (t : Tagged σ α) : Decoder α := ⟨t.ofText, t.ofValue⟩

end Tagged

end ShellHost.Json
