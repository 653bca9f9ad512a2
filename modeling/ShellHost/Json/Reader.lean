import ShellHost.Json.Scanner

/-!
# Reading a JSON value

`readValue room` reads one value with at most `room` brackets open at a time. The loops over the items of an array and
the members of an object are shared with the readers of messages: `readItems` takes the reader of an item, and
`readMembers` takes what is to be done with a key.

Both loops run on a clock, which is the text they start with: every turn reads at least one character, so the clock
never stops before the text does.

`skipValue` passes over a value that nobody asked for. It does not open brackets one in another but keeps a list of
those that are open, so it knows no limit.
-/

namespace ShellHost.Json

/-- How many brackets may be open at a time in a text that is read. -/
def nestingLimit : Nat := 127

variable {α σ : Type}

/-! ## Arrays -/

/-- What stands before the next item. -/
inductive NextItem where
  /-- The closing bracket, and what follows it. -/
  | close (rest : List Char)
  /-- An item. -/
  | item (rest : List Char)

/-- Reads up to the next item. -/
def nextItem (first : Bool) (cs : List Char) : Except Fault NextItem :=
  match skipSpace cs with
  | [] => .error (.next .endOfList [])
  | c :: rest =>
    if c = ']' then .ok (.close rest)
    else if first then .ok (.item (c :: rest))
    else if c = ',' then
      match skipSpace rest with
      | [] => .error (.next .endOfValue [])
      | ']' :: tail => .error (.next .trailingComma (']' :: tail))
      | cs => .ok (.item cs)
    else .error (.next .expectedListCommaOrEnd (c :: rest))

/-- Reads the end of an array that has no more items. -/
def closeItems (cs : List Char) : Except Fault (List Char) :=
  match skipSpace cs with
  | [] => .error (.next .endOfList [])
  | ']' :: rest => .ok rest
  | ',' :: rest =>
    match skipSpace rest with
    | ']' :: tail => .error (.next .trailingComma (']' :: tail))
    | cs => .error (.next .trailingCharacters cs)
  | cs => .error (.next .trailingCharacters cs)

/-- The place of a mismatch in an array: behind the end of the array or the next comma, if it comes next. -/
def Fault.inArray (f : Fault) : Fault :=
  if f.placed then f
  else
    match skipSpace f.rest with
    | ']' :: rest => { f with rest := rest, placed := true }
    | ',' :: rest => { f with rest := skipSpace rest, placed := true }
    | rest => { f with rest := rest, placed := true }

/-- Reads items up to the closing bracket; `out` holds those before, the last one first. -/
def readItems (item : List Char → Reading α) : (clock : List Char) → Bool → List α → List Char → Reading (List α)
  | [], _, _, _ => .error (.next .endOfList [])
  | _ :: clock, first, out, cs =>
    match nextItem first cs with
    | .error f => .error f
    | .ok (.close rest) => .ok (out.reverse, rest)
    | .ok (.item rest) =>
      match item rest with
      | .error f => .error f.inArray
      | .ok (a, rest) => readItems item clock false (a :: out) rest

/-! ## Objects -/

/-- What stands before the next member's colon. -/
inductive NextKey where
  /-- The closing brace, and what follows it. -/
  | close (rest : List Char)
  /-- A key, and what follows it. -/
  | key (name : String) (rest : List Char)

/-- Reads a key. -/
def readKey : List Char → Except Fault NextKey
  | '"' :: rest =>
    match readChars [] rest with
    | .error f => .error f
    | .ok (name, rest) => .ok (.key name rest)
  | cs => .error (.next .keyMustBeString cs)

/-- Reads up to the colon of the next member. -/
def nextKey (first : Bool) (cs : List Char) : Except Fault NextKey :=
  match skipSpace cs with
  | [] => .error (.next .endOfObject [])
  | c :: rest =>
    if c = '\x7d' then .ok (.close rest)
    else if first then readKey (c :: rest)
    else if c = ',' then
      match skipSpace rest with
      | [] => .error (.next .endOfValue [])
      | '\x7d' :: tail => .error (.next .trailingComma ('\x7d' :: tail))
      | cs => readKey cs
    else .error (.next .expectedObjectCommaOrEnd (c :: rest))

/-- Reads the colon behind a key. -/
def readColon (cs : List Char) : Except Fault (List Char) :=
  match skipSpace cs with
  | [] => .error (.next .endOfObject [])
  | ':' :: rest => .ok rest
  | cs => .error (.next .expectedColon cs)

/-- The place of a mismatch in an object: behind the end of the object, if it comes next. -/
def Fault.inObject (f : Fault) : Fault :=
  if f.placed then f
  else
    match skipSpace f.rest with
    | '\x7d' :: rest => { f with rest := rest, placed := true }
    | rest => { f with rest := rest, placed := true }

/-- Reads members up to the closing brace. What a key and the text behind it do to the state `σ` is up to
`member`. -/
def readMembers (member : String → σ → List Char → Reading σ) :
    (clock : List Char) → Bool → σ → List Char → Reading σ
  | [], _, _, _ => .error (.next .endOfObject [])
  | _ :: clock, first, s, cs =>
    match nextKey first cs with
    | .error f => .error f
    | .ok (.close rest) => .ok (s, rest)
    | .ok (.key name rest) =>
      match member name s rest with
      | .error f => .error f.inObject
      | .ok (s, rest) => readMembers member clock false s rest

/-! ## Values -/

/-- Reads the value of a member and adds it to the members so far, whose keys descend. -/
def readMember (value : List Char → Reading Value) (name : String) (out : List (String × Value))
    (cs : List Char) : Reading (List (String × Value)) :=
  match readColon cs with
  | .error f => .error f
  | .ok rest =>
    match value rest with
    | .error f => .error f
    | .ok (v, rest) => .ok (insertDescending name v out, rest)

/-- Reads a value with at most `room` brackets open at a time. -/
def readValue (room : Nat) (cs : List Char) : Reading Value :=
  match skipSpace cs with
  | [] => .error (.next .endOfValue [])
  | c :: rest =>
    if c = 'n' then (readWord ['u', 'l', 'l'] rest).map (.null, ·)
    else if c = 't' then (readWord ['r', 'u', 'e'] rest).map (.bool true, ·)
    else if c = 'f' then (readWord ['a', 'l', 's', 'e'] rest).map (.bool false, ·)
    else if startsNumber c then (readNumber (c :: rest)).map fun (n, rest) => (.number n, rest)
    else if c = '"' then (readChars [] rest).map fun (s, rest) => (.string s, rest)
    else if c = '[' then
      match room with
      | 0 => .error (.next .recursionLimit (c :: rest))
      | room + 1 =>
        (readItems (fun cs => readValue room cs) rest true [] rest).map fun (items, rest) => (.array items, rest)
    else if c = '\x7b' then
      match room with
      | 0 => .error (.next .recursionLimit (c :: rest))
      | room + 1 =>
        (readMembers (readMember fun cs => readValue room cs) rest true [] rest).map
          fun (members, rest) => (.object members.reverse, rest)
    else .error (.next .expectedValue (c :: rest))

/-! ## Values that are passed over -/

/-- The brackets that open a container. -/
inductive Bracket where
  /-- The bracket of an array. -/
  | square
  /-- The brace of an object. -/
  | curly
  deriving DecidableEq

/-- The fault of a text that ends in a container. -/
def Bracket.atEnd : Bracket → Fault
  | square => .next .endOfList []
  | curly => .next .endOfObject []

/-- The fault of something else where a comma or the end of the container belongs. -/
def Bracket.noComma (b : Bracket) (cs : List Char) : Fault :=
  match b with
  | square => .next .expectedListCommaOrEnd cs
  | curly => .next .expectedObjectCommaOrEnd cs

/-- What closes a container. -/
def Bracket.closing : Bracket → Char
  | square => ']'
  | curly => '\x7d'

/-- Passes over a value that is no container; `none` if it is one. -/
def skipScalar (cs : List Char) : Except Fault (Option (List Char)) :=
  match cs with
  | [] => .error (.next .endOfValue [])
  | c :: rest =>
    if c = 'n' then (readWord ['u', 'l', 'l'] rest).map some
    else if c = 't' then (readWord ['r', 'u', 'e'] rest).map some
    else if c = 'f' then (readWord ['a', 'l', 's', 'e'] rest).map some
    else if startsNumber c then (skipNumber (c :: rest)).map some
    else if c = '"' then (skipChars rest).map some
    else if c = '[' ∨ c = '\x7b' then .ok none
    else .error (.next .expectedValue (c :: rest))

/-- Passes over the key of a member and its colon, where `b` is a brace. -/
def skipKey (b : Bracket) (cs : List Char) : Except Fault (List Char) :=
  match b with
  | .square => .ok cs
  | .curly =>
    match skipSpace cs with
    | [] => .error (.next .endOfObject [])
    | '"' :: rest =>
      match skipChars rest with
      | .error f => .error f
      | .ok rest => readColon rest
    | cs => .error (.next .keyMustBeString cs)

/-- Where passing over a value goes on. -/
inductive Skipped where
  /-- The value is complete. -/
  | complete (rest : List Char)
  /-- A value is to come inside these brackets, the innermost one first. -/
  | inside (brackets : List Bracket) (rest : List Char)

/-- Goes on behind a value that is complete: closes what closes, up to the next comma. -/
def skipClosing : (brackets : List Bracket) → List Char → Except Fault Skipped
  | [], cs => .ok (.complete cs)
  | b :: brackets, cs =>
    match skipSpace cs with
    | [] => .error b.atEnd
    | c :: rest =>
      if c = ',' then (skipKey b rest).map (.inside (b :: brackets))
      else if c = b.closing then skipClosing brackets rest
      else .error (b.noComma (c :: rest))

/-- Goes on behind an opening bracket. -/
def skipOpening (b : Bracket) (brackets : List Bracket) (cs : List Char) : Except Fault Skipped :=
  match skipSpace cs with
  | [] => .error b.atEnd
  | c :: rest =>
    if c = b.closing then skipClosing brackets rest else (skipKey b (c :: rest)).map (.inside (b :: brackets))

/-- Passes over one value, or the opening bracket of one. -/
def skipStep (brackets : List Bracket) (cs : List Char) : Except Fault Skipped :=
  let cs := skipSpace cs
  match skipScalar cs with
  | .error f => .error f
  | .ok (some rest) => skipClosing brackets rest
  | .ok none => skipOpening (if cs.head? = some '[' then .square else .curly) brackets cs.tail

/-- Passes over values until the outermost one is complete. -/
def skipFrom : (clock : List Char) → List Bracket → List Char → Except Fault (List Char)
  | [], _, _ => .error (.next .endOfValue [])
  | _ :: clock, brackets, cs =>
    match skipStep brackets cs with
    | .error f => .error f
    | .ok (.complete rest) => .ok rest
    | .ok (.inside brackets rest) => skipFrom clock brackets rest

/-- Passes over a value, whatever its depth. -/
def skipValue (cs : List Char) : Except Fault (List Char) := skipFrom cs [] cs

end ShellHost.Json
