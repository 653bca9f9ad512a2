import ShellHost.Json.Printer
import ShellHost.Text.Quoted
import ShellHost.Text.Utf8

/-!
# What can be wrong with a JSON text

`Cause` lists what a reader can object to: the text is not JSON, or the value is not of the kind that was asked for
(`Mismatch`). A `Fault` is a cause together with the place in the text where the reader stood, and `ReadError` is what
a caller gets: the cause with line and column, where columns count bytes.
-/

namespace ShellHost.Json

/-- What was found in place of what was asked for. -/
inductive Found where
  /-- The word `null`. -/
  | null
  /-- A truth value. -/
  | bool (b : Bool)
  /-- A number. -/
  | number (n : Number)
  /-- A text. -/
  | string (s : String)
  /-- An array. -/
  | sequence
  /-- An object. -/
  | map
  /-- A bare name where a name with a value belongs. -/
  | unitVariant
  deriving DecidableEq

/-- The kind of a value as an objection names it. -/
def Value.found : Value → Found
  | null => .null
  | bool b => .bool b
  | number n => .number n
  | string s => .string s
  | array _ => .sequence
  | object _ => .map

/-- What was found, in words. -/
def Found.message : Found → String
  | null => "null"
  | bool b => s!"boolean `{String.ofList (boolWord b)}`"
  | number (.whole n) => s!"integer `{String.ofList (intDigits n.val)}`"
  | number (.float x) => s!"floating point `{String.ofList (floatDigits x)}`"
  | string s => "string " ++ Text.quoted s
  | sequence => "sequence"
  | map => "map"
  | unitVariant => "unit variant"

/-- Names in backquotes, as a choice. -/
def choice : List String → String
  | [] => "there are no variants"
  | [a] => s!"expected `{a}`"
  | [a, b] => s!"expected `{a}` or `{b}`"
  | names => "expected one of " ++ String.intercalate ", " (names.map fun n => s!"`{n}`")

/-- A value that is JSON but not of the kind that was asked for. -/
inductive Mismatch where
  /-- Another kind of value. -/
  | invalidType (found : Found) (expected : String)
  /-- The right kind, out of range. -/
  | invalidValue (found : Found) (expected : String)
  /-- Another number of items. -/
  | invalidLength (length : Nat) (expected : String)
  /-- A member that has to be there is not. -/
  | missingField (name : String)
  /-- A member is there twice. -/
  | duplicateField (name : String)
  /-- A member of an object that takes none. -/
  | unknownField (name : String)
  /-- A name that is none of the known ones. -/
  | unknownVariant (name : String) (known : List String)
  deriving DecidableEq

/-- The objection in words. -/
def Mismatch.message : Mismatch → String
  | invalidType found expected => s!"invalid type: {found.message}, expected {expected}"
  | invalidValue found expected => s!"invalid value: {found.message}, expected {expected}"
  | invalidLength length expected => s!"invalid length {length}, expected {expected}"
  | missingField name => s!"missing field `{name}`"
  | duplicateField name => s!"duplicate field `{name}`"
  | unknownField name => s!"unknown field `{name}`, there are no fields"
  | unknownVariant name known => s!"unknown variant `{name}`, {choice known}"

/-- Why a text is refused. -/
inductive Cause where
  /-- The text ends in an array. -/
  | endOfList
  /-- The text ends in an object. -/
  | endOfObject
  /-- The text ends in a string. -/
  | endOfString
  /-- The text ends where a value is to come. -/
  | endOfValue
  /-- No colon after a key. -/
  | expectedColon
  /-- Neither comma nor bracket after an item. -/
  | expectedListCommaOrEnd
  /-- Neither comma nor brace after a member. -/
  | expectedObjectCommaOrEnd
  /-- A word that is none of the three. -/
  | expectedIdent
  /-- No value where one is to come. -/
  | expectedValue
  /-- A backslash before something that cannot be escaped. -/
  | invalidEscape
  /-- Not a number. -/
  | invalidNumber
  /-- A number greater than every double. -/
  | numberOutOfRange
  /-- A control character in a string. -/
  | controlCharacter
  /-- A key that is no string. -/
  | keyMustBeString
  /-- Half of a surrogate pair. -/
  | loneSurrogate
  /-- A comma before the closing bracket. -/
  | trailingComma
  /-- Something after the value. -/
  | trailingCharacters
  /-- Half of a surrogate pair with no escape after it. -/
  | endOfHexEscape
  /-- Too many open brackets. -/
  | recursionLimit
  /-- JSON, but not what was asked for. -/
  | mismatch (m : Mismatch)
  deriving DecidableEq

/-- The three kinds of causes. -/
inductive Category where
  /-- The text is not JSON. -/
  | syntactic
  /-- The value is not what was asked for. -/
  | data
  /-- The text ends too early. -/
  | eof
  deriving DecidableEq, Repr

/-- The kind of a cause. -/
def Cause.category : Cause → Category
  | endOfList | endOfObject | endOfString | endOfValue => .eof
  | mismatch _ => .data
  | _ => .syntactic

/-- The cause in words. -/
def Cause.message : Cause → String
  | endOfList => "EOF while parsing a list"
  | endOfObject => "EOF while parsing an object"
  | endOfString => "EOF while parsing a string"
  | endOfValue => "EOF while parsing a value"
  | expectedColon => "expected `:`"
  | expectedListCommaOrEnd => "expected `,` or `]`"
  | expectedObjectCommaOrEnd => "expected `,` or `\x7d`"
  | expectedIdent => "expected ident"
  | expectedValue => "expected value"
  | invalidEscape => "invalid escape"
  | invalidNumber => "invalid number"
  | numberOutOfRange => "number out of range"
  | controlCharacter => "control character (\\u0000-\\u001F) found while parsing a string"
  | keyMustBeString => "key must be a string"
  | loneSurrogate => "lone leading surrogate in hex escape"
  | trailingComma => "trailing comma"
  | trailingCharacters => "trailing characters"
  | endOfHexEscape => "unexpected end of hex escape"
  | recursionLimit => "recursion limit exceeded"
  | mismatch m => m.message

/-- A cause, and where the reader stood. -/
structure Fault where
  /-- The cause. -/
  cause : Cause
  /-- What was still to be read. -/
  rest : List Char
  /-- The bytes of `rest` that the place of the fault lies behind, as far as there are so many. -/
  ahead : Nat
  /-- Whether the place is that of the fault. If not, the value around it gives the place. -/
  placed : Bool

/-- A fault right behind the last character that was read. -/
def Fault.behind (cause : Cause) (rest : List Char) : Fault := ⟨cause, rest, 0, true⟩

/-- A fault on the next character. -/
def Fault.next (cause : Cause) (rest : List Char) : Fault := ⟨cause, rest, 1, true⟩

/-- A mismatch that the value around it will give a place. -/
def Fault.unplaced (m : Mismatch) (rest : List Char) : Fault := ⟨.mismatch m, rest, 0, false⟩

/-- The fault with a place: where the reader stands, if it had none. -/
def Fault.place (f : Fault) : Fault := { f with placed := true }

/-- The line of a byte, and the bytes before it on that line. -/
def locate : (line column bytes : Nat) → List Char → Nat × Nat
  | line, column, _, [] => (line, column)
  | line, column, bytes, c :: rest =>
    if bytes < c.utf8Size then (line, column + bytes)
    else if c = '\n' then locate (line + 1) 0 (bytes - 1) rest
    else locate line (column + c.utf8Size) (bytes - c.utf8Size) rest

/-- Why a text was refused, and where. -/
structure ReadError where
  /-- The cause. -/
  cause : Cause
  /-- Line and column, unless the fault has no place of its own. -/
  place : Option (Nat × Nat)
  deriving DecidableEq

/-- The error in words. -/
def ReadError.message (e : ReadError) : String :=
  match e.place with
  | some (line, column) => s!"{e.cause.message} at line {line} column {column}"
  | none => e.cause.message

/-- The error that a fault in a text is. -/
def Fault.inText (f : Fault) (text : List Char) : ReadError :=
  let total := Utf8.size text
  ⟨f.cause, if f.placed then some (locate 1 0 (min total (total - Utf8.size f.rest + f.ahead)) text) else none⟩

end ShellHost.Json
