import ShellHost.Text.Alphanumeric
import ShellHost.Text.Blank
import ShellHost.Text.Utf8

/-!
# Filtering the log

A `LogFilter` is a list of directives, written with commas between them. A directive names a level, or a target, or a
target and its level; it is about every target that begins with the one it names. Behind the target, brackets can name
a span or a field that a line must have. Of those that are about a line the one with the longest target counts, and of
equally long ones the last, where one that names a field goes before one that names none.

A directive can also demand a value of a field. What can be demanded is not said here, but by whoever reads the filter
(`matchable`). A directive that demands anything else is refused where its value ends, before what follows is looked at.

The signs between the parts of a directive are looked for in the text without the blanks at its ends. The parts are
then cut out of the whole text, at the same places counted in bytes. So blanks in front move them, and may even make a
place fall inside a character; such a filter is not just refused, it cannot be read at all.
-/

namespace ShellHost

/-- How important a line of the log is. -/
inductive Level where
  /-- Something that cannot go on. -/
  | error
  /-- Something that can. -/
  | warn
  /-- What happens. -/
  | info
  /-- What happens, in detail. -/
  | debug
  /-- Everything. -/
  | trace
  deriving DecidableEq, Repr

namespace Level

/-- The least verbose level is 1. -/
def verbosity : Level → Nat
  | error => 1
  | warn => 2
  | info => 3
  | debug => 4
  | trace => 5

/-- The level as the log writes it. -/
def label : Level → String
  | error => "ERROR"
  | warn => "WARN"
  | info => "INFO"
  | debug => "DEBUG"
  | trace => "TRACE"

end Level

/-- A directive: what is logged about a target. -/
structure Directive where
  /-- The target; the empty one is about everything. -/
  target : List Char
  /-- The field that a line must have, if one is named. -/
  field : Option (List Char) := none
  /-- The verbosity of the lines that are logged. -/
  verbosity : Nat
  deriving DecidableEq

/-- Why a text is no directive. -/
inductive DirectiveFault where
  /-- It does not have the form of one. -/
  | malformed
  /-- A place to cut it at is inside a character. -/
  | insideCharacter
  deriving DecidableEq

namespace Directive

/-- The verbosity that a word names: a level, `off`, or their numbers from 0 to 5. -/
def verbosity? (word : List Char) : Option Nat :=
  let named := ["off", "error", "warn", "info", "debug", "trace"].map String.toList
  match named.findIdx? (· == word.map Char.toLower) with
  | some n => some n
  | none =>
    let digits := if word.head? = some '+' then word.tail else word
    if digits.isEmpty || !digits.all Char.isDigit then none
    else
      let n := digits.foldl (fun n c => n * 10 + (c.toNat - 48)) 0
      if n ≤ 5 then some n else none

/-- Whether a directive can begin with this character. -/
def canBegin (c : Char) : Bool := c == '-' || c == ':' || c == '_' || Text.isAlphanumeric c

/-- The part of a text behind so many bytes. -/
def behind (cs : List Char) (first : Nat) : Except DirectiveFault (List Char) :=
  match Utf8.splitAt? first cs with
  | some (_, rest) => .ok rest
  | none => .error .insideCharacter

/-- The part of a text between two places, which are counted in bytes. -/
def between (cs : List Char) (first last : Nat) : Except DirectiveFault (List Char) :=
  match Utf8.splitAt? first cs, Utf8.splitAt? last cs with
  | some (front, _), some (upTo, _) => .ok (upTo.drop front.length)
  | _, _ => .error .insideCharacter

/-- The verbosity behind the equals sign at this place. No level at all stands for everything. -/
def levelBehind (cs : List Char) (place : Nat) : Except DirectiveFault Nat :=
  match behind cs (place + 1) with
  | .error e => .error e
  | .ok word =>
    if word.isEmpty then .ok Level.trace.verbosity
    else
      match verbosity? word with
      | some n => .ok n
      | none => .error .malformed

/-- The verbosity of a directive whose brackets end at this place, where the text goes on with `rest`. -/
def levelAfterBrackets (cs : List Char) (place : Nat) (rest : List Char) : Except DirectiveFault Nat :=
  match rest with
  | [] => .ok Level.trace.verbosity
  | '=' :: _ => levelBehind cs place
  | _ => .error .malformed

/-- The value that is demanded of a field, if one is: what stands behind an equals sign, up to the next one. -/
def demanded? (field : List Char) : Option (List Char) :=
  match field.splitOn '=' with
  | _ :: value :: _ => some value
  | _ => none

section

variable (matchable : List Char → Bool)

/-- The directive whose brackets begin with a brace: the field at this place, and what follows it. One that names a
span, too, or the value of the field is about no line that stands alone. -/
def parseField (cs target span : List Char) (place : Nat) (inside : List Char) :
    Except DirectiveFault (Option Directive) :=
  let name := inside.takeWhile (· != '\x7d')
  let last := place + Utf8.size name
  match inside.drop name.length with
  | [] => .error .malformed
  | _ :: rest =>
    match between cs place last with
    | .error e => .error e
    | .ok [] => .error .malformed
    | .ok field =>
      if (demanded? field).any fun value => !matchable value then .error .malformed
      else
        match rest with
        | ']' :: rest =>
          (levelAfterBrackets cs (last + 2) rest).map fun n =>
            if span.isEmpty && (demanded? field).isNone then some ⟨target, some field, n⟩ else none
        | _ => .error .malformed

/-- The directive whose brackets begin before this place. One that names a span is about no line that stands alone. -/
def parseBrackets (cs target : List Char) (place : Nat) (inside : List Char) :
    Except DirectiveFault (Option Directive) :=
  let name := inside.takeWhile fun c => c != ']' && c != '\x7b'
  let last := place + Utf8.size name
  match inside.drop name.length with
  | [] => .error .malformed
  | c :: rest =>
    match between cs place last with
    | .error e => .error e
    | .ok span =>
      if c = ']' then (levelAfterBrackets cs (last + 1) rest).map fun _ => none
      else parseField matchable cs target span (last + 1) rest

/-- The directive that a text is; `none` if it is about no line that stands alone. -/
def parse (cs : List Char) : Except DirectiveFault (Option Directive) :=
  match Text.trim cs with
  | [] => .error .malformed
  | '[' :: inside => parseBrackets matchable cs [] 1 inside
  | c :: rest =>
    if !canBegin c then .error .malformed
    else
      let name := (c :: rest).takeWhile fun c => c != '=' && c != '['
      let place := Utf8.size name
      match (c :: rest).drop name.length with
      | [] =>
        match verbosity? cs with
        | some n => .ok (some ⟨[], none, n⟩)
        | none => .ok (some ⟨cs, none, Level.trace.verbosity⟩)
      | sign :: inside =>
        match between cs 0 place with
        | .error e => .error e
        | .ok target =>
          if sign = '=' then (levelBehind cs place).map fun n => some ⟨target, none, n⟩
          else parseBrackets matchable cs target (place + 1) inside

end

end Directive

/-- Which lines are logged. -/
abbrev LogFilter := List Directive

namespace LogFilter

/-- The filter that a text is. Without any directive nothing is logged. -/
def parse (matchable : List Char → Bool) (text : String) : Except DirectiveFault LogFilter :=
  (((text.toList.splitOn ',').filter (!·.isEmpty)).mapM (Directive.parse matchable)).map fun ds => ds.filterMap id

/-- The filter that is meant if there is no other: what happens in this program. -/
def default : LogFilter := [⟨"ciska".toList, none, Level.info.verbosity⟩]

/-- The first of some texts that is a filter; `none` if one before it cannot be read at all. -/
def ofTexts (matchable : List Char → Bool) : List String → Option LogFilter
  | [] => some default
  | text :: texts =>
    match parse matchable text with
    | .ok f => some f
    | .error .malformed => ofTexts matchable texts
    | .error .insideCharacter => none

/-- The field that every line of this program has, and the only one. -/
def lineField : List Char := "message".toList

/-- Whether a directive is about the lines of a target. -/
def applies (d : Directive) (target : List Char) : Bool := d.target.isPrefixOf target && d.field.all (· == lineField)

/-- Whether the second directive goes before the first, where both are about a target. -/
def goesBefore (b d : Directive) : Bool :=
  b.target.length < d.target.length || (b.target.length == d.target.length && (d.field.isSome || b.field.isNone))

/-- The directive that counts for a target. -/
def about (f : LogFilter) (target : List Char) : Option Directive :=
  f.foldl (fun best d =>
    if !applies d target then best
    else
      match best with
      | none => some d
      | some b => if goesBefore b d then some d else some b) none

/-- Whether a line about a target is logged. -/
def logs (f : LogFilter) (target : String) (level : Level) : Bool :=
  match f.about target.toList with
  | none => false
  | some d => level.verbosity ≤ d.verbosity

end LogFilter

end ShellHost
