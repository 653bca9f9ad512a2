/-!
# Values of fields

A directive of the log filter can say what the value of a field must be: a truth value, a number, or a pattern. Which
texts are one is for the library that writes the log to say, so whoever reads a filter is told (`Invocation.matchable`).
`Pattern.isMatchable` is the usual answer. It goes by the signs of a pattern: groups and classes are closed, what is
repeated is there, and behind a backslash stands a sign. It takes groups with flags or names, characters by number and
classes by name for none.
-/

namespace ShellHost.Pattern

/-- A character of a pattern. -/
inductive Token where
  /-- One that may be a sign. -/
  | plain (c : Char)
  /-- One behind a backslash, which stands for itself. -/
  | literal (c : Char)
  /-- An end of the text. -/
  | anchor
  deriving DecidableEq

/-- What a character behind a backslash means. -/
def Token.escaped? : Char → Option Token
  | 'A' => some .anchor
  | 'z' => some .anchor
  | 'a' => some (.literal '\x07')
  | 'f' => some (.literal '\x0c')
  | 'n' => some (.literal '\n')
  | 'r' => some (.literal '\x0d')
  | 't' => some (.literal '\t')
  | 'v' => some (.literal '\x0b')
  | c => if c.toNat < 0x80 && !c.isAlphanum && c != '<' && c != '>' then some (.literal c) else none

/-- The characters of a pattern, with those behind backslashes put together. -/
def tokens? : List Char → Option (List Token)
  | [] => some []
  | ['\\'] => none
  | '\\' :: c :: cs =>
    match Token.escaped? c, tokens? cs with
    | some t, some ts => some (t :: ts)
    | _, _ => none
  | c :: cs => (tokens? cs).map (.plain c :: ·)

/-- Where in a pattern its next character stands. -/
inductive Place where
  /-- Outside of classes; whether there is something to repeat. -/
  | outside (operand : Bool)
  /-- Behind the parenthesis that opens a group. -/
  | groupHead
  /-- Behind the question mark of a group that is not numbered. -/
  | groupMark
  /-- Behind the bracket that opens a class. -/
  | classHead
  /-- Behind the caret of a class. -/
  | classCaret
  /-- Behind dashes at the beginning of a class. -/
  | classDashes
  /-- In a class; the character at which a range could begin. -/
  | inClass (last : Option Char)
  /-- In a class, behind a dash; the character before it. -/
  | dash (last : Option Char)
  deriving DecidableEq

/-- How far a pattern is read. -/
structure State where
  /-- How many groups are open. -/
  groups : Nat := 0
  /-- How many classes are open. -/
  classes : Nat := 0
  /-- Where the next character stands. -/
  place : Place := .outside false

namespace State

/-- Goes on at a place. -/
def goTo (s : State) (p : Place) : Option State := some { s with place := p }

/-- Opens a class. -/
def openClass (s : State) : Option State := some { s with classes := s.classes + 1, place := .classHead }

/-- Closes the innermost class. -/
def closeClass (s : State) : Option State :=
  some { s with classes := s.classes - 1, place := if s.classes ≤ 1 then .outside true else .inClass none }

/-- Reads a character outside of classes. -/
def readOutside (s : State) (operand : Bool) : Token → Option State
  | .plain '(' => some { s with groups := s.groups + 1, place := .groupHead }
  | .plain ')' => if s.groups = 0 then none else some { s with groups := s.groups - 1, place := .outside true }
  | .plain '[' => s.openClass
  | .plain '\x7b' => none
  | .plain '|' => s.goTo (.outside false)
  | .plain c => if ['*', '+', '?'].contains c && !operand then none else s.goTo (.outside true)
  | _ => s.goTo (.outside true)

/-- Reads a character of a class. -/
def readClass (s : State) : Token → Option State
  | .plain '[' => s.openClass
  | .plain ']' => s.closeClass
  | .plain '-' => s.goTo (.dash none)
  | .plain c => s.goTo (.inClass (some c))
  | .literal c => s.goTo (.inClass (some c))
  | .anchor => none

/-- Reads the first character of a class, which may be a closing bracket that stands for itself. -/
def readFirst (s : State) : Token → Option State
  | .plain ']' => s.goTo (.inClass none)
  | .plain '-' => s.goTo .classDashes
  | t => s.readClass t

/-- Reads the end of a range that begins with this character. -/
def readRange (s : State) (first : Char) : Token → Option State
  | .plain c => if first ≤ c then s.goTo (.inClass none) else none
  | .literal c => if first ≤ c then s.goTo (.inClass none) else none
  | .anchor => none

/-- Reads the next character. -/
def read (s : State) (t : Token) : Option State :=
  match s.place with
  | .outside operand => s.readOutside operand t
  | .groupHead => if t = .plain '?' then s.goTo .groupMark else s.readOutside false t
  | .groupMark => if t = .plain ':' then s.goTo (.outside false) else none
  | .classHead => if t = .plain '^' then s.goTo .classCaret else s.readFirst t
  | .classCaret => s.readFirst t
  | .classDashes => if t = .plain '-' then s.goTo .classDashes else s.readClass t
  | .inClass last => if t = .plain '-' then s.goTo (.dash last) else s.readClass t
  | .dash last =>
    if t = .plain ']' then s.closeClass
    else if t = .plain '-' then s.goTo (.inClass none)
    else
      match last with
      | some first => s.readRange first t
      | none => s.readClass t

/-- Whether a pattern may end here. -/
def closed (s : State) : Bool := s.groups == 0 && s.classes == 0 && s.place != .groupMark

end State

/-- Whether a text is a pattern. -/
def isPattern (text : List Char) : Bool := ((tokens? text).bind fun ts => ts.foldlM State.read {}).any State.closed

/-- Whether a text is an integer, with a sign or without. -/
def isInteger (text : List Char) : Bool :=
  let digits := if text.head? = some '+' || text.head? = some '-' then text.tail else text
  !digits.isEmpty && digits.all Char.isDigit

/-- Whether a text is a number without a sign. -/
def isNumber (text : List Char) : Bool :=
  let mantissa := text.takeWhile fun c => c.isDigit || c == '.'
  ["inf", "infinity", "nan"].contains (String.ofList (text.map Char.toLower)) ||
    mantissa.any Char.isDigit && mantissa.count '.' ≤ 1 &&
      match text.drop mantissa.length with
      | [] => true
      | e :: exponent => (e == 'e' || e == 'E') && isInteger exponent

/-- Whether a text is a value of a field. Truth values are patterns, too, and so are numbers, but for a plus sign in front
of one. -/
def isMatchable : List Char → Bool
  | '+' :: text => isNumber text
  | text => isPattern text

end ShellHost.Pattern
