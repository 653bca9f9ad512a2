import ShellHost.CommandLine.LogFilter
import ShellHost.Text.Quoted

/-!
# Lines of the log

A line of the log says how important it is, and then what it says. The control characters by which a text could steer a
terminal are written by number; newlines and the like stay.
-/

namespace ShellHost

/-- A line of the log. -/
structure LogLine where
  /-- How important it is. -/
  level : Level
  /-- What it says. -/
  text : String
  deriving DecidableEq

namespace LogLine

/-- Whether a character could steer a terminal and has seven bits: the bell, the backspace, the form feed, the escape
character and the delete character. -/
def isShortControl (c : Char) : Bool := c == '\x07' || c == '\x08' || c == '\x0c' || c == '\x1b' || c == '\x7f'

/-- Whether a character is a control character of eight bits. -/
def isLongControl (c : Char) : Bool := 0x80 ≤ c.toNat && c.toNat ≤ 0x9F

/-- A character as the log writes it. -/
def writtenChar (c : Char) : List Char :=
  if isShortControl c then
    ['\\', 'x', Nat.digitChar (c.toNat / 16), Nat.digitChar (c.toNat % 16)]
  else if isLongControl c then ['\\', 'u', '\x7b'] ++ Text.hexDigits c.toNat ++ ['\x7d']
  else [c]

/-- The line as it is written. -/
def render (l : LogLine) : String := s!"{l.level.label} " ++ String.ofList (l.text.toList.flatMap writtenChar)

end LogLine

end ShellHost
