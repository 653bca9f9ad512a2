/-!
# Ranges of characters

A class of characters as a standard lists it: by the first and the last code point of each range, in ascending order. A
`RangeTable` keeps the ranges in three lists, so that a look-up passes over none that is far away.
-/

namespace ShellHost.Text

/-- Whether a number lies in one of the ranges, which ascend. -/
def inRanges (n : Nat) : List (Nat × Nat) → Bool
  | [] => false
  | (low, high) :: rest => if n < low then false else if n ≤ high then true else inRanges n rest

/-- A class of characters. No range crosses from one list into the next. -/
structure RangeTable where
  /-- The ranges below U+1000. -/
  low : List (Nat × Nat)
  /-- The ranges from U+1000 on, below U+10000. -/
  middle : List (Nat × Nat)
  /-- The ranges from U+10000 on. -/
  high : List (Nat × Nat)

/-- Whether a character belongs to the class. -/
def RangeTable.contains (t : RangeTable) (c : Char) : Bool :=
  let n := c.toNat
  inRanges n (if n < 0x1000 then t.low else if n < 0x10000 then t.middle else t.high)

end ShellHost.Text
