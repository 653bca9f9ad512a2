import ShellHost.Number.Double

/-!
# Decimal numbers and doubles

`Double.ofDecimal?` turns a decimal significand and a power of ten into a double the quick way: the significand is
rounded to a double, the power of ten is rounded to a double, and one operation joins the two. The result is not always
the nearest double. `Double.shortest` goes the other way and finds the fewest decimal digits that still lie nearer to
the double than to any other.
-/

namespace ShellHost.Double

/-- The double nearest to a power of ten. -/
def powerOfTen? (k : Nat) : Option Double := nearest? false (Nat.pow 10 k) 1

/-- A double divided by `10 ^ k`, where `top` is the greatest power of ten that is a double, `10 ^ 308`. A greater
power is taken in parts, until nothing is left. -/
def scaleDown? (top x : Double) (k : Nat) : Option Double :=
  if k ≤ 308 then (powerOfTen? k).bind x.div?
  else if x.isZero then some x
  else
    match x.div? top with
    | none => none
    | some y => scaleDown? top y (k - 308)
termination_by k

/-- The double that `± significand · 10 ^ exponent` is read as; `none` if it is too great. -/
def ofDecimal? (negative : Bool) (significand : Nat) (exponent : Int) : Option Double := do
  let x ← ofNat? significand
  let y ←
    if exponent < 0 then scaleDown? (← powerOfTen? 308) x (-exponent).toNat
    else if exponent ≤ 308 then x.mul? (← powerOfTen? exponent.toNat)
    else if x.isZero then some x
    else none
  return { y with negative := negative }

/-- The power of ten of the first digit of `num / den`, for `num` and `den` above zero. Binary lengths give it but for
one place. -/
def magnitude (num den : Nat) : Int :=
  let estimate : Int := (((num.log2 : Int) - den.log2) * 30103).fdiv 100000
  let atLeast (k : Int) : Bool :=
    if 0 ≤ k then den * Nat.pow 10 k.toNat ≤ num else den ≤ num * Nat.pow 10 (-k).toNat
  if atLeast (estimate + 1) then estimate + 1 else if atLeast estimate then estimate else estimate - 1

/-- The decimals that a double covers: those between `low` and `high` over `scale`, with the ends if `closed`. -/
structure Cover where
  /-- The numerator of the lower end. -/
  low : Nat
  /-- The numerator of the double itself. -/
  mid : Nat
  /-- The numerator of the upper end. -/
  high : Nat
  /-- The common denominator. -/
  scale : Nat
  /-- Whether the ends belong to it. -/
  closed : Bool

/-- The numbers that round to a double. Half the gap to the next double on each side, and the gap below a power of two
is half as wide. -/
def cover (x : Double) : Cover :=
  let m := 4 * x.significand
  let below := if x.significand = leastFull ∧ -1074 < x.exponent then 1 else 2
  let e := x.exponent - 2
  let up := if 0 ≤ e then 1 <<< e.toNat else 1
  let down := if 0 ≤ e then 1 else 1 <<< (-e).toNat
  ⟨(m - below) * up, m * up, (m + 2) * up, down, x.significand % 2 == 0⟩

/-- Whether `d · 10 ^ k` lies in the cover, where `a / b` is `10 ^ k`. -/
def Cover.holds (c : Cover) (a b d : Nat) : Bool :=
  let n := d * a * c.scale
  if c.closed then c.low * b ≤ n && n ≤ c.high * b else c.low * b < n && n < c.high * b

/-- The multiple of `10 ^ k` in the cover that is nearest to its middle, if there is one: a neighbour of the middle, the
even one if both are as near. -/
def Cover.onGrid? (c : Cover) (k : Int) : Option Nat :=
  let a := if 0 ≤ k then Nat.pow 10 k.toNat else 1
  let b := if 0 ≤ k then 1 else Nat.pow 10 (-k).toNat
  let d := c.mid * b / (a * c.scale)
  let below := c.holds a b d
  let above := c.holds a b (d + 1)
  if below && above then
    let toBelow := c.mid * b - d * a * c.scale
    let toAbove := (d + 1) * a * c.scale - c.mid * b
    if toBelow < toAbove || (toBelow == toAbove && d % 2 == 0) then some d else some (d + 1)
  else if below then some d
  else if above then some (d + 1)
  else none

/-- A number without its trailing zeros, which go into the power of ten. -/
def dropZeros : Nat → Nat → Int → Nat × Int
  | 0, d, k => (d, k)
  | fuel + 1, d, k => if d % 10 = 0 ∧ d ≠ 0 then dropZeros fuel (d / 10) (k + 1) else (d, k)

/-- The fewest digits `d`, with their power of ten `k`, such that `d · 10 ^ k` rounds to the double; of several with
so few digits the nearest. Seventeen digits are enough for every double. -/
def shortest (x : Double) : Nat × Int :=
  if x.isZero then (0, 0)
  else
    let c := x.cover
    let e := magnitude c.mid c.scale
    let hit (i : Nat) : Option (Nat × Int) := (c.onGrid? (e - i)).map (·, e - i)
    let found := ((List.range 17).findSome? hit).getD (0, 0)
    dropZeros 17 found.1 found.2

end ShellHost.Double
