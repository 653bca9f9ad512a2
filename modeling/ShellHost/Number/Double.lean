/-!
# Finite binary floating-point numbers

`Double` is a finite number of the 64-bit binary format, held as sign, significand and exponent. `nearest?` rounds a
quotient of natural numbers to it, a tie going to the even significand; multiplication and division are the exact
result rounded once. All of it is arithmetic on natural numbers, so it can be computed inside a proof.
-/

namespace ShellHost

/-- What every significand is below: a significand has 53 binary places. -/
abbrev Double.significandBound : Nat := 0x20000000000000

/-- The least significand whose leading place is taken. -/
abbrev Double.leastFull : Nat := 0x10000000000000

/-- The significands and exponents of the format, one pair for each magnitude: at the least exponent the
significand may be short, above it its leading place is taken. -/
def Double.Canonical (significand : Nat) (exponent : Int) : Prop :=
  significand < significandBound ∧ -1074 ≤ exponent ∧ exponent ≤ 971 ∧
    (exponent = -1074 ∨ leastFull ≤ significand)

instance (m : Nat) (e : Int) : Decidable (Double.Canonical m e) :=
  inferInstanceAs (Decidable (_ ∧ _ ∧ _ ∧ (_ ∨ _)))

/-- The number `± significand · 2 ^ exponent`. -/
structure Double where
  /-- Whether the sign is minus; zero has both signs. -/
  negative : Bool
  /-- The digits in binary, as a whole number. -/
  significand : Nat
  /-- The power of two of the last digit. -/
  exponent : Int
  /-- The one form of the magnitude. -/
  canonical : Double.Canonical significand exponent
  deriving DecidableEq

namespace Double

/-- Zero with a sign. -/
def zero (negative : Bool) : Double := ⟨negative, 0, -1074, by decide⟩

instance : Inhabited Double := ⟨zero false⟩

/-- Whether the number is zero, of either sign. -/
def isZero (x : Double) : Bool := x.significand == 0

/-- The number with the opposite sign. -/
def neg (x : Double) : Double := { x with negative := !x.negative }

/-- The number with these parts, if it is one of the format. -/
def ofParts? (negative : Bool) (significand : Nat) (exponent : Int) : Option Double :=
  if h : Canonical significand exponent then some ⟨negative, significand, exponent, h⟩ else none

/-- The whole number nearest to `a / b`, the even one if two are. -/
def roundDiv (a b : Nat) : Nat :=
  let q := a / b
  let r := a % b
  if b < 2 * r ∨ (b = 2 * r ∧ q % 2 = 1) then q + 1 else q

/-- `num / (den · 2 ^ e)` as a pair of natural numbers. -/
def unscale (num den : Nat) (e : Int) : Nat × Nat :=
  if 0 ≤ e then (num, den <<< e.toNat) else (num <<< (-e).toNat, den)

/-- The number nearest to `num / den`, a tie going to the even significand; `none` if it is too great. -/
def nearest? (negative : Bool) (num den : Nat) : Option Double :=
  if num = 0 then some (zero negative)
  else
    let low : Int := max (-1074) ((num.log2 : Int) - den.log2 - 53)
    let coarse := unscale num den low
    let e := if coarse.1 / coarse.2 < significandBound then low else low + 1
    let fine := unscale num den e
    let m := roundDiv fine.1 fine.2
    if m < significandBound then ofParts? negative m e else ofParts? negative leastFull (e + 1)

/-- The number nearest to a natural number. -/
def ofNat? (n : Nat) : Option Double := nearest? false n 1

/-- The product, rounded once. -/
def mul? (x y : Double) : Option Double :=
  let s := unscale (x.significand * y.significand) 1 (-(x.exponent + y.exponent))
  nearest? (x.negative != y.negative) s.1 s.2

/-- The quotient, rounded once. -/
def div? (x y : Double) : Option Double :=
  let s := unscale x.significand y.significand (y.exponent - x.exponent)
  nearest? (x.negative != y.negative) s.1 s.2

end Double

end ShellHost
