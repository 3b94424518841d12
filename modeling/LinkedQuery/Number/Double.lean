/-!
# Binary floating point

A `Double` is a finite number of the 64-bit binary format, the product of a sign, a
significand of at most 53 bits and a power of two.  `Double.nearest?` rounds a ratio of
natural numbers to the format, a half going to the even significand; it is the only rounding
here, and everything else is exact arithmetic on ratios.  `Double.ofDecimal?` is the reading of
a decimal that a document's numbers get: the significand is rounded once, and scaling it by
powers of ten rounds again.
-/

namespace LinkedQuery

/-- The number `± significand · 2 ^ exponent`. -/
structure Double where
  negative : Bool
  significand : Nat
  exponent : Int
deriving DecidableEq, Repr, Inhabited

namespace Double

/-- The exponent of the least positive numbers of the format. -/
def leastExponent : Int := -1074

/-- The exponent of the greatest numbers of the format. -/
def greatestExponent : Int := 971

/-- The quotient `a / b` as a natural number, a half going to the even neighbour. -/
def divideToEven (a b : Nat) : Nat :=
  let quotient := a / b
  let remainder := a % b
  if b < 2 * remainder ∨ (2 * remainder = b ∧ quotient % 2 = 1) then quotient + 1 else quotient

/-- The ratio `a / b` divided by `2 ^ exponent`. -/
def unscale (a b : Nat) (exponent : Int) : Nat × Nat :=
  (a * Nat.pow 2 (-exponent).toNat, b * Nat.pow 2 exponent.toNat)

/-- The exponent that leaves `a / b` a quotient of 53 bits, unless the format ends before. -/
def exponentOf (a b : Nat) : Int :=
  if a = 0 then leastExponent else
  let rough : Int := (a.log2 : Int) - (b.log2 : Int) - 52
  let scaled := unscale a b rough
  max leastExponent (if scaled.1 < Nat.pow 2 52 * scaled.2 then rough - 1 else rough)

/-- The number of the format nearest to `± a / b`, if it is not beyond the greatest. -/
def nearest? (negative : Bool) (a b : Nat) : Option Double :=
  let exponent := exponentOf a b
  let scaled := unscale a b exponent
  let significand := divideToEven scaled.1 scaled.2
  let rounded : Double :=
    if significand = Nat.pow 2 53 then ⟨negative, Nat.pow 2 52, exponent + 1⟩
    else ⟨negative, significand, exponent⟩
  if greatestExponent < rounded.exponent then none else some rounded

/-- The magnitude as a ratio of natural numbers. -/
def ratio (x : Double) : Nat × Nat :=
  (x.significand * Nat.pow 2 x.exponent.toNat, Nat.pow 2 (-x.exponent).toNat)

/-- The power of ten, rounded to the format. -/
def powerOfTen (exponent : Nat) : Nat × Nat :=
  ((nearest? false (Nat.pow 10 exponent) 1).getD default).ratio

/-- The rounded product with a rounded power of ten. -/
def timesPowerOfTen? (x : Double) (exponent : Nat) : Option Double :=
  let power := powerOfTen exponent
  nearest? x.negative (x.ratio.1 * power.1) (x.ratio.2 * power.2)

/-- The rounded quotient by a rounded power of ten. -/
def overPowerOfTen? (x : Double) (exponent : Nat) : Option Double :=
  let power := powerOfTen exponent
  nearest? x.negative (x.ratio.1 * power.2) (x.ratio.2 * power.1)

/-- The greatest power of ten that the format holds. -/
def greatestPowerOfTen : Nat := 308

/-- A power beyond the greatest is divided by in several steps, down to zero at most. -/
def shrink? (exponent : Nat) : (steps : Nat) → (x : Double) → Option Double
  | 0, x => x.overPowerOfTen? exponent
  | steps + 1, x =>
    if x.significand = 0 then some x
    else (x.overPowerOfTen? greatestPowerOfTen).bind (shrink? exponent steps)

/-- The number read for `± significand · 10 ^ exponent`: the significand is rounded first, and
then the scaled number. -/
def ofDecimal? (negative : Bool) (significand : Nat) (exponent : Int) : Option Double :=
  match nearest? negative significand 1 with
  | none => none
  | some x =>
    if exponent < 0 then
      let steps := ((-exponent).toNat - 1) / greatestPowerOfTen
      shrink? ((-exponent).toNat - steps * greatestPowerOfTen) steps x
    else if exponent.toNat ≤ greatestPowerOfTen then x.timesPowerOfTen? exponent.toNat
    else if x.significand = 0 then some x
    else none

end Double

end LinkedQuery
