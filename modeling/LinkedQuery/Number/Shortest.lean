import LinkedQuery.Number.Double

/-!
# Shortest decimals

The decimals that read back as a given `Double` are those of its rounding interval, the numbers
nearer to it than to any other number of the format.  `Double.shortest` is the one with the
fewest digits.  On each decimal grid only the two neighbours of the number can be nearest, so
the grids are tried from the coarsest to the finest and the first grid with a neighbour in the
interval gives the digits; `Tie` settles the case where both neighbours are equally near.
-/

namespace LinkedQuery

/-- Which of two equally near decimals is taken. -/
inductive Tie where
  | even
  | up
deriving DecidableEq, Repr

namespace Double

/-- The rounding interval in quarters of a unit of the significand: below a power of two the
numbers of the format lie twice as dense. -/
def interval (x : Double) : Nat × Nat :=
  let quarters := 4 * x.significand
  if x.significand = Nat.pow 2 52 ∧ leastExponent < x.exponent then (quarters - 1, quarters + 2)
  else (quarters - 2, quarters + 2)

/-- The ends of the interval round to the number when its significand is even. -/
def admits (x : Double) (low high decimal : Nat) : Bool :=
  if x.significand % 2 = 0 then low ≤ decimal && decimal ≤ high
  else low < decimal && decimal < high

/-- The multiple of `10 ^ place` that is nearest to the number, if it reads back. -/
def multipleOf? (tie : Tie) (x : Double) (place : Int) : Option Nat :=
  let quarter := x.exponent - 2
  let step := Nat.pow 10 place.toNat * Nat.pow 2 (-quarter).toNat
  let weight := Nat.pow 2 quarter.toNat * Nat.pow 10 (-place).toNat
  let value := 4 * x.significand * weight
  let low := x.interval.1 * weight
  let high := x.interval.2 * weight
  let below := value / step
  match x.admits low high (below * step), x.admits low high ((below + 1) * step) with
  | false, false => none
  | true, false => some below
  | false, true => some (below + 1)
  | true, true =>
    match compare (2 * value) ((2 * below + 1) * step), tie with
    | .lt, _ => some below
    | .gt, _ => some (below + 1)
    | .eq, .up => some (below + 1)
    | .eq, .even => some (if below % 2 = 0 then below else below + 1)

/-- The place of the coarsest grid that can hold a number of the format. -/
def coarsestPlace : Int := 309

/-- The number of grids down to the one of the least positive number. -/
def gridCount : Nat := 634

/-- The magnitude as `digits · 10 ^ place` with the fewest digits that read back. -/
def shortest (tie : Tie) (x : Double) : Nat × Int :=
  if x.significand = 0 then (0, 0)
  else
    let onGrid (i : Nat) : Option (Nat × Int) :=
      let place := coarsestPlace - (i : Int)
      (x.multipleOf? tie place).map fun digits => (digits, place)
    ((List.range gridCount).findSome? onGrid).getD (x.significand, x.exponent)

end Double

end LinkedQuery
