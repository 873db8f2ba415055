import ItemCatalog.Number.Decimal

/-!
# The shortest decimal that reads back

All real numbers that round to a given number form an interval around it, which holds its ends when
the number's significant part is even. `Double.shortest` takes the coarsest decimal grid that has a
point inside the interval, and on it the point nearest to the number. A coarser grid means fewer
digits, so no shorter decimal reads back. Where two points are equally near, the format decides
(`Tie`).
-/

namespace ItemCatalog

/-- Which of two equally near decimals is written. -/
inductive Tie
  /-- The one farther from zero. -/
  | up
  /-- The one with an even last digit. -/
  | even
  deriving DecidableEq, Repr

namespace Double

/-- The interval of real numbers that round to a magnitude, in quarters of a unit. -/
structure Neighbourhood where
  center : Nat
  low : Nat
  high : Nat
  closed : Bool
  deriving Repr

/-- The interval around a magnitude. Below a power of two the numbers lie twice as close. -/
def neighbourhood (magnitude : Nat) : Neighbourhood :=
  let shift := lowestBit magnitude
  let gapAbove := 1 <<< shift
  let gapBelow :=
    if 0 < shift ∧ magnitude = 1 <<< magnitude.log2 then 1 <<< (shift - 1) else gapAbove
  { center := 4 * magnitude
    low := 4 * magnitude - 2 * gapBelow
    high := 4 * magnitude + 2 * gapAbove
    closed := magnitude >>> shift % 2 = 0 }

/-- A quarter of a unit is `1 / quarters`. -/
def quarters : Nat := 4 * one

/-- `digits · 10^exponent`, and a number of quarters of a unit, over one common denominator. -/
def overCommon (digits : Nat) (exponent : Int) (x : Nat) : Nat × Nat :=
  if 0 ≤ exponent then (digits * Nat.pow 10 exponent.toNat * quarters, x)
  else (digits * quarters, x * Nat.pow 10 (-exponent).toNat)

/-- Whether the grid point `digits · 10^exponent` lies in the interval. -/
def Neighbourhood.contains (n : Neighbourhood) (exponent : Int) (digits : Nat) : Bool :=
  let (point, low) := overCommon digits exponent n.low
  let (_, high) := overCommon digits exponent n.high
  if n.closed then low ≤ point && point ≤ high else low < point && point < high

/-- Whether the lower neighbour of a number on a grid is preferred, where `rest / step` of a step is
left above it. -/
def prefersLower (tie : Tie) (below rest step : Nat) : Bool :=
  2 * rest < step || (2 * rest = step && tie = .even && below % 2 = 0)

/-- The point of the grid `10^exponent` in the interval that is nearest to its center. -/
def Neighbourhood.pointOn? (n : Neighbourhood) (tie : Tie) (exponent : Int) : Option Nat :=
  let (step, center) := overCommon 1 exponent n.center
  let below := center / step
  let lower := n.contains exponent below
  let upper := n.contains exponent (below + 1)
  if lower && (!upper || prefersLower tie below (center % step) step) then some below
  else if upper then some (below + 1)
  else none

/-- The first grid with a point in the interval, going down from `10^exponent`. -/
def Neighbourhood.coarsest (n : Neighbourhood) (tie : Tie) : Nat → Int → Decimal
  | 0, exponent => ⟨0, exponent⟩
  | fuel + 1, exponent =>
    match n.pointOn? tie exponent with
    | some digits => ⟨digits, exponent⟩
    | none => n.coarsest tie fuel (exponent - 1)

/-- The shortest decimal that rounds to a positive magnitude. The search starts above the number,
where no grid has a point in the interval, and seventeen digits always suffice. -/
def shortest (tie : Tie) (magnitude : Nat) : Decimal :=
  let binary : Int := magnitude.log2 + 1 - 1074
  (neighbourhood magnitude).coarsest tie 24 (Int.fdiv (binary * 30103) 100000 + 2)

end Double

end ItemCatalog
