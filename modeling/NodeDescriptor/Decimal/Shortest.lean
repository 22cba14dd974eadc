import NodeDescriptor.Decimal.Binary64

/-!
# Shortest decimals

A decimal grid is the set of multiples of one power of ten. `Binary64.shortest` takes the
coarsest grid that has a point inside the interval of real numbers that round to the given
number, and of the points of that grid the one nearest to the number. So the digits read back
to the same number, no shorter decimal does, and of the shortest ones the nearest is chosen.

The interval contains its end points exactly when the significand is even, since a tie goes
to the even significand. If any point of a grid lies in the interval, then one of the two
points next to the number does, so only these two are tried.
-/

set_option autoImplicit false

namespace NodeDescriptor

/-- A natural number times a power of ten. -/
structure DecimalNumber where
  digits : Nat
  exponent : Int
  deriving DecidableEq, Repr

namespace Binary64

/-- The real numbers that round to one magnitude, over a common denominator: the number
itself, both ends, and whether the ends belong to it. -/
structure RoundingInterval where
  lower : Nat
  value : Nat
  upper : Nat
  denominator : Nat
  closed : Bool

/-- The numbers that round to `x`. Just above a power of two the gap below is half the gap
above. -/
def interval (x : Binary64) : RoundingInterval :=
  let significand := x.significand
  let below := if significand = blockSize ∧ -1074 < x.exponent then 1 else 2
  let unit := x.exponent - 2
  let scale := if 0 ≤ unit then powerOfTwo unit.toNat else 1
  { lower := (4 * significand - below) * scale
    value := 4 * significand * scale
    upper := (4 * significand + 2) * scale
    denominator := if 0 ≤ unit then 1 else powerOfTwo (-unit).toNat
    closed := significand % 2 = 0 }

/-- The points of the grid of step `10^exponent` next to the number that lie in the interval,
nearest first, the even one first in a tie. -/
def RoundingInterval.gridPoint? (interval : RoundingInterval) (exponent : Int) : Option Nat :=
  let up := if 0 ≤ exponent then 1 else powerOfTen (-exponent).toNat
  let step := interval.denominator * (if 0 ≤ exponent then powerOfTen exponent.toNat else 1)
  let lower := interval.lower * up
  let value := interval.value * up
  let upper := interval.upper * up
  let below := value / step
  let above := below + 1
  let holds (point : Nat) : Bool :=
    if interval.closed then lower ≤ point * step && point * step ≤ upper
    else lower < point * step && point * step < upper
  let belowDistance := value - below * step
  let aboveDistance := above * step - value
  let belowFirst := belowDistance < aboveDistance ||
    (belowDistance == aboveDistance && below % 2 == 0)
  let ordered := if belowFirst then [below, above] else [above, below]
  ordered.find? holds

/-- An upper bound for the power of ten of the leading digit. -/
def leadingExponentBound (x : Binary64) : Int :=
  ((Nat.log2 x.significand : Int) + x.exponent + 1) * 30103 / 100000 + 1

/-- The shortest decimal that reads back as the magnitude of `x`, and the nearest of those. -/
def shortest (x : Binary64) : DecimalNumber :=
  let start := x.leadingExponentBound
  let grids := (List.range 24).map fun (drop : Nat) => start - (drop : Int)
  match grids.findSome? fun exponent =>
      (x.interval.gridPoint? exponent).map fun digits => DecimalNumber.mk digits exponent with
  | some decimal => decimal
  | none => ⟨0, 0⟩

end Binary64

end NodeDescriptor
