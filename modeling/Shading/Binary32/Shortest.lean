import Shading.Binary32

/-! # The fewest decimal digits that read back

    Every finite number stands for the reals that round to it: an interval
    that ends half way to its neighbours, with the ends included exactly if
    its significand is even.  The shortest decimal of the number is the one
    with the fewest digits inside that interval, and of those with equally
    few digits the nearest.  All comparisons are between natural numbers,
    on a common denominator. -/

namespace Shading

/-- A positive decimal: `digits * 10 ^ exponent`. -/
structure Decimal where
  digits : Nat
  exponent : Int
  deriving DecidableEq, Repr, Inhabited

namespace Decimal

/-- The digits as characters, most significant first. -/
def chars (d : Decimal) : List Char := Nat.toDigits 10 d.digits

end Decimal

namespace Binary32

/-- A positive number between two others, as numerators over one
    denominator: the reals that round to `value`. -/
structure Interval where
  low : Nat
  value : Nat
  high : Nat
  denominator : Nat
  closed : Bool

/-- The reals that round to a positive finite `x`.  The unit is a quarter of
    the distance to the next larger number, so that every end is whole. -/
def interval (x : Binary32) : Interval :=
  let gap := 1 <<< x.step
  let value := 4 * x.significand * gap
  { low := value - (if x.isLowestOfBinade then gap else 2 * gap)
    value := value
    high := value + 2 * gap
    denominator := 4 * (1 <<< 149)
    closed := x.significand % 2 == 0 }

namespace Interval

/-- Does `n * unit` lie in the interval, for a unit given as a numerator and
    a denominator? -/
def contains (i : Interval) (n num den : Nat) : Bool :=
  let p := n * num * i.denominator
  let low := i.low * den
  let high := i.high * den
  if i.closed then decide (low ≤ p) && decide (p ≤ high)
  else decide (low < p) && decide (p < high)

/-- The unit `10 ^ e` as a numerator and a denominator. -/
def unit (e : Int) : Nat × Nat :=
  if e < 0 then (1, Nat.pow 10 e.natAbs) else (Nat.pow 10 e.natAbs, 1)

/-- The multiple of `10 ^ e` that stands for the interval on that grid: the
    neighbour of the value that lies inside, and of two the nearer; half way
    between them the larger. -/
def onGrid? (i : Interval) (e : Int) : Option Nat :=
  let (num, den) := unit e
  let scaled := i.value * den
  let grid := num * i.denominator
  let below := scaled / grid
  match i.contains below num den, i.contains (below + 1) num den with
  | true, true => some (if scaled % grid * 2 < grid then below else below + 1)
  | true, false => some below
  | false, true => some (below + 1)
  | false, false => none

/-- The first hit on the grids `10 ^ e`, `10 ^ (e - 1)` and so on.  The hit
    has no trailing zero, for without it the number would have been a hit on
    the grid before. -/
def search (i : Interval) : (fuel : Nat) → (e : Int) → Decimal
  | 0, e => ⟨0, e⟩
  | fuel + 1, e =>
    match i.onGrid? e with
    | some n => ⟨n, e⟩
    | none => search i fuel (e - 1)

end Interval

/-- The shortest decimal of a positive finite number.  The search starts at
    `10 ^ 39`, above every magnitude, and ends at the latest at `10 ^ -45`,
    where the grid is finer than the distance between any two numbers. -/
def shortest (x : Binary32) : Decimal := x.interval.search 85 39

end Binary32

end Shading
