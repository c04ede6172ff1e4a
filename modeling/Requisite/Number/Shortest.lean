/-
  The shortest decimal that reads back as a given number.

  The reals that round to a finite number form an interval around it; its ends
  belong to it iff the significand is even.  `coarsest` walks the decimal grids
  `10 ^ k` from coarse to fine and takes the first that has a point in the
  interval: no shorter decimal reads back.  Of two such points the nearer one is
  taken, of two equally near ones the larger.

  * `Decimal` is `digits * 10 ^ exponent`;
  * `Interval`: the number and the ends of its interval over a common
    denominator;
  * `shortest x`: the decimal of the number `|x|`.
-/
import Requisite.Number.Binary64

namespace Requisite

/-- The decimal `digits * 10 ^ exponent`. -/
structure Decimal where
  digits : Nat
  exponent : Int
deriving DecidableEq, Repr

namespace Binary64

/-- A positive number `middle / unit` with the ends `low / unit`, `high / unit` of the interval
    of the reals that round to it; `closed` says whether the ends do so too. -/
structure Interval where
  low : Nat
  middle : Nat
  high : Nat
  unit : Nat
  closed : Bool

/-- The interval of a finite number that is not zero.  Below a power of two the numbers lie
    twice as dense, so its lower end is half as far. -/
def interval (x : Binary64) : Interval :=
  let m := x.significand
  let k := x.unitExponent - 2
  let down := if m = exponentWeight ∧ 1 < x.exponentField then 1 else 2
  let up := if 0 ≤ k then 1 <<< k.toNat else 1
  { low := (4 * m - down) * up
    middle := 4 * m * up
    high := (4 * m + 2) * up
    unit := if 0 ≤ k then 1 else 1 <<< (-k).toNat
    closed := m % 2 = 0 }

/-- Whether the real `n / d` lies in the interval. -/
def Interval.contains (i : Interval) (n d : Nat) : Bool :=
  if i.closed then i.low * d ≤ n * i.unit ∧ n * i.unit ≤ i.high * d
  else i.low * d < n * i.unit ∧ n * i.unit < i.high * d

/-- The point of the grid `10 ^ k` in the interval that is nearest to the middle, if there is
    one: it is one of the two neighbours of the middle. -/
def Interval.onGrid? (i : Interval) (k : Int) : Option Decimal :=
  let power := Nat.pow 10 k.natAbs
  -- the grid's points are `j * step / fine`
  let step := if 0 ≤ k then power else 1
  let fine := if 0 ≤ k then 1 else power
  let below := i.middle * fine / (i.unit * step)
  let holds (j : Nat) : Bool := i.contains (j * step) fine
  let twice := 2 * i.middle * fine
  let nearerBelow : Bool := twice < (2 * below + 1) * step * i.unit
  if holds below ∧ (nearerBelow ∨ !holds (below + 1)) then some ⟨below, k⟩
  else if holds (below + 1) then some ⟨below + 1, k⟩
  else none

/-- The first grid with a point in the interval, from `10 ^ k` down through `steps` finer ones;
    the middle rounded down to the last grid if none has. -/
def Interval.coarsest (i : Interval) : Nat → Int → Decimal
  | 0, k => ⟨i.middle * Nat.pow 10 (-k).toNat / i.unit, k⟩
  | steps + 1, k =>
    match i.onGrid? k with
    | some d => d
    | none => i.coarsest steps (k - 1)

/-- The decimal with the fewest digits that reads back as `|x|`, for a finite number.  It has
    at most 17 digits, so 20 grids below a power of ten above `|x|` are enough. -/
def shortest (x : Binary64) : Decimal :=
  if x.isZero then ⟨0, 0⟩
  else
    let top := (x.unitExponent + x.significand.log2 + 1) * 30103 / 100000 + 1
    x.interval.coarsest 20 top

end Binary64

end Requisite
