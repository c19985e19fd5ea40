import DirtyRegion.Decimal.Binary64

/-!
# Shortest decimals — the fewest digits that read back

The reals that round to a double fill an interval around it. `Binary64.shortest` looks for a
decimal in that interval on coarser grids first: the multiples of the power of ten of the leading
digit, then of a tenth of it, and so on. On each grid only the two neighbours of the value can be
nearest. The first grid with a neighbour inside the interval wins; of two neighbours inside the
nearer one wins, and of two equally near ones the even one.
-/

namespace DirtyRegion

/-- The decimal number `digits * 10 ^ exponent`. -/
structure Decimal where
  digits : Nat
  exponent : Int
  deriving DecidableEq, Repr

/-- A value with the reals that round to it, all as numerators over one denominator. -/
structure Rounding where
  low : Nat
  value : Nat
  high : Nat
  scale : Nat
  /-- The two ends round to the value as well. -/
  closed : Bool
  deriving DecidableEq, Repr

namespace Rounding

/-- The same interval in units of `10 ^ j`. -/
def inUnits (r : Rounding) (j : Int) : Rounding :=
  if 0 ≤ j then
    { r with scale := r.scale * Nat.pow 10 j.toNat }
  else
    let f := Nat.pow 10 (-j).toNat
    { r with low := r.low * f, value := r.value * f, high := r.high * f }

/-- The whole number `n` rounds to the value. -/
def admits (r : Rounding) (n : Nat) : Bool :=
  if r.closed then r.low ≤ n * r.scale && n * r.scale ≤ r.high
  else r.low < n * r.scale && n * r.scale < r.high

/-- The whole number nearest to the value among those that round to it; a tie goes to the even one.
-/
def nearest? (r : Rounding) : Option Nat :=
  let n := r.value / r.scale
  match r.admits n, r.admits (n + 1) with
  | false, false => none
  | true, false => some n
  | false, true => some (n + 1)
  | true, true =>
    match compare (2 * r.value) ((2 * n + 1) * r.scale) with
    | .lt => some n
    | .gt => some (n + 1)
    | .eq => some (if n % 2 = 0 then n else n + 1)

/-- How many decimal digits a whole number has. -/
def width (n : Nat) : Nat :=
  (Nat.toDigits 10 n).length

/-- The power of ten at the leading digit of the value. -/
def leading (r : Rounding) : Int :=
  if r.scale ≤ r.value then (width (r.value / r.scale) : Int) - 1
  else -(width ((r.scale + r.value - 1) / r.value - 1) : Int)

/-- The shortest decimal in the interval. Seventeen digits are enough for every double. -/
def shortest (r : Rounding) : Decimal :=
  let grid (k : Nat) : Int := r.leading - k
  let hit := (List.range 17).findSome? fun k =>
    (r.inUnits (grid k)).nearest?.map (Decimal.mk · (grid k))
  let fine := r.inUnits (grid 16)
  hit.getD ⟨fine.value / fine.scale, grid 16⟩

end Rounding

namespace Binary64

/-- The reals that round to the size of the number, in quarters of its last binary place. -/
def rounding (x : Binary64) : Rounding :=
  let value := 4 * x.significand
  let low := value - if x.thin then 1 else 2
  let closed := x.significand % 2 == 0
  if 2 ≤ x.exponent then
    let f := Nat.pow 2 (x.exponent - 2).toNat
    ⟨low * f, value * f, (value + 2) * f, 1, closed⟩
  else
    ⟨low, value, value + 2, Nat.pow 2 (2 - x.exponent).toNat, closed⟩

/-- The shortest decimal that rounds to the size of the number. -/
def shortest (x : Binary64) : Decimal :=
  if x.significand = 0 then ⟨0, 0⟩ else x.rounding.shortest

end Binary64

end DirtyRegion
