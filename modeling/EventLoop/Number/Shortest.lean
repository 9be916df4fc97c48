/-!
# The shortest decimal of a double

The reals that round to a double `m · 2 ^ q` form an interval: from half-way to its neighbour below
to half-way to its neighbour above, the ends included exactly when `m` is even. Its shortest decimal
is the one with the fewest digits in that interval; of several the closest, and of two equally close
the larger. The search goes through the grids of multiples of `10 ^ g` from coarse to fine and looks
at the two neighbours of the value on each: if any point of a grid lies in the interval, one of
these two does.
-/

namespace EventLoop.Number

/-- The real number `mantissa · 2 ^ exponent`. -/
structure Dyadic where
  mantissa : Nat
  exponent : Int
deriving DecidableEq, Repr

/-- The real number `digits · 10 ^ exponent`. -/
structure Decimal where
  digits : Nat
  exponent : Int
deriving DecidableEq, Repr

/-- Comparison as real numbers: both sides are multiplied by the powers that make them whole. -/
def Decimal.compareTo (d : Decimal) (x : Dyadic) : Ordering :=
  compare (d.digits * Nat.pow 10 d.exponent.toNat * Nat.pow 2 (-x.exponent).toNat)
    (x.mantissa * Nat.pow 2 x.exponent.toNat * Nat.pow 10 (-d.exponent).toNat)

/-- The largest multiple of `10 ^ grid` that is at most `x`, counted in multiples. -/
def Dyadic.floorOn (x : Dyadic) (grid : Int) : Nat :=
  (x.mantissa * Nat.pow 2 x.exponent.toNat * Nat.pow 10 (-grid).toNat) /
    (Nat.pow 2 (-x.exponent).toNat * Nat.pow 10 grid.toNat)

/-- The reals between two dyadic numbers, with or without the ends. -/
structure Interval where
  low : Dyadic
  high : Dyadic
  withEnds : Bool
deriving DecidableEq, Repr

/-- Does the decimal lie in the interval? -/
def Interval.contains (i : Interval) (d : Decimal) : Bool :=
  match d.compareTo i.low, d.compareTo i.high with
  | .gt, .lt => true
  | .eq, _ | _, .eq => i.withEnds
  | _, _ => false

/-- The reals that round to the double `x`. The neighbour below a power of two is only half as far
away as the one above, except for the smallest normal number. -/
def Dyadic.rounding (x : Dyadic) : Interval :=
  let narrow := x.mantissa == Nat.pow 2 52 && decide (-1074 < x.exponent)
  { low := ⟨4 * x.mantissa - (if narrow then 1 else 2), x.exponent - 2⟩
    high := ⟨4 * x.mantissa + 2, x.exponent - 2⟩
    withEnds := x.mantissa % 2 == 0 }

/-- The neighbour of `x` on a grid that lies in the interval: of two the closer, on a tie the
upper. -/
def Dyadic.neighbourIn (x : Dyadic) (i : Interval) (grid : Int) : Option Decimal :=
  let floor := x.floorOn grid
  let lower : Decimal := ⟨floor, grid⟩
  let upper : Decimal := ⟨floor + 1, grid⟩
  match i.contains lower, i.contains upper with
  | true, true =>
    match Decimal.compareTo ⟨2 * floor + 1, grid⟩ ⟨2 * x.mantissa, x.exponent⟩ with
    | .gt => some lower
    | _ => some upper
  | true, false => some lower
  | false, true => some upper
  | false, false => none

/-- The first neighbour in the interval on the given number of grids, from `grid` to finer ones. -/
def Dyadic.search (x : Dyadic) (i : Interval) : Nat → Int → Option Decimal
  | 0, _ => none
  | steps + 1, grid =>
    match x.neighbourIn i grid with
    | some d => some d
    | none => x.search i steps (grid - 1)

/-- The value itself as a decimal: a factor `2 ^ -k` is `5 ^ k · 10 ^ -k`. -/
def Dyadic.exactly (x : Dyadic) : Decimal :=
  if 0 ≤ x.exponent then ⟨x.mantissa * Nat.pow 2 x.exponent.toNat, 0⟩
  else ⟨x.mantissa * Nat.pow 5 (-x.exponent).toNat, x.exponent⟩

/-- A grid at least as coarse as the value is large: `log 2 / log 10` is just below `0.30103`. -/
def Dyadic.coarsest (x : Dyadic) : Int :=
  ((x.mantissa.log2 + 1 + x.exponent) * 30103).fdiv 100000 + 2

/-- The shortest decimal of a positive double. Seventeen digits are enough for a double, and the
first grids tried may be too coarse to have any. -/
def Dyadic.shortest (x : Dyadic) : Decimal :=
  (x.search x.rounding 22 x.coarsest).getD x.exactly

example : Dyadic.shortest ⟨1, -1074⟩ = ⟨5, -324⟩ := by decide +kernel
example : Dyadic.shortest ⟨Nat.pow 2 52, -77⟩ = ⟨29802322387695313, -24⟩ := by decide +kernel

end EventLoop.Number
