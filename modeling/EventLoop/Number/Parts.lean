/-!
# Double-precision numbers, taken apart

A finite number is a sign, a mantissa `m` and an exponent `q`, and stands for `± m · 2 ^ q`. Here
are the operations on doubles that are exact on these parts: the test for an integral value, the
whole part within bounds, and the remainder of a division.
-/

namespace EventLoop.Number

open Float.Model

/-- The value that stands for no number. -/
def notANumber : Float :=
  Float.ofBits 0x7ff8000000000000

/-- Has the number no fractional part? Infinities and the value that is no number have none to
speak of, and do not count as integral. -/
def isIntegral (x : Float) : Bool :=
  match x.toModel.unpack with
  | .finite _ m q _ => decide (0 ≤ q) || m % Nat.pow 2 (-q).toNat == 0
  | .zero _ => true
  | .infinity _ | .notANumber => false

/-- The whole part of a number, rounded towards zero and brought between the two bounds. An infinity
gives the bound on its side, and the value that is no number gives zero. -/
def wholeWithin (low high : Int) (x : Float) : Int :=
  match x.toModel.unpack with
  | .finite sign m q _ =>
    max low (min high (sign.apply (m * Nat.pow 2 q.toNat / Nat.pow 2 (-q).toNat)))
  | .zero _ | .notANumber => 0
  | .infinity .positive => high
  | .infinity .negative => low

/-- What is left of `x` after taking away `y` a whole number of times, towards zero. The result has
the sign of `x`, and is exact: both numbers are multiples of the smaller of their two units. A
division by an infinity leaves `x`, and division by zero or of an infinity leaves no number. -/
def remainder (x y : Float) : Float :=
  match x.toModel.unpack, y.toModel.unpack with
  | .finite sign m q _, .finite _ n p _ =>
    let unit := min q p
    let left := (m * Nat.pow 2 (q - unit).toNat) % (n * Nat.pow 2 (p - unit).toNat)
    Float.ofModel (.pack (UnpackedFloat.normalize Format.binary64 (sign.apply left) unit sign))
  | .finite .., .infinity _ | .zero _, .finite .. | .zero _, .infinity _ => x
  | _, _ => notANumber

end EventLoop.Number
