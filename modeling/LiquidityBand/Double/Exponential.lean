import LiquidityBand.Double.Rounding

/-!
# Logarithm and powers

The natural logarithm and the powers of a double, rounded to the nearest double. They are computed
in fixed point with 256 fractional bits, from series whose terms are cut when they vanish; the
error is far below the distance at which two doubles differ.

* `Double.ln` is the logarithm, by `ln x = e * ln 2 + 2 * artanh ((m - 1) / (m + 1))` for
  `x = m * 2 ^ e` with `1 ≤ m < 2`;
* `Double.halfPower x n` is `x ^ (n / 2)`, by the exponential series of `n / 2 * ln x` less a
  multiple of `ln 2`.
-/

namespace LiquidityBand.Double

/-- One, in fixed point. -/
def one : Nat := 2 ^ 256

/-- The sum of `terms` terms of the series of the inverse hyperbolic tangent, from the one with
divisor `k` on; `power` is the power of the argument in it, and `square` the square of it. -/
def artanhSum : Nat → Nat → Nat → Nat → Nat
  | 0, _, _, _ => 0
  | terms + 1, k, power, square =>
      power / k + artanhSum terms (k + 2) (power * square / one) square

/-- Twice the inverse hyperbolic tangent of `num / den`, for a quotient of at most a third. -/
def twiceArtanh (num den : Nat) : Nat :=
  let z := num * one / den
  2 * artanhSum 96 1 z (z * z / one)

/-- The logarithm of 2. -/
def ln2 : Nat := twiceArtanh 1 3

/-- The logarithm of `units` times `2 ^ -1074`, for `units` positive. -/
def fixedLn (units : Nat) : Int :=
  let e := units.log2
  let scale := 2 ^ e
  ((e : Int) - 1074) * ln2 + twiceArtanh (units - scale) (units + scale)

/-- The sum of `terms` terms of the exponential series at `r`, the next of them being the `k`-th,
with value `term`. -/
def expSum : Nat → Nat → Nat → Nat → Nat
  | 0, _, _, _ => 0
  | terms + 1, k, term, r => term + expSum terms (k + 1) (term * r / one / (k + 1)) r

/-- Beyond this power of two, on either side, a number rounds to infinity or to zero. -/
def greatestPower : Int := 1100

/-- The double nearest to the exponential of `y`, a number in fixed point. -/
def exp (y : Int) : Float :=
  let k := max (-greatestPower) (min greatestPower (y / ln2))
  let r := (y % ln2).toNat
  let value := expSum 80 0 one r
  if k < 0 then ofQuotient value (one * 2 ^ k.natAbs) else ofQuotient (value * 2 ^ k.natAbs) one

/-- The double that stands for no number. -/
def notANumber : Float := Float.ofBits 0x7ff8000000000000

/-- The infinite double of a sign. -/
def infinity (negative : Bool) : Float :=
  Float.ofBits (if negative then 0xfff0000000000000 else 0x7ff0000000000000)

/-- The double nearest to the natural logarithm. The logarithm of a library may miss it by a place,
so what is proved of the ticks of prices takes any logarithm. -/
def ln (x : Float) : Float :=
  match read x with
  | .nan => notANumber
  | .infinite negative => if negative then notANumber else infinity false
  | .finite negative significand place =>
    if significand = 0 then infinity true
    else if negative then notANumber
    else ofSignedQuotient (fixedLn (significand * 2 ^ place)) one

/-- The double nearest to `x ^ (n / 2)`, for a positive finite `x`. -/
def halfPower (x : Float) (n : Int) : Float :=
  match (read x).units? with
  | some units => exp (n * fixedLn units / 2)
  | none => notANumber

end LiquidityBand.Double
