import LiquidityBand.Double.Basic

/-!
# Rounding to the nearest double

The double nearest to a quotient of two numbers, a tie going to the even significand. On the grid
of doubles of one size the quotient is rounded to an integer of 53 bits; the grid has no spacing
below `2 ^ -1074`, and what lies beyond the largest finite double becomes infinite.

* `Double.nearest` rounds a quotient to an integer;
* `Double.ofQuotient` rounds it to a double, and `Double.ofSignedQuotient` gives it a sign.
-/

namespace LiquidityBand.Double

/-- The integer nearest to `num / den`, a tie going to the even one. -/
def nearest (num den : Nat) : Nat :=
  let q := num / den
  let twice := 2 * (num % den)
  if twice < den then q
  else if den < twice then q + 1
  else q + q % 2

/-- The exponent of the spacing of the doubles around `num / den`, plus 1074. -/
def spacing (num den : Nat) : Nat :=
  let scaled := num * unitsInOne
  (scaled / den).log2 - 52

/-- The bits of positive infinity. -/
def infinityBits : Nat := 2047 * 2 ^ 52

/-- The bits of the double nearest to `num / den`. The place of the spacing is counted in the
exponent field, and the leading bit of the rounded significand adds the one that is missing. -/
def quotientBits (num den : Nat) : Nat :=
  let place := spacing num den
  let significand := nearest (num * unitsInOne) (den * 2 ^ place)
  min (place * 2 ^ 52 + significand) infinityBits

/-- The double nearest to `num / den`; `den` is positive. -/
def ofQuotient (num den : Nat) : Float := Float.ofBits (UInt64.ofNat (quotientBits num den))

/-- The double nearest to `num / den`, with the sign of `num`. -/
def ofSignedQuotient (num : Int) (den : Nat) : Float :=
  let x := ofQuotient num.natAbs den
  if num < 0 then -x else x

/-- The double nearest to the `n`-th power of ten. -/
def tenTo (n : Int) : Float :=
  if n < 0 then ofQuotient 1 (10 ^ n.natAbs) else ofQuotient (10 ^ n.natAbs) 1

end LiquidityBand.Double
