import LiquidityBand.Wide.Product
import LiquidityBand.Wide.Division
import LiquidityBand.Wide.Shift

/-!
# Products of prices, divided

The two operations that every formula on square-root prices is made of. A square-root price is a
fixed-point number with 96 fractional bits, so the product of two of them is divided by `2 ^ 96`.

* `productQuotient a b d roundUp` is `a * b / d`, with the product in full, rounded down or up;
* `fixedProduct a b roundUp` is `a * b / 2 ^ 96`, by a shift.
-/

namespace LiquidityBand

/-- The number of fractional bits of a square-root price. -/
def fractionBits : Nat := 96

/-- The square-root price of one. -/
def oneSqrtPrice : UInt256 := BitVec.ofNat 256 (2 ^ 96)

/-- One more, if asked for and if 256 bits hold it. -/
def roundedUp (up : Bool) (x : UInt256) : Except Error UInt256 :=
  if up then fit 256 .arithmeticOverflow (x.toNat + 1) else .ok x

/-- The quotient `a * b / d`, rounded down, or up if `roundUp` is set. -/
def productQuotient (a b d : UInt256) (roundUp : Bool) : Except Error UInt256 :=
  if d = 0 then .error .divisionByZero
  else do
    let r ← (Wide.ofProduct a b).divide (Wide.ofUInt256 d) roundUp
    let quotient ← r.quotient.toUInt256
    roundedUp (roundUp && !r.remainder.isZero) quotient

/-- The quotient `a * b / 2 ^ 96`, rounded down, or up if `roundUp` is set. -/
def fixedProduct (a b : UInt256) (roundUp : Bool) : Except Error UInt256 := do
  let product := Wide.ofProduct a b
  let quotient ← (product.shiftRight fractionBits).toUInt256
  let inexact := !(product.shiftLeft (512 - fractionBits)).isZero
  roundedUp (roundUp && inexact) quotient

end LiquidityBand
