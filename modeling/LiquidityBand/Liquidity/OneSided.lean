import LiquidityBand.Amount.Basic
import LiquidityBand.ProductQuotient
import LiquidityBand.Tick.Basic

/-!
# Liquidity and the amount of one token

A position of liquidity `L` between the square-root prices `a < b` is worth `L * (1 / a - 1 / b)`
of token 0 while the price is below it, and `L * (b - a)` of token 1 while it is above. Amounts
that go in are turned into liquidity rounded down; amounts that come out are rounded as asked.

* `SqrtRange.width` is `b - a`, and refuses what is no range of positive stored prices;
* `Liquidity.ofAmount0` and `Liquidity.ofAmount1` are the liquidity of an amount;
* `Liquidity.amount0` and `Liquidity.amount1` are the amount of a liquidity;
* `Liquidity.ofDeposit` and `Liquidity.required` are the two that a deposit of token 1 needs.
-/

namespace LiquidityBand

/-- The liquidity of a position. -/
abbrev Liquidity := UInt128

/-- Two square-root prices. -/
structure SqrtRange where
  lower : SqrtPrice
  upper : SqrtPrice
  deriving DecidableEq, Repr

/-- The distance of the two square-root prices, which are to ascend, to be positive and to be no
wider than a pool stores them. -/
def SqrtRange.width (r : SqrtRange) : Except Error UInt256 :=
  if r.upper ≤ r.lower then .error .emptySqrtPriceRange
  else if r.lower = 0 then .error .zeroSqrtPrice
  else if maxStoredSqrtPrice < r.upper then .error .sqrtPriceTooWide
  else do
    let d ← difference r.upper.toNat r.lower.toNat
    fit 256 .fault d

namespace Liquidity

/-- A 128-bit number moved to the integer part of a fixed-point one. -/
def scaled (x : UInt128) : UInt256 := BitVec.ofNat 256 (x.toNat * 2 ^ fractionBits)

/-- The liquidity of an amount of token 0, by products and quotients of prices. -/
def ofAmount0By (fixedProduct : UInt256 → UInt256 → Bool → Except Error UInt256)
    (productQuotient : UInt256 → UInt256 → UInt256 → Bool → Except Error UInt256)
    (r : SqrtRange) (amount : Amount) : Except Error Liquidity := do
  let width ← r.width
  let product ← fixedProduct r.lower r.upper false
  let liquidity ← productQuotient (amount.setWidth 256) product width false
  fit 128 .liquidityTooWide liquidity.toNat

/-- The liquidity of an amount of token 0. -/
def ofAmount0 (r : SqrtRange) (amount : Amount) : Except Error Liquidity :=
  ofAmount0By fixedProduct productQuotient r amount

/-- The liquidity of an amount of token 1. -/
def ofAmount1 (r : SqrtRange) (amount : Amount) : Except Error Liquidity := do
  let width ← r.width
  let liquidity ← quotient (scaled amount).toNat width.toNat
  fit 128 .liquidityTooWide liquidity

/-- The amount of token 0 that a liquidity is worth below its range. -/
def amount0 (r : SqrtRange) (liquidity : Liquidity) (roundUp : Bool) : Except Error Amount := do
  let width ← r.width
  let value ← productQuotient (scaled liquidity) width r.upper roundUp
  let whole ← quotient value.toNat r.lower.toNat
  let inexact := value.toNat % r.lower.toNat != 0
  let amount ← if roundUp && inexact then fit 256 .fault (whole + 1) else fit 256 .fault whole
  fit 128 .amountTooWide amount.toNat

/-- The amount of token 1 of a liquidity, by products of prices. -/
def amount1By (fixedProduct : UInt256 → UInt256 → Bool → Except Error UInt256) (r : SqrtRange)
    (liquidity : Liquidity) (roundUp : Bool) : Except Error Amount := do
  let width ← r.width
  let amount ← fixedProduct (liquidity.setWidth 256) width roundUp
  fit 128 .amountTooWide amount.toNat

/-- The amount of token 1 that a liquidity is worth above its range. -/
def amount1 (r : SqrtRange) (liquidity : Liquidity) (roundUp : Bool) : Except Error Amount :=
  amount1By fixedProduct r liquidity roundUp

/-- The liquidity that a deposit of token 1 gives. -/
def ofDeposit (amount : Amount) (r : SqrtRange) : Except Error Liquidity := ofAmount1 r amount

/-- The deposit of token 1 that a liquidity needs. -/
def required (liquidity : Liquidity) (r : SqrtRange) : Except Error Amount :=
  amount1 r liquidity true

/-- A scaled number never leaves 256 bits. -/
theorem toNat_scaled (x : UInt128) : (scaled x).toNat = x.toNat * 2 ^ fractionBits := by
  have := x.isLt
  rw [scaled, BitVec.toNat_ofNat, fractionBits, Nat.mod_eq_of_lt (by omega)]

end Liquidity

end LiquidityBand
