import LiquidityBand.Liquidity.OneSided

/-!
# Liquidity and the amounts of both tokens

Inside its range a position holds both tokens: the price splits the range, token 0 fills the part
above it and token 1 the part below. How the range is split does not depend on the formulas of one
token, which are parameters of it.

* `Liquidity.ofAmounts` is the liquidity that two amounts can fill, the lesser of the two sides;
* `Liquidity.amounts` are the two amounts that a liquidity is worth.
-/

namespace LiquidityBand

namespace Liquidity

/-- The liquidity of two amounts, by that of the amount of each token. -/
def ofAmountsBy (ofAmount0 ofAmount1 : SqrtRange → Amount → Except Error Liquidity)
    (current : SqrtPrice) (r : SqrtRange) (amounts : AmountPair) : Except Error Liquidity := do
  let _ ← r.width
  if current ≤ r.lower then ofAmount0 r amounts.amount0
  else if current < r.upper then do
    let side0 ← ofAmount0 ⟨current, r.upper⟩ amounts.amount0
    let side1 ← ofAmount1 ⟨r.lower, current⟩ amounts.amount1
    return if side0 ≤ side1 then side0 else side1
  else ofAmount1 r amounts.amount1

/-- The two amounts of a liquidity, by the amount of each token. -/
def amountsBy (amount0 amount1 : SqrtRange → Liquidity → Bool → Except Error Amount)
    (current : SqrtPrice) (r : SqrtRange) (liquidity : Liquidity) (roundUp : Bool) :
    Except Error AmountPair := do
  let _ ← r.width
  if current ≤ r.lower then
    return ⟨← amount0 r liquidity roundUp, 0⟩
  else if current < r.upper then
    return ⟨← amount0 ⟨current, r.upper⟩ liquidity roundUp,
      ← amount1 ⟨r.lower, current⟩ liquidity roundUp⟩
  else
    return ⟨0, ← amount1 r liquidity roundUp⟩

/-- The liquidity that the amounts give at the current square-root price. -/
def ofAmounts (current : SqrtPrice) (r : SqrtRange) (amounts : AmountPair) :
    Except Error Liquidity :=
  ofAmountsBy ofAmount0 ofAmount1 current r amounts

/-- The amounts that the liquidity is worth at the current square-root price. -/
def amounts (current : SqrtPrice) (r : SqrtRange) (liquidity : Liquidity) (roundUp : Bool) :
    Except Error AmountPair :=
  amountsBy amount0 amount1 current r liquidity roundUp

end Liquidity

end LiquidityBand
