import LiquidityBand.Double.Exponential
import LiquidityBand.Tick.Basic

/-!
# Prices as doubles

A price is the number of units of token 1 for one unit of token 0. As a double it is an estimate;
positions are built from ticks and exact square-root prices.

* `Price.toSqrtPrice` and `Price.ofSqrtPrice` convert between a price and its square-root price,
  and with the decimals of the two tokens between whole tokens and least units;
* `Price.ofTick` and `Price.toTick` convert between a price and a tick, the latter with the
  logarithm of `Double.ln`, and `Price.toTickBy` with any other;
* `Price.approxSqrtPrice` and `Price.approxTick` are quick estimates of the exact conversions
  between ticks and square-root prices.
-/

namespace LiquidityBand.Price

/-- The ratio of the prices of neighbouring ticks. -/
def tickRatio : Float := 1.0001

/-- The square-root price of one, as a double. -/
def oneSqrtPriceDouble : Float := Float.ofNat (2 ^ 96)

/-- The double is a number greater than zero. -/
def isPositive (price : Float) : Bool := (Double.signedUnits? price).any (0 < ·)

/-- The square-root price of a price, rounded down. -/
def toSqrtPrice (price : Float) : Except Error SqrtPrice :=
  if !isPositive price then .error .unusablePrice
  else
    let x := price.sqrt * oneSqrtPriceDouble
    if Float.ofNat (2 ^ 160) ≤ x then .error .sqrtPriceTooWide
    else do
      let whole ← Double.toUInt256 x
      if whole = 0 then throw .zeroSqrtPrice
      return whole

/-- The square root of the price, as a double. -/
def rootOfSqrtPrice (x : SqrtPrice) : Float := Double.ofUInt256 x / oneSqrtPriceDouble

/-- The price of a square-root price. -/
def ofSqrtPrice (x : SqrtPrice) : Float := rootOfSqrtPrice x * rootOfSqrtPrice x

/-- The difference of two numbers of decimals. -/
def decimalShift (a b : UInt8) : Int := a.toNat - b.toNat

/-- The square-root price of a price in whole tokens. -/
def toSqrtPriceWithDecimals (price : Float) (decimals0 decimals1 : UInt8) :
    Except Error SqrtPrice :=
  toSqrtPrice (price * Double.tenTo (decimalShift decimals1 decimals0))

/-- The price in whole tokens of a square-root price. -/
def ofSqrtPriceWithDecimals (x : SqrtPrice) (decimals0 decimals1 : UInt8) : Float :=
  ofSqrtPrice x * Double.tenTo (decimalShift decimals0 decimals1)

/-- The price of a tick. -/
def ofTick (t : Tick) : Float := Double.halfPower tickRatio (2 * t.toInt)

/-- The tick at or below a number on the axis of ticks. -/
def tickAtOrBelow (x : Float) : Except Error Tick :=
  match Double.floor? x with
  | none => .error .tickOutOfBounds
  | some z => do
    let t ← fitInt32 .tickOutOfBounds z
    if Tick.inBounds t then return t else throw .tickOutOfBounds

/-- The tick at or below a price, found with the given logarithm. -/
def toTickBy (ln : Float → Float) (price : Float) : Except Error Tick :=
  if !isPositive price then .error .unusablePrice
  else tickAtOrBelow (ln price / ln tickRatio)

/-- The tick at or below a price. -/
def toTick (price : Float) : Except Error Tick := toTickBy Double.ln price

/-- An estimate of the square-root price of a tick. -/
def approxSqrtPrice (t : Tick) : Except Error SqrtPrice :=
  if Tick.inBounds t then Double.toUInt256 (Double.halfPower tickRatio t.toInt * oneSqrtPriceDouble)
  else .error .tickOutOfBounds

/-- An estimate of the tick of a square-root price. -/
def approxTick (x : SqrtPrice) : Except Error Tick :=
  if x = 0 then .error .zeroSqrtPrice
  else tickAtOrBelow (2.0 * Double.ln (rootOfSqrtPrice x) / Double.ln tickRatio)

end LiquidityBand.Price
