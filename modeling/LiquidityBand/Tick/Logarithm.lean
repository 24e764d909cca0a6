import LiquidityBand.Tick.SqrtPrice

/-!
# Tick of a square-root price

The tick of a square-root price is the greatest one whose square-root price is not above it. The
binary logarithm, in fixed point, gives at most two candidates, and the exact square-root price of
the higher one decides.

* `Tick.binaryLog` is the logarithm: the position of the top bit, and fourteen bits behind the
  point by repeated squaring;
* `Tick.candidates` are the floors of the logarithm to base `sqrt 1.0001`, less and plus the
  error it can have;
* `Tick.ofSqrtPrice` is the tick.
-/

namespace LiquidityBand.Tick

/-- One squaring: the square of a number between 1 and 2, with 127 fractional bits, halved if it
reaches 2, and whether it did. -/
def squaringStep (r : Nat) : Except Error (Nat × Nat) := do
  let square ← fit 256 .fault (r * r)
  let doubled := square.toNat / 2 ^ 127
  let bit ← shiftAmount 256 (doubled / 2 ^ 128)
  return (doubled / 2 ^ bit, bit)

/-- The next `places` bits of the logarithm behind the point, the first of weight `2 ^ weight`. -/
def fractionBitsOfLog : Nat → Nat → Nat → Except Error Nat
  | 0, _, _ => return 0
  | places + 1, weight, r => do
      let (next, bit) ← squaringStep r
      let rest ← fractionBitsOfLog places (weight - 1) next
      return bit * 2 ^ weight + rest

/-- The number of bits of the logarithm that are found behind the point. -/
def logPlaces : Nat := 14

/-- The binary logarithm of `ratio / 2 ^ 128`, times `2 ^ 64`. -/
def binaryLog (ratio : Nat) : Except Error Int := do
  let top := ratio.log2
  let r ←
    if 128 ≤ top then do
      let k ← shiftAmount 256 (top - 127)
      pure (ratio / 2 ^ k)
    else do
      let k ← difference 127 top
      pure (ratio * 2 ^ k % 2 ^ 256)
  let fraction ← fractionBitsOfLog logPlaces 63 r
  return ((top : Int) - 128) * 2 ^ 64 + fraction

/-- The logarithm of 2 to base `sqrt 1.0001`, times `2 ^ 64`. -/
def logScale : Int := 255738958999603826347141

/-- The most by which the scaled logarithm can be too high, with 128 fractional bits. -/
def lowMargin : Int := 3402992956809132418596140100660247210

/-- One, less the most by which the scaled logarithm can be too low, with 128 fractional bits. -/
def highMargin : Int := 48942902148948840556346986278370122961

/-- The least and the greatest tick that the square-root price can have. -/
def candidates (x : SqrtPrice) : Except Error (Tick × Tick) := do
  let log ← binaryLog (x.toNat * 2 ^ 32 % 2 ^ 256)
  let scaled := log * logScale
  let low := Int32.ofInt ((scaled - lowMargin) / 2 ^ 128)
  let high ← fitInt32 .fault ((Int32.ofInt ((scaled - highMargin) / 2 ^ 128)).toInt + 1)
  return (low, high)

/-- The greatest tick whose square-root price is not above the given one. -/
def ofSqrtPrice (x : SqrtPrice) : Except Error Tick :=
  if x < minSqrtPrice ∨ maxSqrtPrice ≤ x then .error .sqrtPriceOutOfBounds
  else do
    let (low, high) ← candidates x
    if low = high then return low
    let above ← high.sqrtPrice
    return if above ≤ x then high else low

end LiquidityBand.Tick
