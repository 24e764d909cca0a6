import LiquidityBand.Tick.SqrtPrice

/-!
# Status of a position

Where the current price stands to the range of a position decides which tokens the position holds.

* `Status.ofTicks` is the status of the position between two ticks, in either order.
-/

namespace LiquidityBand

/-- Where the current price stands to the range of a position. -/
inductive Status where
  /-- The position holds both tokens. -/
  | inRange
  /-- The price is below the range, or at its foot: the position holds token 0 only. -/
  | below
  /-- The price is above the range: the position holds token 1 only. -/
  | above
  /-- The ticks bound no position. -/
  | invalid
  deriving DecidableEq, Repr

namespace Status

/-- The status of a position between two square-root prices. -/
def ofSqrtPrices (current lower upper : SqrtPrice) : Status :=
  if current ≤ lower then .below else if upper ≤ current then .above else .inRange

/-- The status of a position between two ticks. -/
def ofTicks (current : SqrtPrice) (a b : Tick) : Status :=
  if a = b then .invalid
  else
    let r := TickBand.ordered a b
    match r.lower.sqrtPrice, r.upper.sqrtPrice with
    | .ok lower, .ok upper => ofSqrtPrices current lower upper
    | _, _ => .invalid

/-- The price is inside the range of the position. -/
def isInRange (current : SqrtPrice) (a b : Tick) : Bool := ofTicks current a b == .inRange

/-- The order of the two ticks does not matter. -/
theorem ofTicks_comm (current : SqrtPrice) (a b : Tick) :
    ofTicks current a b = ofTicks current b a := by
  simp only [ofTicks, eq_comm (a := a), TickBand.ordered_comm a b]

end Status

end LiquidityBand
