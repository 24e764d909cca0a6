import LiquidityBand.Amount.Rescale
import LiquidityBand.Plan.Log
import LiquidityBand.Price
import LiquidityBand.Tick.SqrtPrice

/-!
# Planning a position

The ticks of a plan are the requested ones, aligned outward to the tick spacing, so that a planned
band always contains the requested one. Its square-root prices are the exact ones of its ticks, and
its liquidity is what the deposit gives, rounded down.

Planning only says which operations are called, in which order and with which reports. The
operations themselves, and the logarithm that finds the ticks of prices, are parameters.

* `Plan.Steps` are the operations, and `Plan.Steps.ofTicks`, `Plan.Steps.ofPrices`,
  `Plan.Steps.default` and `Plan.Steps.ofMargin` the planners that call them;
* `Plan.exactSteps` are the exact operations;
* `Plan.ofTicks` plans with them over a band of ticks, `Plan.ofPricesBy` over a band of prices with
  any logarithm, and `Plan.ofPrices` with that of `Double.ln`;
* `Plan.default` plans over the range of the parameters;
* `Plan.ofMargin` does so for a margin, counted at the precision of the margin token.
-/

namespace LiquidityBand.Plan

/-- The ticks at or below the ends of a band of prices, found with the given logarithm. -/
def ticksOfPricesBy (ln : Float → Float) (lower upper : Float) : Except Error TickBand := do
  if lower.isNaN || upper.isNaN || upper ≤ lower then throw .unusablePrice
  let a ← Price.toTickBy ln lower
  let b ← Price.toTickBy ln upper
  return ⟨a, b⟩

/-! ### Planners -/

/-- The operations that planning calls. -/
structure Steps where
  validate : Config → Except PlanError Unit
  align : TickBand → Tick → Except Error TickBand
  sqrtPrice : Tick → Except Error SqrtPrice
  ofDeposit : Amount → SqrtRange → Except Error Liquidity
  rescale : Amount → UInt8 → UInt8 → Except AmountError Amount

namespace Steps
variable (s : Steps)

/-- The position with the given ticks, which are aligned, and the given deposit. -/
def ofAligned (ticks : TickBand) (amount : Amount) : Except Error Plan := do
  let lower ← s.sqrtPrice ticks.lower
  let upper ← s.sqrtPrice ticks.upper
  let liquidity ← s.ofDeposit amount ⟨lower, upper⟩
  return ⟨ticks, ⟨lower, upper⟩, amount, liquidity⟩

/-- The position over a band of ticks. -/
def ofTicks (band : TickBand) (amount : Amount) (config : Config) : Logged Plan := do
  Logged.ofResult (s.validate config)
  if band.upper < band.lower then
    Logged.ofCore (.error .emptyTickBand)
  else
    let ticks ← Logged.ofCore (s.align band config.tickSpacing)
    if ticks ≠ band then
      Logged.report (.widened band ticks config.tickSpacing)
    let plan ← Logged.ofCore (s.ofAligned ticks amount)
    Logged.report (.planned plan)
    return plan

/-- The position over a band of prices, the ticks of which are found with the given logarithm. -/
def ofPrices (ln : Float → Float) (lower upper : Float) (amount : Amount) (config : Config) :
    Logged Plan := do
  let band ← Logged.ofCore (ticksOfPricesBy ln lower upper)
  Logged.report (.prices lower upper band)
  s.ofTicks band amount config

/-- The position over the range of the parameters. -/
def default (amount : Amount) (config : Config) : Logged Plan :=
  s.ofTicks config.defaultRange amount config

/-- The position over the range of the parameters for a margin. -/
def ofMargin (margin : Amount) (config : Config) : Logged Plan := do
  let amount ← Logged.ofResult
    ((s.rescale margin config.marginDecimals config.depositDecimals).mapError PlanError.amount)
  s.default amount config

end Steps

/-! ### Planning with the exact operations -/

/-- The exact operations. -/
def exactSteps : Steps where
  validate config := config.validate.mapError PlanError.config
  align := TickBand.align
  sqrtPrice := Tick.sqrtPrice
  ofDeposit := Liquidity.ofDeposit
  rescale := Amount.rescale

@[simp] theorem exactSteps_validate (config : Config) :
    exactSteps.validate config = config.validate.mapError PlanError.config := rfl

@[simp] theorem exactSteps_align : exactSteps.align = TickBand.align := rfl

@[simp] theorem exactSteps_sqrtPrice : exactSteps.sqrtPrice = Tick.sqrtPrice := rfl

@[simp] theorem exactSteps_ofDeposit : exactSteps.ofDeposit = Liquidity.ofDeposit := rfl

@[simp] theorem exactSteps_rescale : exactSteps.rescale = Amount.rescale := rfl

/-- The position with the given ticks, which are aligned, and the given deposit. -/
def ofAligned (ticks : TickBand) (amount : Amount) : Except Error Plan :=
  exactSteps.ofAligned ticks amount

@[simp] theorem exactSteps_ofAligned : exactSteps.ofAligned = ofAligned := rfl

/-- The position over a band of ticks. -/
def ofTicks (band : TickBand) (amount : Amount) (config : Config) : Logged Plan :=
  exactSteps.ofTicks band amount config

/-- The position over a band of prices, the ticks of which are found with the given logarithm. -/
def ofPricesBy (ln : Float → Float) (lower upper : Float) (amount : Amount) (config : Config) :
    Logged Plan :=
  exactSteps.ofPrices ln lower upper amount config

/-- The position over a band of prices. -/
def ofPrices (lower upper : Float) (amount : Amount) (config : Config) : Logged Plan :=
  ofPricesBy Double.ln lower upper amount config

/-- The position over the range of the parameters. -/
def default (amount : Amount) (config : Config) : Logged Plan := exactSteps.default amount config

/-- The position over the range of the parameters for a margin. -/
def ofMargin (margin : Amount) (config : Config) : Logged Plan := exactSteps.ofMargin margin config

end LiquidityBand.Plan
