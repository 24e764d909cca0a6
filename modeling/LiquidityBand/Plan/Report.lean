import LiquidityBand.Amount.Text
import LiquidityBand.Plan.Log
import LiquidityBand.Price

/-!
# Report on a plan

* `Plan.report` is a text about a plan for people to read, with prices rounded to six places and
  the deposit in whole tokens.
-/

namespace LiquidityBand.Plan

/-- The price at the lower end of a plan. -/
def priceLower (p : Plan) : Float := Price.ofSqrtPrice p.sqrtPrices.lower

/-- The price at the upper end of a plan. -/
def priceUpper (p : Plan) : Float := Price.ofSqrtPrice p.sqrtPrices.upper

/-- The number of places of a price in a report. -/
def pricePlaces : Nat := 6

/-- A square-root price with its price. -/
def withPrice (x : SqrtPrice) (price : Float) : String :=
  registerText x ++ " (price " ++ Double.fixedText pricePlaces price ++ ")"

/-- The lines of a report. -/
def reportLines (p : Plan) (depositDecimals : UInt8) : List String :=
  [ "Position plan",
    "  tick range:       " ++ p.ticks.text,
    "  sqrt price lower: " ++ withPrice p.sqrtPrices.lower p.priceLower,
    "  sqrt price upper: " ++ withPrice p.sqrtPrices.upper p.priceUpper,
    "  deposit:          " ++ Amount.format p.amount depositDecimals,
    "  liquidity:        " ++ registerText p.liquidity ]

/-- The report on a plan; the token of the deposit has so many decimals. -/
def report (p : Plan) (depositDecimals : UInt8) : String :=
  "\n".intercalate (p.reportLines depositDecimals)

end LiquidityBand.Plan
