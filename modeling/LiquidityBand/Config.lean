import LiquidityBand.Amount.Basic
import LiquidityBand.Tick.Alignment

/-!
# Planning parameters

* `Config` holds the tick spacing, the decimals of the two tokens and the range that positions have
  by default; `Config.default` are the usual values;
* `Config.validate` says whether positions can be planned with them, and if not, why.
-/

namespace LiquidityBand

/-- The parameters for planning positions. -/
structure Config where
  tickSpacing : Int32
  depositDecimals : UInt8
  marginDecimals : UInt8
  defaultRange : TickBand
  deriving DecidableEq, Repr

/-- Why no position can be planned. -/
inductive ConfigProblem where
  | spacing (tickSpacing : Int32)
  | decimals (deposit margin : UInt8)
  | range (r : TickBand)
  | bounds (r : TickBand)
  | alignment (tickSpacing : Int32) (r : TickBand)
  deriving DecidableEq, Repr

/-- The wording of a problem. -/
def ConfigProblem.message : ConfigProblem → String
  | spacing tickSpacing => "tick spacing must be positive: " ++ toString tickSpacing
  | decimals deposit margin =>
      "decimals must not exceed " ++ toString Amount.maxDecimals ++ ": deposit=" ++ toString deposit
        ++ ", margin=" ++ toString margin
  | range r =>
      "invalid tick range: lower (" ++ toString r.lower ++ ") >= upper (" ++ toString r.upper ++ ")"
  | bounds r =>
      "ticks out of bounds: lower=" ++ toString r.lower ++ ", upper=" ++ toString r.upper
  | alignment tickSpacing r =>
      "ticks not aligned to spacing " ++ toString tickSpacing ++ ": lower=" ++ toString r.lower
        ++ ", upper=" ++ toString r.upper

namespace Config

/-- The usual parameters: prices from about 0.01 to about 100. -/
def default : Config where
  tickSpacing := 30
  depositDecimals := 18
  marginDecimals := 6
  defaultRange := ⟨-46080, 46050⟩

/-- The checks of the parameters, in their order, with the test for aligned ticks and the kind of
failure as parameters. -/
def validateBy {ε : Type} (failure : ConfigProblem → ε) (isAligned : Tick → Tick → Except ε Bool)
    (c : Config) : Except ε Unit :=
  let r := c.defaultRange
  if c.tickSpacing ≤ 0 then throw (failure (.spacing c.tickSpacing))
  else if Amount.maxDecimals < c.depositDecimals ∨ Amount.maxDecimals < c.marginDecimals then
    throw (failure (.decimals c.depositDecimals c.marginDecimals))
  else if r.upper ≤ r.lower then throw (failure (.range r))
  else if !r.lower.inBounds ∨ !r.upper.inBounds then throw (failure (.bounds r))
  else do
    let lower ← isAligned r.lower c.tickSpacing
    let upper ← isAligned r.upper c.tickSpacing
    if !lower ∨ !upper then throw (failure (.alignment c.tickSpacing r)) else return ()

/-- The first problem that keeps a position from being planned, if there is one. -/
def validate (c : Config) : Except ConfigProblem Unit :=
  c.validateBy id fun t spacing => return t.isAligned spacing

/-- The usual parameters pass. -/
theorem validate_default : validate default = .ok () := rfl

end Config

end LiquidityBand
