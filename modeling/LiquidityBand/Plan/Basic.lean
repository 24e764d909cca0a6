import LiquidityBand.Config
import LiquidityBand.Json.Problem
import LiquidityBand.Liquidity.TwoSided

/-!
# Plans

* `Plan` is a position of one token, ready to be submitted: its ticks with their square-root
  prices, the deposit and the liquidity that it gives;
* `Plan.required` is the deposit that the liquidity needs;
* `PlanError` says why there is no plan.
-/

namespace LiquidityBand

/-- A position of one token. -/
structure Plan where
  ticks : TickBand
  sqrtPrices : SqrtRange
  amount : Amount
  liquidity : Liquidity
  deriving DecidableEq, Repr

/-- Why there is no plan. -/
inductive PlanError where
  /-- An exact operation has no result. -/
  | core (cause : Error)
  | amount (refusal : AmountError)
  | config (problem : ConfigProblem)
  /-- The text of the parameters cannot be read. -/
  | configText
  /-- The text of a plan cannot be read. -/
  | json (problem : Json.Problem)

namespace PlanError

/-- The class of a failure of an exact operation; other failures have none. -/
def kind : PlanError → Option Kind
  | core cause => cause.kind
  | _ => none

/-- The wording of a failure; a text that follows no grammar has none. -/
def message? : PlanError → Option String
  | core cause => some cause.message
  | amount refusal => some refusal.message
  | config problem => some ("Invalid config: " ++ problem.message)
  | configText => none
  | json problem => problem.message?

/-- A result of an exact operation as one of planning. -/
def ofCore {α : Type} (r : Except Error α) : Except PlanError α := r.mapError core

end PlanError

/-- The deposit that the liquidity of a plan needs, rounded up. -/
def Plan.required (p : Plan) : Except PlanError Amount :=
  PlanError.ofCore (p.liquidity.required p.sqrtPrices)

end LiquidityBand
