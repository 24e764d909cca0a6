import LiquidityBand.Proofs.Guarded.Amount
import LiquidityBand.Proofs.Guarded.Liquidity
import LiquidityBand.Proofs.Plan.Default

/-!
# Plans with guards

Planning over a band of ticks, a band of prices, the range of the parameters and a margin, with the
guarded operations in the place of the exact ones. Planning adds no step of its own that could go
wrong, so it is safe if the operations are. Its reports change no result. The ticks of a band of
prices come from doubles; they are taken as they are found, with whatever logarithm.

* `validate` checks the parameters, with `validate_isSafe`;
* `AreSafe` says that the operations of planning are safe, and `AreSafe.ofTicks`,
  `AreSafe.ofPrices`, `AreSafe.default` and `AreSafe.ofMargin` that planning with them is;
* `guardedSteps` are the guarded operations, by which `planOfTicks`, `planOfPrices`, `planOfDefault`
  and `planOfMargin` plan, and `areSafe_guardedSteps` says that they are safe;
* `required` is the deposit that a plan needs, with `required_isSafe`.
-/

namespace LiquidityBand.Guarded

instance : Faulty PlanError where
  isFault
    | .core e => e = .fault
    | .amount e => e.reason = .fault
    | _ => False

theorem IsSafe.ofCore {α : Type} {x y : Except Error α} (h : IsSafe x y) :
    IsSafe (PlanError.ofCore x) (PlanError.ofCore y) :=
  h.mapError fun _ he => he

/-! ### Parameters -/

/-- The first problem that keeps a position from being planned, if there is one. -/
def validate (c : Config) : Except PlanError Unit :=
  c.validateBy PlanError.config fun t spacing => PlanError.ofCore (isAligned t spacing)

theorem validate_isSafe (c : Config) : IsSafe (validate c) (c.validate.mapError .config) := by
  have haligned : (fun t spacing => PlanError.ofCore (isAligned t spacing)) =
      fun t spacing => .ok (t.isAligned spacing) := by
    funext t spacing
    rw [(isAligned_isSafe t spacing).eq, PlanError.ofCore_ok]
  refine ⟨?_, fun e he hfault => ?_⟩
  · rw [validate, haligned]
    exact (Config.mapError_validateBy PlanError.config id Tick.isAligned c).symm
  · obtain ⟨problem, -, rfl⟩ := mapError_eq_error_iff.mp he
    exact hfault

/-! ### Planners -/

/-- Every operation of the first kind agrees with that of the second one, and no guard in it reports
a fault. -/
structure AreSafe (g s : Plan.Steps) : Prop where
  validate : ∀ config, IsSafe (g.validate config) (s.validate config)
  align : ∀ band spacing, IsSafe (g.align band spacing) (s.align band spacing)
  sqrtPrice : ∀ t, IsSafe (g.sqrtPrice t) (s.sqrtPrice t)
  ofDeposit : ∀ amount r, IsSafe (g.ofDeposit amount r) (s.ofDeposit amount r)
  rescale : ∀ amount source target,
    IsSafe (g.rescale amount source target) (s.rescale amount source target)

/-- A price without a tick leads to a refusal, never to a fault. -/
theorem toTickBy_isSafe (ln : Float → Float) (price : Float) :
    IsSafe (Price.toTickBy ln price) (Price.toTickBy ln price) := by
  rw [Price.toTickBy]
  refine .ite (fun _ => isSafe_refusal (by decide)) fun _ => ?_
  rw [Price.tickAtOrBelow]
  split
  · exact isSafe_refusal (by decide)
  · have hcause : Error.tickOutOfBounds ≠ .fault := by decide
    refine (isSafe_fitInt32 hcause).bind fun t _ => ?_
    split_ifs
    · exact isSafe_ok t
    · exact isSafe_refusal (by decide)

theorem ticksOfPricesBy_isSafe (ln : Float → Float) (lower upper : Float) :
    IsSafe (Plan.ticksOfPricesBy ln lower upper) (Plan.ticksOfPricesBy ln lower upper) := by
  rw [Plan.ticksOfPricesBy]
  split_ifs
  · exact isSafe_refusal (by decide)
  · exact (toTickBy_isSafe ln lower).bind fun _ _ =>
      (toTickBy_isSafe ln upper).bind fun _ _ => isSafe_ok _

section
variable {g s : Plan.Steps} (h : AreSafe g s)
include h

theorem AreSafe.ofBand (band : TickBand) (spacing : Tick) (amount : Amount) :
    IsSafe (g.ofBand band spacing amount) (s.ofBand band spacing amount) :=
  .ite (fun _ => isSafe_refusal (by decide)) fun _ => (h.align band spacing).bind fun ticks _ =>
    (h.sqrtPrice ticks.lower).bind fun lower _ => (h.sqrtPrice ticks.upper).bind fun upper _ =>
      (h.ofDeposit amount ⟨lower, upper⟩).bind fun _ _ => isSafe_ok _

theorem AreSafe.ofTicks (band : TickBand) (amount : Amount) (config : Config) :
    IsSafe (g.ofTicks band amount config).result (s.ofTicks band amount config).result := by
  rw [Plan.Steps.ofTicks_result, Plan.Steps.ofTicks_result]
  exact (h.validate config).bind fun _ _ => (h.ofBand band config.tickSpacing amount).ofCore

theorem AreSafe.ofPrices (ln : Float → Float) (lower upper : Float) (amount : Amount)
    (config : Config) : IsSafe (g.ofPrices ln lower upper amount config).result
      (s.ofPrices ln lower upper amount config).result := by
  rw [Plan.Steps.ofPrices_result, Plan.Steps.ofPrices_result]
  exact (ticksOfPricesBy_isSafe ln lower upper).ofCore.bind fun band _ =>
    h.ofTicks band amount config

theorem AreSafe.default (amount : Amount) (config : Config) :
    IsSafe (g.default amount config).result (s.default amount config).result :=
  h.ofTicks config.defaultRange amount config

theorem AreSafe.ofMargin (margin : Amount) (config : Config) :
    IsSafe (g.ofMargin margin config).result (s.ofMargin margin config).result := by
  have hrescale := (h.rescale margin config.marginDecimals config.depositDecimals).mapError
    (f := PlanError.amount) fun _ hfault => hfault
  rw [Plan.Steps.ofMargin_result, Plan.Steps.ofMargin_result]
  exact hrescale.bind fun amount _ => h.default amount config

end

/-! ### Planning with the guarded operations -/

/-- The guarded operations. -/
def guardedSteps : Plan.Steps where
  validate := validate
  align := alignBand
  sqrtPrice := sqrtPrice
  ofDeposit amount r := ofAmount1 r amount
  rescale := rescale

/-- The position over a band of ticks. -/
def planOfTicks (band : TickBand) (amount : Amount) (config : Config) : Except PlanError Plan :=
  (guardedSteps.ofTicks band amount config).result

/-- The position over a band of prices, the ticks of which are found with the given logarithm. -/
def planOfPrices (ln : Float → Float) (lower upper : Float) (amount : Amount) (config : Config) :
    Except PlanError Plan :=
  (guardedSteps.ofPrices ln lower upper amount config).result

/-- The position over the range of the parameters. -/
def planOfDefault (amount : Amount) (config : Config) : Except PlanError Plan :=
  (guardedSteps.default amount config).result

/-- The position over the range of the parameters for a margin. -/
def planOfMargin (margin : Amount) (config : Config) : Except PlanError Plan :=
  (guardedSteps.ofMargin margin config).result

theorem areSafe_guardedSteps : AreSafe guardedSteps Plan.exactSteps where
  validate := validate_isSafe
  align band spacing := alignBand_isSafe spacing band
  sqrtPrice := sqrtPrice_isSafe
  ofDeposit amount r := ofAmount1_isSafe r amount
  rescale := rescale_isSafe

/-- The deposit that the liquidity of a plan needs, rounded up. -/
def required (p : Plan) : Except PlanError Amount :=
  PlanError.ofCore (amount1 p.sqrtPrices p.liquidity true)

theorem required_isSafe (p : Plan) : IsSafe (required p) p.required :=
  (amount1_isSafe p.sqrtPrices p.liquidity true).ofCore

end LiquidityBand.Guarded
