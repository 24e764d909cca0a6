import LiquidityBand.Json.Variant
import LiquidityBand.Plan.Basic
import LiquidityBand.Status

/-!
# JSON texts of the domain's values

* `Json.Codec` ties a type to the record that it is written as, and reads and writes its values;
* `Json.tickBand`, `Json.amountPair`, `Json.config` and `Json.plan` are the records, and
  `Json.kinds`, `Json.roundings` and `Json.statuses` the enumerations.
-/

namespace LiquidityBand.Json

/-- The record that the values of a type are written as. -/
structure Codec (α : Type) where
  shape : Shape
  toValues : α → List Int
  ofValues : List Int → Option α

/-- The value that a text stands for. -/
def Codec.decode {α : Type} (codec : Codec α) (text : String) : Except Problem α := do
  match codec.ofValues (← codec.shape.decode text) with
  | some a => return a
  | none => throw .malformed

/-- The text of a value. -/
def Codec.encode {α : Type} (codec : Codec α) (a : α) : String :=
  codec.shape.encode (codec.toValues a)

/-- The numbers of a tick. -/
def tickForm : IntegerForm := .number (-2 ^ 31) (2 ^ 31 - 1) "i32"

/-- The numbers of decimals. -/
def decimalsForm : IntegerForm := .number 0 255 "u8"

/-- A range of ticks. -/
def tickBand : Codec TickBand where
  shape := ⟨"TickRange",
    [⟨"tick_lower_index", tickForm, none⟩, ⟨"tick_upper_index", tickForm, none⟩]⟩
  toValues r := [r.lower.toInt, r.upper.toInt]
  ofValues
    | [a, b] => some ⟨Int32.ofInt a, Int32.ofInt b⟩
    | _ => none

/-- The amounts of both tokens. -/
def amountPair : Codec AmountPair where
  shape := ⟨"TokenAmounts",
    [⟨"amount_0", .natural 128, none⟩, ⟨"amount_1", .natural 128, none⟩]⟩
  toValues a := [a.amount0.toNat, a.amount1.toNat]
  ofValues
    | [a, b] => some ⟨BitVec.ofInt 128 a, BitVec.ofInt 128 b⟩
    | _ => none

/-- The integers of planning parameters. -/
def configValues (c : Config) : List Int :=
  [c.tickSpacing.toInt, c.depositDecimals.toNat, c.marginDecimals.toNat,
    c.defaultRange.lower.toInt, c.defaultRange.upper.toInt]

/-- The planning parameters of integers. -/
def configOfValues : List Int → Option Config
  | [a, b, c, d, e] =>
    some ⟨Int32.ofInt a, UInt8.ofInt b, UInt8.ofInt c, ⟨Int32.ofInt d, Int32.ofInt e⟩⟩
  | _ => none

/-- The names and forms of the planning parameters. -/
def configFields : List (String × IntegerForm) :=
  [("tick_spacing", tickForm), ("deposit_decimals", decimalsForm),
    ("margin_decimals", decimalsForm), ("default_tick_lower_index", tickForm),
    ("default_tick_upper_index", tickForm)]

/-- Planning parameters; a missing one has its usual value. -/
def config : Codec Config where
  shape := ⟨"PositionConfig",
    List.zipWith (fun (name, form) z => ⟨name, form, some z⟩) configFields
      (configValues Config.default)⟩
  toValues := configValues
  ofValues := configOfValues

/-- A plan, with its wide numbers between quotes. -/
def plan : Codec Plan where
  shape := ⟨"PositionPlan",
    [⟨"tick_lower_index", tickForm, none⟩, ⟨"tick_upper_index", tickForm, none⟩,
      ⟨"sqrt_price_lower_x96", .quotedNatural 256, none⟩,
      ⟨"sqrt_price_upper_x96", .quotedNatural 256, none⟩,
      ⟨"amount", .quotedNatural 128, none⟩, ⟨"liquidity", .quotedNatural 128, none⟩]⟩
  toValues p :=
    [p.ticks.lower.toInt, p.ticks.upper.toInt, p.sqrtPrices.lower.toNat,
      p.sqrtPrices.upper.toNat, p.amount.toNat, p.liquidity.toNat]
  ofValues
    | [a, b, c, d, e, f] =>
      some ⟨⟨Int32.ofInt a, Int32.ofInt b⟩, ⟨BitVec.ofInt 256 c, BitVec.ofInt 256 d⟩,
        BitVec.ofInt 128 e, BitVec.ofInt 128 f⟩
    | _ => none

/-- The classes of failure. -/
def kinds : Variants Kind :=
  [("Domain", .domain), ("InvalidRange", .invalidRange), ("Overflow", .overflow)]

/-- The directions of an alignment. -/
def roundings : Variants Rounding := [("Down", .down), ("Up", .up)]

/-- The statuses of a position. -/
def statuses : Variants Status :=
  [("PriceInRange", .inRange), ("PriceBelowRange", .below), ("PriceAboveRange", .above),
    ("Invalid", .invalid)]

end LiquidityBand.Json

namespace LiquidityBand.Plan

/-- The JSON text of a plan. -/
def toJson (p : Plan) : String := Json.plan.encode p

/-- The plan that a JSON text stands for. -/
def ofJson (text : String) : Except PlanError Plan :=
  (Json.plan.decode text).mapError PlanError.json

end LiquidityBand.Plan
