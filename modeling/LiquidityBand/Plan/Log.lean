import LiquidityBand.Double.Text
import LiquidityBand.Plan.Basic

/-!
# The log of a planning

Planning reports what it does, also if it fails later.

* `Entry` is one report, with its level and its wording;
* `Logged` is a computation that may fail, with its reports in order.
-/

namespace LiquidityBand

/-- A report of planning. -/
inductive Entry where
  /-- A band of ticks was widened to the tick spacing. -/
  | widened (requested aligned : TickBand) (tickSpacing : Int32)
  /-- A position was planned. -/
  | planned (p : Plan)
  /-- A band of prices was turned into one of ticks. -/
  | prices (lower upper : Float) (ticks : TickBand)

/-- The weight of a report. -/
inductive Level where
  | debug
  | warning
  deriving DecidableEq, Repr

/-- The name under which all reports are filed. -/
def Entry.target : String := "log"

/-- The weight of a report. -/
def Entry.level : Entry → Level
  | widened .. => .warning
  | planned _ => .debug
  | prices .. => .debug

/-- Two texts in brackets. -/
def bracketed (a b : String) : String := "[" ++ a ++ ", " ++ b ++ "]"

/-- The text of a band of ticks. -/
def TickBand.text (r : TickBand) : String := bracketed (toString r.lower) (toString r.upper)

/-- The numeral of an unsigned number. -/
def registerText {w : Nat} (x : BitVec w) : String := String.ofList (Numeral.digits x.toNat)

/-- The wording of a report. -/
def Entry.message : Entry → String
  | widened requested aligned tickSpacing =>
      "Tick band " ++ requested.text ++ " widened to " ++ aligned.text ++ " for tick spacing "
        ++ toString tickSpacing
  | planned p =>
      "Planned position: ticks " ++ p.ticks.text ++ ", sqrt prices "
        ++ bracketed (registerText p.sqrtPrices.lower) (registerText p.sqrtPrices.upper)
        ++ ", amount " ++ registerText p.amount ++ ", liquidity " ++ registerText p.liquidity
  | prices lower upper ticks =>
      "Price band " ++ bracketed (Double.plainText lower) (Double.plainText upper)
        ++ " maps to ticks " ++ ticks.text

/-- A computation that may fail, and its reports. -/
structure Logged (α : Type) where
  entries : List Entry
  result : Except PlanError α

namespace Logged
variable {α β : Type}

/-- A result without a report. -/
def ofResult (r : Except PlanError α) : Logged α := ⟨[], r⟩

/-- A result of an exact operation, without a report. -/
def ofCore (r : Except Error α) : Logged α := ⟨[], PlanError.ofCore r⟩

/-- One report. -/
def report (e : Entry) : Logged Unit := ⟨[e], .ok ()⟩

/-- One computation after another; the second one only if the first does not fail. -/
def andThen (x : Logged α) (f : α → Logged β) : Logged β :=
  match x.result with
  | .ok a => ⟨x.entries ++ (f a).entries, (f a).result⟩
  | .error e => ⟨x.entries, .error e⟩

instance : Monad Logged where
  pure a := ⟨[], .ok a⟩
  bind := andThen

@[simp] theorem pure_eq (a : α) : (pure a : Logged α) = ⟨[], .ok a⟩ := rfl

@[simp] theorem bind_error (entries : List Entry) (e : PlanError) (f : α → Logged β) :
    (⟨entries, .error e⟩ : Logged α) >>= f = ⟨entries, .error e⟩ := rfl

end Logged

end LiquidityBand
