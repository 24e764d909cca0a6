/-!
# Causes of failure

Every exact operation of the library that can refuse its input does so with a value of `Error`.

* `Error` lists the causes, and beside them `fault`, the mark of a step whose exact result does not
  fit the register that holds it.
* `Error.kind` sorts the causes into the three classes of `Kind`; a fault belongs to none of them.
* `Error.message` is the one wording of each cause, and `Error.ofMessage?` reads it back.
-/

namespace LiquidityBand

/-- The class of a failure. -/
inductive Kind where
  /-- An input lies outside the domain of the operation. -/
  | domain
  /-- A tick spacing or an aligned band of ticks cannot be used. -/
  | invalidRange
  /-- A value does not fit the width meant for it. -/
  | overflow
  deriving DecidableEq, Repr

/-- The causes for which an exact operation gives no result. -/
inductive Error where
  | unusablePrice
  | zeroSqrtPrice
  | emptySqrtPriceRange
  | sqrtPriceOutOfBounds
  | tickOutOfBounds
  | divisionByZero
  | nonpositiveSpacing
  | emptyTickBand
  | arithmeticOverflow
  | sqrtPriceTooWide
  | liquidityTooWide
  | amountTooWide
  /-- An unchecked step left its register. -/
  | fault
  deriving DecidableEq, Repr

namespace Error

/-- The causes that an operation may report. -/
def causes : List Error :=
  [unusablePrice, zeroSqrtPrice, emptySqrtPriceRange, sqrtPriceOutOfBounds, tickOutOfBounds,
    divisionByZero, nonpositiveSpacing, emptyTickBand, arithmeticOverflow, sqrtPriceTooWide,
    liquidityTooWide, amountTooWide]

/-- The wording of a cause. -/
def message : Error → String
  | unusablePrice => "Price must be finite and positive"
  | zeroSqrtPrice => "Sqrt price must be positive"
  | emptySqrtPriceRange => "Upper sqrt price must be greater than lower sqrt price"
  | sqrtPriceOutOfBounds => "Sqrt price out of bounds"
  | tickOutOfBounds => "Tick index out of bounds"
  | divisionByZero => "Division by zero"
  | nonpositiveSpacing => "Tick spacing must be positive"
  | emptyTickBand => "Aligned lower tick must be less than aligned upper tick"
  | arithmeticOverflow => "Arithmetic over- or underflow"
  | sqrtPriceTooWide => "Sqrt price exceeds max u160"
  | liquidityTooWide => "Liquidity exceeds max u128"
  | amountTooWide => "Amount exceeds max u128"
  | fault => "Step out of register"

/-- The class of a cause; a fault has none. -/
def kind : Error → Option Kind
  | unusablePrice | zeroSqrtPrice | emptySqrtPriceRange | sqrtPriceOutOfBounds
  | tickOutOfBounds | divisionByZero => some .domain
  | nonpositiveSpacing | emptyTickBand => some .invalidRange
  | arithmeticOverflow | sqrtPriceTooWide | liquidityTooWide | amountTooWide => some .overflow
  | fault => none

/-- The cause that a wording stands for. -/
def ofMessage? (text : String) : Option Error :=
  causes.find? fun e => e.message == text

/-- A cause that may be reported is one that has a class. -/
theorem mem_causes_iff (e : Error) : e ∈ causes ↔ e.kind.isSome := by
  cases e <;> decide

/-- Reading the wording of a cause gives the cause. -/
theorem ofMessage?_message {e : Error} (h : e ∈ causes) : ofMessage? e.message = some e := by
  cases e <;> first | decide +kernel | exact absurd h (by decide)

end Error

end LiquidityBand
