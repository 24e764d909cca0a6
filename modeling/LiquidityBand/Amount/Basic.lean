import LiquidityBand.Register

/-!
# Token amounts

Amounts count the least units of a token. A token has a number of decimals, which says how many
least units make up one token.

* `Amount` and `AmountPair` are an amount of one token and of both;
* `AmountError` says which text or amount was refused, and why;
* `unitsPerToken` is the number of least units in one token.
-/

namespace LiquidityBand

/-- An amount of a token, in its least units. -/
abbrev Amount := UInt128

/-- An amount of either token. -/
structure AmountPair where
  amount0 : Amount
  amount1 : Amount
  deriving DecidableEq, Repr

/-- Why an amount is refused. -/
inductive AmountReason where
  | tooManyDecimals
  | missingInteger
  | missingFraction
  | tooManyPlaces
  | notDecimal
  | tooLarge
  /-- An unchecked step left its register. -/
  | fault
  deriving DecidableEq, Repr

namespace AmountReason

/-- The wording of a reason. -/
def message : AmountReason → String
  | tooManyDecimals => "too many decimals"
  | missingInteger => "missing integer part"
  | missingFraction => "missing fractional part"
  | tooManyPlaces => "more fractional digits than token decimals"
  | notDecimal => "not a decimal number"
  | tooLarge => "amount exceeds max u128"
  | fault => "step out of register"

end AmountReason

/-- An amount that is refused, as it was written, and the reason. -/
structure AmountError where
  input : String
  reason : AmountReason
  deriving DecidableEq, Repr

/-- The wording of a refusal. -/
def AmountError.message (e : AmountError) : String :=
  "Invalid amount '" ++ e.input ++ "': " ++ e.reason.message

namespace Amount

/-- The greatest number of decimals that a token can have: `10 ^ 38` still fits 128 bits. -/
def maxDecimals : UInt8 := 38

/-- A power of ten as an amount: the least units in one token of `n` decimals. -/
def unitsPerToken (n : Nat) : Except AmountReason Amount :=
  fit 128 .tooManyDecimals (10 ^ n)

end Amount

end LiquidityBand
