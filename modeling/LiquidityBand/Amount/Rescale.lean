import LiquidityBand.Amount.Basic
import LiquidityBand.Numeral

/-!
# Amounts at another precision

* `Amount.rescale` counts an amount in the least units of a token with another number of decimals.
  More decimals make it exact; with fewer it is rounded down.
-/

namespace LiquidityBand.Amount

/-- The amount, counted in the least units of another precision. -/
def rescaled (amount : Amount) (source target : UInt8) : Except AmountReason Amount :=
  if source ≤ target then do
    let scale ← unitsPerToken (target.toNat - source.toNat)
    fit 128 .tooLarge (amount.toNat * scale.toNat)
  else
    match unitsPerToken (source.toNat - target.toNat) with
    | .ok scale => fit 128 .fault (amount.toNat / scale.toNat)
    | .error _ => .ok 0

/-- The amount at the precision `target`; it was counted at the precision `source`. -/
def rescale (amount : Amount) (source target : UInt8) : Except AmountError Amount :=
  (rescaled amount source target).mapError
    (⟨String.ofList (Numeral.digits amount.toNat), ·⟩)

end LiquidityBand.Amount
