import LiquidityBand.Liquidity.TwoSided
import LiquidityBand.Proofs.Guarded.ProductQuotient
import LiquidityBand.Proofs.Guarded.Tick
import LiquidityBand.Proofs.Liquidity.OneSided

/-!
# Liquidity with guards

The formulas on liquidity and amounts, each step with its guard. A range that has a width ascends
from a positive price, so its difference is no underflow and neither its width nor its lower price
is zero where they are divided by; an amount moved up by 96 bits fits 256; and a quotient that
leaves a remainder has a divisor of two or more, so there is room to round it up.

* `ofAmount0`, `ofAmount1`, `amount0` and `amount1` are the formulas of one token, `ofAmounts` and
  `amounts` those of both; each has its `_isSafe`.
-/

namespace LiquidityBand.Guarded

/-! ### Products of prices -/

section
variable {a b d : UInt256} {roundUp : Bool}

theorem productQuotient_isSafe :
    IsSafe (productQuotient a b d roundUp) (LiquidityBand.productQuotient a b d roundUp) := by
  rw [productQuotient_eq]
  by_cases hd : d = 0
  · rw [hd, productQuotient_zero]
    exact isSafe_refusal (by decide)
  · rw [LiquidityBand.productQuotient_eq hd]
    exact isSafe_fit (by decide)

theorem fixedProduct_isSafe :
    IsSafe (fixedProduct a b roundUp) (LiquidityBand.fixedProduct a b roundUp) := by
  rw [fixedProduct_eq, LiquidityBand.fixedProduct_eq]
  exact isSafe_fit (by decide)

end

/-! ### One token -/

/-- A 128-bit number moved to the integer part of a fixed-point one. -/
def scaled (x : UInt128) : Except Error UInt256 := do
  return BitVec.ofNat 256 (← shiftUp 256 x.toNat fractionBits)

/-- The liquidity of an amount of token 0. -/
def ofAmount0 (r : SqrtRange) (amount : Amount) : Except Error Liquidity :=
  Liquidity.ofAmount0By fixedProduct productQuotient r amount

/-- The liquidity of an amount of token 1. -/
def ofAmount1 (r : SqrtRange) (amount : Amount) : Except Error Liquidity := do
  let width ← r.width
  let numerator ← scaled amount
  let liquidity ← quotient numerator.toNat width.toNat
  fit 128 .liquidityTooWide liquidity

/-- The amount of token 0 that a liquidity is worth below its range. -/
def amount0 (r : SqrtRange) (liquidity : Liquidity) (roundUp : Bool) : Except Error Amount := do
  let width ← r.width
  let numerator ← scaled liquidity
  let value ← productQuotient numerator width r.upper roundUp
  let whole ← quotient value.toNat r.lower.toNat
  let rest ← remainder value.toNat r.lower.toNat
  let amount ← store 256 (if roundUp && rest != 0 then whole + 1 else whole)
  fit 128 .amountTooWide amount

/-- The amount of token 1 that a liquidity is worth above its range. -/
def amount1 (r : SqrtRange) (liquidity : Liquidity) (roundUp : Bool) : Except Error Amount :=
  Liquidity.amount1By fixedProduct r liquidity roundUp

theorem scaled_eq (x : UInt128) : scaled x = .ok (Liquidity.scaled x) := by
  have hx := x.isLt
  rw [scaled, shiftUp_eq (by decide) (by rw [fractionBits]; omega)]
  rfl

/-- The difference is taken only of prices that ascend. -/
theorem width_isSafe (r : SqrtRange) : IsSafe r.width r.width := by
  rw [SqrtRange.width]
  refine .ite (fun _ => isSafe_refusal (by decide)) fun hlt =>
    .ite (fun _ => isSafe_refusal (by decide)) fun _ =>
      .ite (fun _ => isSafe_refusal (by decide)) fun _ => ?_
  have hle : r.lower.toNat ≤ r.upper.toNat := (BitVec.lt_def.mp (BitVec.not_le.mp hlt)).le
  have hfit : r.upper.toNat - r.lower.toNat < 2 ^ 256 := (Nat.sub_le _ _).trans_lt r.upper.isLt
  rw [difference_eq_ok hle, ok_bind, fit_eq_ok hfit]
  exact isSafe_ok _

/-- An amount that fits 256 bits is narrowed to 128, or refused. -/
theorem stored_isSafe {n : ℕ} (h : n < 2 ^ 256) :
    IsSafe (store 256 n >>= fit 128 .amountTooWide)
      (fit 256 .fault n >>= fun x => fit 128 .amountTooWide x.toNat) := by
  rw [store_eq h, fit_eq_ok h, ok_bind, ok_bind, toNat_ofNat_of_lt h]
  exact isSafe_fit (by decide)

theorem div_add_one_lt {n d m : ℕ} (hn : n < m) (hrest : n % d ≠ 0) : n / d + 1 < m := by
  have hpos : 0 < n := Nat.pos_of_ne_zero fun h => hrest (by rw [h, Nat.zero_mod])
  match d with
  | 0 => omega
  | 1 => exact absurd (Nat.mod_one n) hrest
  | d + 2 =>
    have hhalf : n / (d + 2) ≤ n / 2 := Nat.div_le_div_left (by omega) (by decide)
    omega

section
variable (r : SqrtRange)

theorem ofAmount0_isSafe (amount : Amount) :
    IsSafe (ofAmount0 r amount) (Liquidity.ofAmount0 r amount) :=
  (width_isSafe r).bind fun _ _ => fixedProduct_isSafe.bind fun _ _ =>
    productQuotient_isSafe.bind fun _ _ => isSafe_fit (by decide)

theorem ofAmount1_isSafe (amount : Amount) :
    IsSafe (ofAmount1 r amount) (Liquidity.ofAmount1 r amount) := by
  refine (width_isSafe r).bind fun width hwidth => ?_
  have h := SqrtRange.isStored_of_width hwidth
  rw [scaled_eq, ok_bind, eq_of_eq_ok hwidth (SqrtRange.width_eq_ok h), SqrtRange.toNat_width h,
    quotient_eq_ok h.span_pos.ne', ok_bind]
  exact isSafe_fit (by decide)

theorem amount0_isSafe (liquidity : Liquidity) (roundUp : Bool) :
    IsSafe (amount0 r liquidity roundUp) (Liquidity.amount0 r liquidity roundUp) := by
  refine (width_isSafe r).bind fun width hwidth => ?_
  have h := SqrtRange.isStored_of_width hwidth
  rw [scaled_eq, ok_bind]
  refine productQuotient_isSafe.bind fun value _ => ?_
  rw [quotient_eq_ok h.pos.ne', ok_bind, ok_bind, remainder_eq h.pos.ne', ok_bind]
  dsimp only
  split_ifs with hup
  · rw [Bool.and_eq_true, bne_iff_ne] at hup
    exact stored_isSafe (div_add_one_lt value.isLt hup.2)
  · exact stored_isSafe ((Nat.div_le_self value.toNat r.lower.toNat).trans_lt value.isLt)

theorem amount1_isSafe (liquidity : Liquidity) (roundUp : Bool) :
    IsSafe (amount1 r liquidity roundUp) (Liquidity.amount1 r liquidity roundUp) :=
  (width_isSafe r).bind fun _ _ => fixedProduct_isSafe.bind fun _ _ => isSafe_fit (by decide)

end

/-! ### Both tokens -/

/-- The liquidity that the amounts give at the current square-root price. -/
def ofAmounts (current : SqrtPrice) (r : SqrtRange) (amounts : AmountPair) :
    Except Error Liquidity :=
  Liquidity.ofAmountsBy ofAmount0 ofAmount1 current r amounts

/-- The amounts that the liquidity is worth at the current square-root price. -/
def amounts (current : SqrtPrice) (r : SqrtRange) (liquidity : Liquidity) (roundUp : Bool) :
    Except Error AmountPair :=
  Liquidity.amountsBy amount0 amount1 current r liquidity roundUp

section
variable (current : SqrtPrice) (r : SqrtRange)

theorem ofAmounts_isSafe (amounts : AmountPair) :
    IsSafe (ofAmounts current r amounts) (Liquidity.ofAmounts current r amounts) := by
  refine (width_isSafe r).bind fun _ _ => .ite (fun _ => ofAmount0_isSafe r _) fun _ =>
    .ite (fun _ => ?_) fun _ => ofAmount1_isSafe r _
  exact (ofAmount0_isSafe _ _).bind fun _ _ => (ofAmount1_isSafe _ _).bind fun _ _ => isSafe_ok _

theorem amounts_isSafe (liquidity : Liquidity) (roundUp : Bool) :
    IsSafe (amounts current r liquidity roundUp)
      (Liquidity.amounts current r liquidity roundUp) := by
  refine (width_isSafe r).bind fun _ _ => .ite (fun _ => ?_) fun _ => .ite (fun _ => ?_) fun _ => ?_
  · exact (amount0_isSafe r liquidity roundUp).bind fun _ _ => isSafe_ok _
  · exact (amount0_isSafe _ _ _).bind fun _ _ => (amount1_isSafe _ _ _).bind fun _ _ => isSafe_ok _
  · exact (amount1_isSafe r liquidity roundUp).bind fun _ _ => isSafe_ok _

end

end LiquidityBand.Guarded
