import LiquidityBand.ProductQuotient
import LiquidityBand.Proofs.Wide.Shift
import Mathlib.Algebra.Order.Floor.Div
import Mathlib.Algebra.Order.Floor.Semifield
import Mathlib.Data.Rat.Floor
import Mathlib.Tactic.Positivity

/-!
# Products divided exactly

Both operations on square-root prices are one rounded quotient of natural numbers, stored in 256
bits: the product in between is never cut, so with a divisor other than zero the only way to fail
is that the rounded quotient does not fit.

* `roundedDiv up n d` is the quotient `n / d`, rounded up or down, and `wholeQuotient` the rounding
  of the rational quotient, which it is by `roundedDiv_eq_wholeQuotient`;
* `productQuotient_eq` and `fixedProduct_eq` say that the two operations store it;
* `productQuotient_exact` lists the outcomes of the first operation, for all inputs, and
  `fixedProduct_eq_productQuotient` those of the second, which are the same.
-/

namespace LiquidityBand

/-- The quotient `n / d`, rounded up or down. -/
def roundedDiv (up : Bool) (n d : ℕ) : ℕ := if up then n ⌈/⌉ d else n / d

section
variable {n d k : ℕ}

@[simp] theorem roundedDiv_true (n d : ℕ) : roundedDiv true n d = n ⌈/⌉ d := rfl

@[simp] theorem roundedDiv_false (n d : ℕ) : roundedDiv false n d = n / d := rfl

/-- Rounding up adds one exactly if the division leaves a remainder. -/
theorem roundedDiv_eq (hd : 0 < d) (up : Bool) :
    roundedDiv up n d = n / d + (up && decide (n % d ≠ 0)).toNat := by
  cases up with
  | false => simp
  | true =>
    rw [roundedDiv_true, Nat.ceilDiv_eq_add_pred_div, Bool.true_and]
    have hn := Nat.div_add_mod n d
    by_cases hr : n % d = 0
    · have hsum : n + d - 1 = d * (n / d) + (d - 1) := by omega
      rw [decide_eq_false (not_not.mpr hr), hsum, Nat.mul_add_div hd,
        Nat.div_eq_of_lt (show d - 1 < d by omega), Bool.toNat_false]
    · have hlt := Nat.mod_lt n hd
      have hsum : n + d - 1 = d * (n / d + 1) + (n % d - 1) := by
        rw [Nat.mul_add, Nat.mul_one]
        omega
      rw [decide_eq_true hr, hsum, Nat.mul_add_div hd,
        Nat.div_eq_of_lt (show n % d - 1 < d by omega), Bool.toNat_true]

/-- The rounded-up quotient is at most `k` if the exact one is. -/
theorem roundedDiv_true_le_iff (hd : 0 < d) : roundedDiv true n d ≤ k ↔ n ≤ k * d := by
  rw [roundedDiv_true, ceilDiv_le_iff_le_mul hd, Nat.mul_comm]

/-- Rounding up adds less than one to the quotient. -/
theorem roundedDiv_true_mul_lt (hd : 0 < d) : roundedDiv true n d * d < n + d := by
  rw [roundedDiv_true, Nat.ceilDiv_eq_add_pred_div]
  have hle := Nat.div_mul_le_self (n + d - 1) d
  omega

/-- What is not zero is not rounded up to zero. -/
theorem roundedDiv_true_pos (hd : 0 < d) (hn : 0 < n) : 0 < roundedDiv true n d := by
  by_contra hzero
  rw [Nat.not_lt, roundedDiv_true_le_iff hd, Nat.zero_mul] at hzero
  exact absurd hn (Nat.not_lt.mpr hzero)

theorem div_le_roundedDiv (hd : 0 < d) (up : Bool) : n / d ≤ roundedDiv up n d := by
  rw [roundedDiv_eq hd]
  exact Nat.le_add_right _ _

theorem roundedDiv_le_succ (hd : 0 < d) (up : Bool) : roundedDiv up n d ≤ n / d + 1 := by
  rw [roundedDiv_eq hd]
  exact Nat.add_le_add_left (Bool.toNat_le _) _

@[simp] theorem roundedDiv_zero (up : Bool) (d : ℕ) : roundedDiv up 0 d = 0 := by
  cases up <;> simp

/-- Rounding keeps the order of two quotients, which is the order of the cross products. -/
theorem roundedDiv_le_roundedDiv {n' d' : ℕ} (hd : 0 < d) (hd' : 0 < d') (h : n * d' ≤ n' * d)
    (up : Bool) : roundedDiv up n d ≤ roundedDiv up n' d' := by
  cases up with
  | false =>
    rw [roundedDiv_false, roundedDiv_false, Nat.le_div_iff_mul_le hd']
    refine Nat.le_of_mul_le_mul_right ?_ hd
    calc n / d * d' * d = n / d * d * d' := Nat.mul_right_comm _ _ _
      _ ≤ n * d' := Nat.mul_le_mul_right _ (Nat.div_mul_le_self n d)
      _ ≤ n' * d := h
  | true =>
    rw [roundedDiv_true_le_iff hd]
    refine Nat.le_of_mul_le_mul_right ?_ hd'
    have hceil : n' ≤ roundedDiv true n' d' * d' := (roundedDiv_true_le_iff hd').mp le_rfl
    calc n * d' ≤ n' * d := h
      _ ≤ roundedDiv true n' d' * d' * d := Nat.mul_le_mul_right _ hceil
      _ = roundedDiv true n' d' * d * d' := Nat.mul_right_comm _ _ _

/-- A common factor of numerator and denominator changes nothing. -/
theorem roundedDiv_mul_right (hd : 0 < d) (hk : 0 < k) (up : Bool) :
    roundedDiv up (n * k) (d * k) = roundedDiv up n d := by
  have hcross : n * k * d = n * (d * k) := by rw [Nat.mul_assoc, Nat.mul_comm k]
  have hdk := Nat.mul_pos hd hk
  exact le_antisymm (roundedDiv_le_roundedDiv hdk hd hcross.le up)
    (roundedDiv_le_roundedDiv hd hdk hcross.ge up)

/-- Two divisions in a row, rounded the same way, round once. -/
theorem roundedDiv_roundedDiv {e : ℕ} (hd : 0 < d) (he : 0 < e) (up : Bool) :
    roundedDiv up (roundedDiv up n d) e = roundedDiv up n (d * e) := by
  cases up with
  | false => exact Nat.div_div_eq_div_mul n d e
  | true =>
    refine eq_of_forall_ge_iff fun k => ?_
    rw [roundedDiv_true_le_iff he, roundedDiv_true_le_iff hd,
      roundedDiv_true_le_iff (Nat.mul_pos hd he), Nat.mul_assoc, Nat.mul_comm e]

end

/-! ### The two operations -/

namespace Wide

theorem toUInt256_eq (n : Wide) : n.toUInt256 = fit 256 .arithmeticOverflow n.toNat := by
  have hlow : Words.value (n.words.take 4) = n.toNat % 2 ^ 256 := Words.value_take n.words 4
  have hhigh : (n.words.drop 4).all (· == 0) ↔ n.toNat < 2 ^ 256 := by
    rw [Words.all_zero_iff, Words.value_drop, Nat.div_eq_zero_iff_lt (by positivity)]
    rfl
  rw [toUInt256, fit]
  by_cases h : n.toNat < 2 ^ 256
  · rw [if_pos (hhigh.mpr h), if_pos h, hlow, Nat.mod_eq_of_lt h]
  · rw [if_neg (mt hhigh.mp h), if_neg h]

end Wide

theorem fit_bind_roundedUp (up : Bool) (n : ℕ) :
    (fit 256 .arithmeticOverflow n >>= roundedUp up) =
      fit 256 .arithmeticOverflow (n + up.toNat) := by
  by_cases h : n < 2 ^ 256
  · rw [fit_eq_ok h]
    change roundedUp up (BitVec.ofNat 256 n) = _
    cases up with
    | false => exact (fit_eq_ok h).symm
    | true => rw [roundedUp, if_pos rfl, BitVec.toNat_ofNat, Nat.mod_eq_of_lt h, Bool.toNat_true]
  · rw [fit_eq_error (Nat.le_of_not_lt h), fit_eq_error (by omega)]
    rfl

theorem Wide.not_isZero (n : Wide) : (!n.isZero) = decide (n.toNat ≠ 0) := by
  by_cases h : n.toNat = 0
  · rw [(isZero_iff n).mpr h, decide_eq_false (not_not.mpr h)]
    rfl
  · rw [Bool.eq_false_iff.mpr (mt (isZero_iff n).mp h), decide_eq_true h]
    rfl

theorem productQuotient_eq {d : UInt256} (hd : d ≠ 0) (a b : UInt256) (up : Bool) :
    productQuotient a b d up =
      fit 256 .arithmeticOverflow (roundedDiv up (a.toNat * b.toNat) d.toNat) := by
  have hdn : d.toNat ≠ 0 := fun h => hd (BitVec.toNat_inj.mp h)
  have hlt := Wide.toNat_lt (Wide.ofProduct a b)
  rw [Wide.toNat_ofProduct] at hlt
  have hq := lt_of_le_of_lt (Nat.div_le_self (a.toNat * b.toNat) d.toNat) hlt
  have hr := lt_of_le_of_lt (Nat.mod_le (a.toNat * b.toNat) d.toNat) hlt
  rw [productQuotient, if_neg hd, Wide.divide_eq_ok (by rwa [Wide.toNat_ofUInt256]),
    Wide.toNat_ofProduct, Wide.toNat_ofUInt256, roundedDiv_eq (Nat.pos_of_ne_zero hdn)]
  change ((Wide.ofNat (a.toNat * b.toNat / d.toNat)).toUInt256 >>= roundedUp (up &&
    !(Wide.ofNat (if up then a.toNat * b.toNat % d.toNat else 0)).isZero)) = _
  rw [Wide.toUInt256_eq, Wide.toNat_ofNat, Nat.mod_eq_of_lt hq, fit_bind_roundedUp]
  cases up with
  | false => rfl
  | true => rw [if_pos rfl, Wide.not_isZero, Wide.toNat_ofNat, Nat.mod_eq_of_lt hr]

theorem productQuotient_zero (a b : UInt256) (up : Bool) :
    productQuotient a b 0 up = .error .divisionByZero := rfl

/-- The rational quotient, rounded up or down to a whole number. -/
def wholeQuotient (up : Bool) (n d : ℕ) : ℕ := if up then ⌈(n : ℚ) / d⌉₊ else ⌊(n : ℚ) / d⌋₊

theorem roundedDiv_eq_wholeQuotient {n d : ℕ} (hd : 0 < d) (up : Bool) :
    roundedDiv up n d = wholeQuotient up n d := by
  have hd' : (0 : ℚ) < d := Nat.cast_pos.mpr hd
  cases up with
  | false => exact (Nat.floor_div_eq_div n d).symm
  | true =>
    refine eq_of_forall_ge_iff fun k => ?_
    rw [roundedDiv_true_le_iff hd, wholeQuotient, if_pos rfl, Nat.ceil_le, div_le_iff₀ hd']
    norm_cast

/-- The quotient is refused for a divisor of zero and if its rounding does not fit, even where the
number it is rounded up from does; else it is exact. -/
theorem productQuotient_exact (a b d : UInt256) (up : Bool) :
    productQuotient a b d up =
      if d = 0 then .error .divisionByZero
      else if wholeQuotient up (a.toNat * b.toNat) d.toNat < 2 ^ 256 then
        .ok (BitVec.ofNat 256 (wholeQuotient up (a.toNat * b.toNat) d.toNat))
      else .error .arithmeticOverflow := by
  split_ifs with hd hfit
  · rw [hd, productQuotient_zero]
  all_goals
    have hpos : 0 < d.toNat := Nat.pos_of_ne_zero fun h => hd (BitVec.toNat_inj.mp h)
    rw [productQuotient_eq hd, roundedDiv_eq_wholeQuotient hpos]
  · exact fit_eq_ok hfit
  · exact fit_eq_error (Nat.not_lt.mp hfit)

theorem fixedProduct_eq (a b : UInt256) (up : Bool) :
    fixedProduct a b up =
      fit 256 .arithmeticOverflow (roundedDiv up (a.toNat * b.toNat) (2 ^ 96)) := by
  have hsplit := Wide.two_pow_eq_mul (512 - fractionBits) 96 rfl
  -- the shift to the left keeps just the bits that the shift to the right drops
  have hinexact : (!((Wide.ofProduct a b).shiftLeft (512 - fractionBits)).isZero) =
      decide (a.toNat * b.toNat % 2 ^ 96 ≠ 0) := by
    rw [Wide.not_isZero, Wide.toNat_shiftLeft, Wide.toNat_ofProduct, hsplit, Nat.mul_comm,
      Nat.mul_mod_mul_left, decide_eq_decide]
    simp
  rw [roundedDiv_eq (by positivity), ← fit_bind_roundedUp, ← hinexact, fixedProduct,
    Wide.toUInt256_eq, Wide.toNat_shiftRight, Wide.toNat_ofProduct]
  rfl

/-- The two shifts are the long division by `2 ^ 96`, in every outcome: the same quotient, rounded
up or down as asked, and the same refusal where 256 bits do not hold it. -/
theorem fixedProduct_eq_productQuotient (a b : UInt256) (up : Bool) :
    fixedProduct a b up = productQuotient a b (BitVec.ofNat 256 (2 ^ 96)) up ∧
    fixedProduct a b up =
      if wholeQuotient up (a.toNat * b.toNat) (2 ^ 96) < 2 ^ 256 then
        .ok (BitVec.ofNat 256 (wholeQuotient up (a.toNat * b.toNat) (2 ^ 96)))
      else .error .arithmeticOverflow := by
  have hdivisor : (BitVec.ofNat 256 (2 ^ 96)).toNat = 2 ^ 96 := by decide
  constructor
  · rw [fixedProduct_eq, productQuotient_eq (by decide), hdivisor]
  · rw [fixedProduct_eq, roundedDiv_eq_wholeQuotient (by positivity)]
    rfl

end LiquidityBand
