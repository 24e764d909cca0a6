import LiquidityBand.Proofs.Tick.SqrtPrice

/-!
# How near the prices of ticks are to the real ones

Tick `t` is the price `1.0001 ^ t`. On a logarithmic scale the ratio of a tick lies within
`gridError` of the root of that price, so the square of the ratio is the price up to a relative
error of the same order. The last rounding goes up by less than one unit. Squared, the result is a
statement on whole numbers and the fraction 10001 / 10000, without roots or logarithms.

* `gridPrice` is the exact price of a tick, and `log_gridPrice` its place on the logarithmic scale;
* `IsRatio.near_gridPrice` compares the square of a ratio with it;
* `sqrtPrice_near_gridPrice` compares the square-root price.
-/

namespace LiquidityBand.Tick

/-- The price of a tick. -/
def gridPrice (t : Tick) : ℚ := (10001 / 10000) ^ t.toInt

section
variable {t : Tick} {s : SqrtPrice} {r : ℕ}

theorem gridPrice_pos (t : Tick) : (0 : ℝ) < gridPrice t := by
  rw [Rat.cast_pos, gridPrice]
  positivity

/-- A step of the grid is half the logarithm of 1.0001. -/
theorem log_gridPrice (t : Tick) : Real.log (gridPrice t) = 2 * (t.toInt * gridStep) := by
  rw [gridPrice, Rat.cast_zpow, Real.log_zpow, gridStep]
  push_cast
  ring

/-- The square of a ratio is the price of its tick, up to a relative error of `2 ^ (-57)`. -/
theorem IsRatio.near_gridPrice (h : IsRatio t s r) :
    |((r : ℝ) / 2 ^ 128) ^ 2 - (gridPrice t : ℝ)| ≤ (gridPrice t : ℝ) / 2 ^ 57 := by
  have hp := gridPrice_pos t
  have hr : (0 : ℝ) < r := by exact_mod_cast lt_of_lt_of_le (by norm_num) h.ge
  have hlog : Real.log (((r : ℝ) / 2 ^ 128) ^ 2 / gridPrice t) =
      2 * (logRatio r - t.toInt * gridStep) := by
    rw [Real.log_div (by positivity) hp.ne', Real.log_pow, log_gridPrice, logRatio]
    push_cast
    ring
  have hsmall : |2 * (logRatio r - t.toInt * gridStep)| ≤ 1 / 2 ^ 58 := by
    rw [abs_mul, abs_two]
    have hnear := h.near
    rw [gridError] at hnear
    linarith
  have hexp := Real.abs_exp_sub_one_le (hsmall.trans (by norm_num))
  rw [← hlog, Real.exp_log (by positivity), hlog, div_sub_one hp.ne', abs_div, abs_of_pos hp,
    div_le_iff₀ hp] at hexp
  calc |((r : ℝ) / 2 ^ 128) ^ 2 - (gridPrice t : ℝ)|
      ≤ 2 * |2 * (logRatio r - t.toInt * gridStep)| * gridPrice t := hexp
    _ ≤ 2 * (1 / 2 ^ 58) * gridPrice t :=
        mul_le_mul_of_nonneg_right (mul_le_mul_of_nonneg_left hsmall (by norm_num)) hp.le
    _ = gridPrice t / 2 ^ 57 := by ring

/-- The ratio lies between the square-root price and the unit before it. -/
theorem IsRatio.rounding_bounds (h : IsRatio t s r) :
    ((s.toNat : ℝ) - 1) / 2 ^ 96 ≤ (r : ℝ) / 2 ^ 128 ∧
      (r : ℝ) / 2 ^ 128 ≤ (s.toNat : ℝ) / 2 ^ 96 := by
  obtain ⟨hup, hdown⟩ := h.scaled_bounds
  have hupR : (r : ℝ) ≤ s.toNat * 2 ^ 32 := by exact_mod_cast hup
  have hdownR : (s.toNat : ℝ) * 2 ^ 32 ≤ r + 2 ^ 32 := by exact_mod_cast hdown
  constructor <;> linarith

theorem IsRatio.le_sq (h : IsRatio t s r) :
    (gridPrice t : ℝ) * 2 ^ 192 * (1 - 1 / 2 ^ 56) ≤ (s.toNat : ℝ) ^ 2 := by
  have hp := gridPrice_pos t
  have hnear := (abs_le.mp h.near_gridPrice).1
  have hsq : ((r : ℝ) / 2 ^ 128) ^ 2 ≤ ((s.toNat : ℝ) / 2 ^ 96) ^ 2 :=
    pow_le_pow_left₀ (by positivity) h.rounding_bounds.2 2
  rw [div_pow (s.toNat : ℝ), ← pow_mul] at hsq
  linarith

theorem IsRatio.sq_sub_one_le (h : IsRatio t s r) :
    ((s.toNat : ℝ) - 1) ^ 2 ≤ (gridPrice t : ℝ) * 2 ^ 192 * (1 + 1 / 2 ^ 56) := by
  have hp := gridPrice_pos t
  have hnear := (abs_le.mp h.near_gridPrice).2
  have hone : (1 : ℝ) ≤ s.toNat := by exact_mod_cast h.pos
  have hsq : (((s.toNat : ℝ) - 1) / 2 ^ 96) ^ 2 ≤ ((r : ℝ) / 2 ^ 128) ^ 2 :=
    pow_le_pow_left₀ (div_nonneg (by linarith) (by positivity)) h.rounding_bounds.1 2
  rw [div_pow ((s.toNat : ℝ) - 1), ← pow_mul] at hsq
  linarith

/-- Up to a relative error of `2 ^ (-56)` in the price, a square-root price is the root of the
price of its tick, times `2 ^ 96`, rounded up. -/
theorem sqrtPrice_near_gridPrice (t : Tick) (hmin : minTick ≤ t) (hmax : t ≤ maxTick) :
    ∃ s, t.sqrtPrice = .ok s ∧
      gridPrice t * 2 ^ 192 * (1 - 1 / 2 ^ 56) ≤ (s.toNat : ℚ) ^ 2 ∧
      ((s.toNat : ℚ) - 1) ^ 2 ≤ gridPrice t * 2 ^ 192 * (1 + 1 / 2 ^ 56) := by
  obtain ⟨s, r, hs, hr⟩ := exists_sqrtPrice (inBounds_iff_le.mpr ⟨hmin, hmax⟩)
  refine ⟨s, hs, ?_, ?_⟩
  · rw [← Rat.cast_le (K := ℝ)]
    push_cast
    exact hr.le_sq
  · rw [← Rat.cast_le (K := ℝ)]
    push_cast
    exact hr.sq_sub_one_le

/-- A tick with nineteen factors, whose product is inverted. -/
theorem sqrtPrice_near_gridPrice_of_inverted :
    minTick ≤ 524287 ∧ 524287 ≤ maxTick ∧
      sqrtPrice 524287 = .ok 0x38646290dd96e20c43eb4cee9023c74076 ∧
      gridPrice 524287 * 2 ^ 192 * (1 - 1 / 2 ^ 56) ≤
        ((0x38646290dd96e20c43eb4cee9023c74076 : SqrtPrice).toNat : ℚ) ^ 2 ∧
      (((0x38646290dd96e20c43eb4cee9023c74076 : SqrtPrice).toNat : ℚ) - 1) ^ 2 ≤
        gridPrice 524287 * 2 ^ 192 * (1 + 1 / 2 ^ 56) := by
  obtain ⟨s, hs, hbounds⟩ := sqrtPrice_near_gridPrice 524287 (by decide) (by decide)
  obtain rfl : s = 0x38646290dd96e20c43eb4cee9023c74076 :=
    eq_of_eq_ok hs (by decide +kernel)
  exact ⟨by decide, by decide, hs, hbounds⟩

end

end LiquidityBand.Tick
