import LiquidityBand.Proofs.Tick.SqrtPrice

/-!
# The price of the inverted tick

A tick and its inverse have one product of factors between them: the price of the lower one is
rounded from the product, the price of the upper one from its reciprocal. So the two prices multiply
to the square of the price one, up to roundings. The reciprocal is rounded down, which takes less
than one factor off; the two last roundings go up by less than one unit each, which adds less than
the sum of the prices.

* `mul_reciprocal_bounds` is a ratio times its reciprocal, and `mul_drop32_bounds` the same after
  the last roundings;
* `exists_invert` is the inverse of a tick, and `exists_inverse_prices` gives the prices of a
  positive tick and its inverse;
* `sqrtPrice_mul_invert` is the product of the prices, for every tick.
-/

namespace LiquidityBand.Tick

/-! ### A ratio and its reciprocal -/

section
variable {f r a b : ℕ}

/-- Rounded down, a reciprocal falls short by less than one factor. -/
theorem mul_reciprocal_bounds (hf : 0 < f) :
    2 ^ 256 ≤ f * ((2 ^ 256 - 1) / f) + f ∧ f * ((2 ^ 256 - 1) / f) < 2 ^ 256 := by
  have hlow := Nat.lt_mul_div_succ (2 ^ 256 - 1) hf
  have hhigh := Nat.mul_div_le (2 ^ 256 - 1) f
  rw [Nat.mul_succ] at hlow
  constructor <;> omega

/-- Rounding two factors up adds less than their sum to the product. -/
theorem mul_le_add_of_pred_mul_lt {n : ℕ} (ha : 0 < a) (hb : 0 < b) (h : (a - 1) * (b - 1) < n) :
    a * b ≤ n + a + b := by
  obtain ⟨a, rfl⟩ := Nat.exists_eq_add_of_lt ha
  obtain ⟨b, rfl⟩ := Nat.exists_eq_add_of_lt hb
  simp only [Nat.zero_add, Nat.add_sub_cancel] at h ⊢
  nlinarith

theorem drop32_pos (hr : 0 < r) : 0 < drop32 r := by
  have := (drop32_le_iff r (drop32 r)).mp le_rfl
  omega

/-- After the last roundings, a ratio and its reciprocal multiply to the square of one. -/
theorem mul_drop32_bounds (hf : 0 < f) (hle : f ≤ 2 ^ 128) :
    2 ^ 192 - 2 ^ 64 ≤ drop32 f * drop32 ((2 ^ 256 - 1) / f) ∧
      drop32 f * drop32 ((2 ^ 256 - 1) / f) ≤
        2 ^ 192 + drop32 f + drop32 ((2 ^ 256 - 1) / f) := by
  have hproduct := mul_reciprocal_bounds hf
  have hq : 0 < (2 ^ 256 - 1) / f := Nat.div_pos (by omega) hf
  generalize (2 ^ 256 - 1) / f = q at hproduct hq ⊢
  constructor
  · have hscaled : f * q ≤ drop32 f * 2 ^ 32 * (drop32 q * 2 ^ 32) :=
      Nat.mul_le_mul ((drop32_le_iff f _).mp le_rfl) ((drop32_le_iff q _).mp le_rfl)
    rw [Nat.mul_mul_mul_comm] at hscaled
    omega
  · refine mul_le_add_of_pred_mul_lt (drop32_pos hf) (drop32_pos hq) ?_
    have hpred (r : ℕ) : (drop32 r - 1) * 2 ^ 32 ≤ r := by
      have := drop32_mul_lt r
      omega
    have hscaled : (drop32 f - 1) * 2 ^ 32 * ((drop32 q - 1) * 2 ^ 32) ≤ f * q :=
      Nat.mul_le_mul (hpred f) (hpred q)
    rw [Nat.mul_mul_mul_comm] at hscaled
    omega

end

/-! ### A tick and its inverse -/

section
variable {t : Tick}

/-- The grid contains the inverse of every tick in bounds. -/
theorem exists_invert (h : t.inBounds) :
    ∃ t', t.invert = .ok t' ∧ t'.toInt = -t.toInt ∧ t'.inBounds := by
  rw [inBounds_iff, tickBound] at h
  have hint : (Int32.ofInt (-t.toInt)).toInt = -t.toInt :=
    Int32.toInt_ofInt_of_le (by omega) (by omega)
  refine ⟨Int32.ofInt (-t.toInt), fitInt32_eq_ok_iff.mpr hint, hint, ?_⟩
  rw [inBounds_iff, hint, tickBound]
  omega

/-- The two prices multiply to the square of the price one, up to their roundings. -/
structure IsInverse (s s' : SqrtPrice) : Prop where
  ge : 2 ^ 192 - 2 ^ 64 ≤ s.toNat * s'.toNat
  le : s.toNat * s'.toNat ≤ 2 ^ 192 + s.toNat + s'.toNat

theorem IsInverse.symm {s s' : SqrtPrice} (h : IsInverse s s') : IsInverse s' s := by
  constructor
  · rw [Nat.mul_comm]
    exact h.ge
  · rw [Nat.mul_comm, Nat.add_right_comm]
    exact h.le

/-- A positive tick and its inverse share their product of factors. -/
theorem exists_inverse_prices {t' : Tick} (h : t.inBounds) (h' : t'.inBounds) (hpos : 0 < t)
    (hneg : t'.toInt = -t.toInt) :
    ∃ s s', t.sqrtPrice = .ok s ∧ t'.sqrtPrice = .ok s' ∧ IsInverse s s' := by
  obtain ⟨f, hf, hfalling⟩ := fallingRatio_isFalling (natAbs_le_tickBound h)
  have hnonpos : ¬0 < t' := by
    rw [zero_lt_iff] at hpos ⊢
    omega
  have hf' : fallingRatio t'.toInt.natAbs = .ok f := by rw [hneg, Int.natAbs_neg, hf]
  obtain ⟨s, hs, hupper⟩ := sqrtPrice_of_pos h hpos hf hfalling.pos.ne'
  obtain ⟨s', hs', hlower⟩ := sqrtPrice_of_nonpos h' hnonpos hf' hfalling.le
  obtain ⟨hge, hle⟩ := mul_drop32_bounds hfalling.pos hfalling.le
  rw [← hupper, ← hlower] at hge hle
  exact ⟨s, s', hs, hs', IsInverse.symm ⟨hge, hle⟩⟩

theorem sqrtPrice_zero : sqrtPrice 0 = .ok (BitVec.ofNat 256 (2 ^ 96)) := by decide +kernel

/-- Inverting a tick inverts its price: the two prices multiply to `2 ^ 192`, less no more than
`2 ^ 64` for the reciprocal, and no more than the sum of the prices for the roundings. -/
theorem sqrtPrice_mul_invert (t : Tick) (hmin : minTick ≤ t) (hmax : t ≤ maxTick) :
    ∃ t' s s', t.invert = .ok t' ∧ t.sqrtPrice = .ok s ∧ t'.sqrtPrice = .ok s' ∧
      2 ^ 192 - 2 ^ 64 ≤ s.toNat * s'.toNat ∧
      s.toNat * s'.toNat ≤ 2 ^ 192 + s.toNat + s'.toNat := by
  have h := inBounds_iff_le.mpr ⟨hmin, hmax⟩
  obtain ⟨t', ht', hneg, h'⟩ := exists_invert h
  suffices hprices : ∃ s s', t.sqrtPrice = .ok s ∧ t'.sqrtPrice = .ok s' ∧ IsInverse s s' by
    obtain ⟨s, s', hs, hs', hinverse⟩ := hprices
    exact ⟨t', s, s', ht', hs, hs', hinverse.ge, hinverse.le⟩
  rcases lt_trichotomy t.toInt 0 with hlt | hzero | hgt
  · have hpos : 0 < t' := by
      rw [zero_lt_iff]
      omega
    obtain ⟨s', s, hs', hs, hinverse⟩ := exists_inverse_prices h' h hpos (by omega)
    exact ⟨s, s', hs, hs', hinverse.symm⟩
  · obtain rfl : t = 0 := Int32.toInt_inj.mp hzero
    obtain rfl : t' = 0 := Int32.toInt_inj.mp (by rw [hneg]; rfl)
    exact ⟨_, _, sqrtPrice_zero, sqrtPrice_zero, by decide, by decide⟩
  · exact exists_inverse_prices h h' ((zero_lt_iff t).mpr hgt) hneg

/-- The greatest tick, whose inverse has the least price: only 33 bits are left of it. -/
theorem sqrtPrice_mul_invert_maxTick :
    minTick ≤ maxTick ∧ maxTick ≤ maxTick ∧
      maxTick.invert = .ok minTick ∧ maxTick.sqrtPrice = .ok maxSqrtPrice ∧
      minTick.sqrtPrice = .ok minSqrtPrice ∧
      2 ^ 192 - 2 ^ 64 ≤ maxSqrtPrice.toNat * minSqrtPrice.toNat ∧
      maxSqrtPrice.toNat * minSqrtPrice.toNat ≤
        2 ^ 192 + maxSqrtPrice.toNat + minSqrtPrice.toNat := by
  obtain ⟨t', s, s', ht', hs, hs', hlow, hhigh⟩ :=
    sqrtPrice_mul_invert maxTick (by decide) (by decide)
  obtain rfl : t' = minTick := eq_of_eq_ok ht' (by decide)
  obtain rfl : s = maxSqrtPrice := eq_of_eq_ok hs sqrtPrice_maxTick
  obtain rfl : s' = minSqrtPrice := eq_of_eq_ok hs' sqrtPrice_minTick
  exact ⟨by decide, by decide, ht', hs, hs', hlow, hhigh⟩

end

end LiquidityBand.Tick
