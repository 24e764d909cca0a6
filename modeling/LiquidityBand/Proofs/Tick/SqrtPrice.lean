import LiquidityBand.Proofs.Tick.Grid

/-!
# The square-root prices of ticks

Every tick in bounds has a square-root price, and on a logarithmic scale it lies within
`gridError` of its place on the grid before its last rounding. As that rounding goes up to a whole
number, it does not matter where whole numbers are compared with the price. The places on the grid
are much further apart than the error, so the prices ascend strictly.

* `sqrtPrice_of_nonpos` and `sqrtPrice_of_pos` say which ratio the price is rounded from, and
  `exists_sqrtPrice` gives the price with that ratio;
* `sqrtPrice_le` and `lt_sqrtPrice` compare a price with any number, `sqrtPrice_lt_sqrtPrice` the
  prices of two ticks;
* `sqrtPrice_minTick` and `sqrtPrice_maxTick` are the prices at the ends, and `sqrtPrice_bounds`
  says that the others lie between them;
* `sqrtPrice_ascends` is the whole table: which ticks have a price, and in which order.
-/

namespace LiquidityBand.Tick

theorem logRatio_scaled (x : ℕ) : logRatio ((x * 2 ^ 32 : ℕ) : ℝ) = logPrice x := by
  rw [logRatio, logPrice]
  congr 1
  push_cast
  field_simp
  norm_num

theorem drop32_le_iff (r x : ℕ) : drop32 r ≤ x ↔ r ≤ x * 2 ^ 32 := by
  unfold drop32
  split <;> omega

/-- The last rounding adds less than one unit of 96 fractional bits. -/
theorem drop32_mul_lt (r : ℕ) : drop32 r * 2 ^ 32 < r + 2 ^ 32 := by
  unfold drop32
  split <;> omega

theorem drop32_lt {r : ℕ} (h : r < 2 ^ 256) : drop32 r < 2 ^ 256 := by
  unfold drop32
  split <;> omega

/-- The reciprocal of a ratio lies where its inverted tick belongs. -/
theorem logRatio_reciprocal {r : ℕ} (hr : 2 ^ 64 ≤ r) (hle : r ≤ 2 ^ 128) :
    |logRatio ((2 ^ 256 - 1) / r : ℕ) + logRatio r| ≤ 1 / 2 ^ 63 := by
  have hpos : 0 < r := lt_of_lt_of_le (by norm_num) hr
  have hrR : (0 : ℝ) < r := by exact_mod_cast hpos
  have hquot : 2 ^ 64 ≤ (2 ^ 256 - 1) / r := by
    rw [Nat.le_div_iff_mul_le hpos]
    omega
  have hfloor := logRatio_floor hpos hquot
  have hexact : logRatio (((2 ^ 256 - 1 : ℕ) : ℝ) / r) + logRatio r =
      Real.log (1 - 1 / 2 ^ 256) := by
    rw [logRatio, logRatio, ← Real.log_mul (by positivity) (by positivity)]
    congr 1
    push_cast
    field_simp
    norm_num
  have hclose : |(1 : ℝ) - 1 / 2 ^ 256 - 1| ≤ 1 / 2 ^ 256 := by norm_num [abs_of_nonneg]
  have hsmall := abs_log_le (by norm_num) hclose
  rw [← hexact] at hsmall
  rw [abs_le] at hsmall ⊢
  constructor <;> linarith [hsmall.1, hsmall.2, hfloor.1, hfloor.2]

/-! ### The price of one tick -/

/-- The ratio that the price `s` of a tick is rounded up from. -/
structure IsRatio (t : Tick) (s : SqrtPrice) (r : ℕ) : Prop where
  ge : 2 ^ 64 ≤ r
  near : |logRatio r - t.toInt * gridStep| ≤ gridError
  rounded : s.toNat = drop32 r

theorem IsRatio.scaled_bounds {t : Tick} {s : SqrtPrice} {r : ℕ} (h : IsRatio t s r) :
    r ≤ s.toNat * 2 ^ 32 ∧ s.toNat * 2 ^ 32 ≤ r + 2 ^ 32 := by
  refine ⟨(drop32_le_iff r s.toNat).mp h.rounded.ge, ?_⟩
  rw [h.rounded]
  exact (drop32_mul_lt r).le

theorem IsRatio.pos {t : Tick} {s : SqrtPrice} {r : ℕ} (h : IsRatio t s r) : 0 < s.toNat := by
  have hs := h.scaled_bounds.1
  have hge := h.ge
  omega

theorem inBounds_iff_le {t : Tick} : t.inBounds ↔ minTick ≤ t ∧ t ≤ maxTick := by
  rw [inBounds, Bool.and_eq_true, decide_eq_true_iff, decide_eq_true_iff]

theorem natAbs_le_tickBound {t : Tick} (h : t.inBounds) : t.toInt.natAbs ≤ tickBound := by
  rw [inBounds_iff] at h
  omega

theorem zero_lt_iff (t : Tick) : 0 < t ↔ 0 < t.toInt := Int32.lt_iff_toInt_lt

/-- The price of a tick that is not positive is rounded from the product of its factors. -/
theorem sqrtPrice_of_nonpos {t : Tick} {f : ℕ} (h : t.inBounds) (hpos : ¬0 < t)
    (hf : fallingRatio t.toInt.natAbs = .ok f) (hle : f ≤ 2 ^ 128) :
    ∃ s, t.sqrtPrice = .ok s ∧ s.toNat = drop32 f := by
  have hfit : drop32 f < 2 ^ 256 := drop32_lt (lt_of_le_of_lt hle (by norm_num))
  refine ⟨_, ?_, toNat_ofNat_of_lt hfit⟩
  rw [sqrtPrice, if_pos h, hf, ok_bind, if_neg hpos]
  exact fit_eq_ok hfit

/-- The price of a positive tick is rounded from the reciprocal of that product. -/
theorem sqrtPrice_of_pos {t : Tick} {f : ℕ} (h : t.inBounds) (hpos : 0 < t)
    (hf : fallingRatio t.toInt.natAbs = .ok f) (hne : f ≠ 0) :
    ∃ s, t.sqrtPrice = .ok s ∧ s.toNat = drop32 ((2 ^ 256 - 1) / f) := by
  have hfit : drop32 ((2 ^ 256 - 1) / f) < 2 ^ 256 :=
    drop32_lt (lt_of_le_of_lt (Nat.div_le_self _ _) (by norm_num))
  refine ⟨_, ?_, toNat_ofNat_of_lt hfit⟩
  rw [sqrtPrice, if_pos h, hf, ok_bind, if_pos hpos, quotient_eq_ok hne, ok_bind]
  exact fit_eq_ok hfit

/-- Every tick in bounds has a square-root price. -/
theorem exists_sqrtPrice {t : Tick} (h : t.inBounds) :
    ∃ s r, t.sqrtPrice = .ok s ∧ IsRatio t s r := by
  have hbound := natAbs_le_tickBound h
  obtain ⟨f, hf, hfalling⟩ := fallingRatio_isFalling hbound
  have hge := hfalling.ge hbound (by decide)
  have hnear := hfalling.near_le hbound (by decide)
  have hle := hfalling.le
  by_cases hpos : 0 < t
  · have habs : ((t.toInt.natAbs : ℕ) : ℝ) = t.toInt := by
      rw [← Int.cast_natCast, Int.natAbs_of_nonneg ((zero_lt_iff t).mp hpos).le]
    have hreciprocal := logRatio_reciprocal hge hle
    have hquot : 2 ^ 64 ≤ (2 ^ 256 - 1) / f := by
      rw [Nat.le_div_iff_mul_le hfalling.pos]
      omega
    obtain ⟨s, hs, hrounded⟩ := sqrtPrice_of_pos h hpos hf hfalling.pos.ne'
    refine ⟨s, (2 ^ 256 - 1) / f, hs, hquot, ?_, hrounded⟩
    rw [habs] at hnear
    rw [gridError]
    rw [abs_le] at hnear hreciprocal ⊢
    constructor <;> linarith [hnear.1, hnear.2, hreciprocal.1, hreciprocal.2]
  · have habs : ((t.toInt.natAbs : ℕ) : ℝ) = -t.toInt := by
      have hle : t.toInt ≤ 0 := Int.not_lt.mp (mt (zero_lt_iff t).mpr hpos)
      rw [← Int.cast_natCast, Int.ofNat_natAbs_of_nonpos hle, Int.cast_neg]
    obtain ⟨s, hs, hrounded⟩ := sqrtPrice_of_nonpos h hpos hf hle
    refine ⟨s, f, hs, hge, ?_, hrounded⟩
    rw [habs] at hnear
    rw [gridError, sub_eq_add_neg, ← neg_mul]
    exact hnear.trans (by norm_num)

theorem sqrtPrice_eq_error {t : Tick} (h : ¬t.inBounds) :
    t.sqrtPrice = .error .tickOutOfBounds := if_neg h

theorem inBounds_of_sqrtPrice {t : Tick} {s : SqrtPrice} (h : t.sqrtPrice = .ok s) :
    t.inBounds := by
  by_contra hb
  rw [sqrtPrice_eq_error hb] at h
  cases h

theorem exists_isRatio {t : Tick} {s : SqrtPrice} (h : t.sqrtPrice = .ok s) :
    ∃ r, IsRatio t s r := by
  obtain ⟨s', r, hs, hr⟩ := exists_sqrtPrice (inBounds_of_sqrtPrice h)
  obtain rfl := eq_of_eq_ok h hs
  exact ⟨r, hr⟩

theorem sqrtPrice_minTick : minTick.sqrtPrice = .ok minSqrtPrice := by decide +kernel

theorem sqrtPrice_maxTick : maxTick.sqrtPrice = .ok maxSqrtPrice := by decide +kernel

/-! ### Comparisons -/

section
variable {t : Tick} {s : SqrtPrice}

theorem sqrtPrice_le {x : ℕ} (h : t.sqrtPrice = .ok s) (hx : 0 < x)
    (hlog : t.toInt * gridStep + gridError ≤ logPrice x) : s.toNat ≤ x := by
  obtain ⟨r, hr⟩ := exists_isRatio h
  have hpos : (0 : ℝ) < r := by exact_mod_cast lt_of_lt_of_le (by norm_num) hr.ge
  have hle : logRatio r ≤ logRatio ((x * 2 ^ 32 : ℕ) : ℝ) := by
    rw [logRatio_scaled]
    linarith [(abs_le.mp hr.near).2]
  rw [hr.rounded, drop32_le_iff]
  have hdiv := (Real.log_le_log_iff (by positivity) (by positivity)).mp hle
  rw [div_le_div_iff_of_pos_right (by positivity)] at hdiv
  exact_mod_cast hdiv

theorem lt_sqrtPrice {x : ℕ} (h : t.sqrtPrice = .ok s) (hx : 0 < x)
    (hlog : logPrice x < t.toInt * gridStep - gridError) : x < s.toNat := by
  obtain ⟨r, hr⟩ := exists_isRatio h
  have hpos : (0 : ℝ) < r := by exact_mod_cast lt_of_lt_of_le (by norm_num) hr.ge
  have hlt : logRatio ((x * 2 ^ 32 : ℕ) : ℝ) < logRatio r := by
    rw [logRatio_scaled]
    linarith [(abs_le.mp hr.near).1]
  rw [hr.rounded, ← Nat.not_le, drop32_le_iff, Nat.not_le]
  have hdiv := (Real.log_lt_log_iff (by positivity) (by positivity)).mp hlt
  rw [div_lt_div_iff_of_pos_right (by positivity)] at hdiv
  exact_mod_cast hdiv

/-- The last rounding moves a price by much less than a step of the grid. -/
theorem logPrice_le (h : t.sqrtPrice = .ok s) :
    logPrice s.toNat ≤ t.toInt * gridStep + 1 / 2 ^ 31 := by
  obtain ⟨r, hr⟩ := exists_isRatio h
  have hge : (2 : ℝ) ^ 64 ≤ r := by exact_mod_cast hr.ge
  have hpos : (0 : ℝ) < r := lt_of_lt_of_le (by positivity) hge
  have hup := hr.scaled_bounds.2
  have hspos := hr.pos
  have hupR : ((s.toNat * 2 ^ 32 : ℕ) : ℝ) ≤ r * (1 + 1 / 2 ^ 32) := by
    calc ((s.toNat * 2 ^ 32 : ℕ) : ℝ) ≤ r + 2 ^ 32 := by exact_mod_cast hup
      _ ≤ r * (1 + 1 / 2 ^ 32) := by linarith
  have hmono : logRatio ((s.toNat * 2 ^ 32 : ℕ) : ℝ) ≤ logRatio (r * (1 + 1 / 2 ^ 32)) := by
    refine Real.log_le_log (by positivity) ?_
    exact div_le_div_of_nonneg_right hupR (by positivity)
  have hsplit : logRatio (r * (1 + 1 / 2 ^ 32)) = logRatio r + Real.log (1 + 1 / 2 ^ 32) := by
    rw [logRatio, logRatio, ← Real.log_mul (by positivity) (by positivity)]
    congr 1
    ring
  have hone := Real.log_le_sub_one_of_pos (show (0 : ℝ) < 1 + 1 / 2 ^ 32 by positivity)
  have hnear := (abs_le.mp hr.near).2
  rw [logRatio_scaled, hsplit] at hmono
  rw [gridError] at hnear
  linarith

end

/-- The prices of the ticks ascend strictly. -/
theorem sqrtPrice_lt_sqrtPrice {a b : Tick} {s s' : SqrtPrice} (ha : a.sqrtPrice = .ok s)
    (hb : b.sqrtPrice = .ok s') (hab : a < b) : s < s' := by
  have hlt : a.toInt + 1 ≤ b.toInt := Int32.lt_iff_toInt_lt.mp hab
  have hltR : (a.toInt : ℝ) + 1 ≤ b.toInt := by exact_mod_cast hlt
  have hlog := logPrice_le ha
  obtain ⟨r, hr⟩ := exists_isRatio ha
  refine BitVec.lt_def.mpr (lt_sqrtPrice hb hr.pos (lt_of_le_of_lt hlog ?_))
  have hstep := gridStep_bounds.1
  have hmul := mul_le_mul_of_nonneg_right hltR gridStep_pos.le
  rw [gridError]
  linarith

theorem sqrtPrice_le_sqrtPrice {a b : Tick} {s s' : SqrtPrice} (ha : a.sqrtPrice = .ok s)
    (hb : b.sqrtPrice = .ok s') (hab : a ≤ b) : s ≤ s' := by
  rcases eq_or_ne a b with rfl | hne
  · rw [eq_of_eq_ok ha hb]
    exact BitVec.le_refl s'
  · exact BitVec.le_of_lt (sqrtPrice_lt_sqrtPrice ha hb (Int32.lt_of_le_of_ne hab hne))

/-- A pool can store the prices of all ticks. -/
theorem toNat_maxSqrtPrice_lt : maxSqrtPrice.toNat < 2 ^ 160 := by decide

theorem toNat_pos_of_minSqrtPrice_le {x : SqrtPrice} (h : minSqrtPrice ≤ x) : 0 < x.toNat :=
  lt_of_lt_of_le (by decide) (BitVec.le_def.mp h)

/-- The prices of the ticks lie between those of the two ends of the grid. -/
theorem sqrtPrice_bounds {t : Tick} {s : SqrtPrice} (h : t.sqrtPrice = .ok s) :
    minSqrtPrice ≤ s ∧ s ≤ maxSqrtPrice := by
  obtain ⟨hmin, hmax⟩ := inBounds_iff_le.mp (inBounds_of_sqrtPrice h)
  exact ⟨sqrtPrice_le_sqrtPrice sqrtPrice_minTick h hmin,
    sqrtPrice_le_sqrtPrice h sqrtPrice_maxTick hmax⟩

/-- The prices ascend strictly from one end of the grid to the other, and no other tick has one. -/
theorem sqrtPrice_ascends :
    (∀ a b : Tick, minTick ≤ a → a < b → b ≤ maxTick →
      ∃ s s', a.sqrtPrice = .ok s ∧ b.sqrtPrice = .ok s' ∧
        minSqrtPrice ≤ s ∧ s < s' ∧ s' ≤ maxSqrtPrice) ∧
    minTick.sqrtPrice = .ok minSqrtPrice ∧ maxTick.sqrtPrice = .ok maxSqrtPrice ∧
    ∀ t : Tick, t < minTick ∨ maxTick < t → t.sqrtPrice = .error .tickOutOfBounds := by
  refine ⟨?_, sqrtPrice_minTick, sqrtPrice_maxTick, ?_⟩
  · intro a b hmin hab hmax
    have hbelow := Int32.le_of_lt hab
    obtain ⟨s, -, hs, -⟩ :=
      exists_sqrtPrice (inBounds_iff_le.mpr ⟨hmin, Int32.le_trans hbelow hmax⟩)
    obtain ⟨s', -, hs', -⟩ :=
      exists_sqrtPrice (inBounds_iff_le.mpr ⟨Int32.le_trans hmin hbelow, hmax⟩)
    exact ⟨s, s', hs, hs', (sqrtPrice_bounds hs).1, sqrtPrice_lt_sqrtPrice hs hs' hab,
      (sqrtPrice_bounds hs').2⟩
  · intro t hout
    refine sqrtPrice_eq_error fun hin => ?_
    obtain ⟨hmin, hmax⟩ := inBounds_iff_le.mp hin
    rcases hout with hlow | hhigh
    · exact Int32.not_lt.mpr hmin hlow
    · exact Int32.not_lt.mpr hmax hhigh

/-- Two neighbours whose products share no factor: the sizes of the two ticks differ in all of their
twenty binary places. -/
theorem sqrtPrice_ascends_across_places :
    minTick ≤ -524288 ∧ (-524288 : Tick) < -524287 ∧ -524287 ≤ maxTick ∧
      sqrtPrice (-524288) = .ok 0x48a170391f7dc43 ∧ sqrtPrice (-524287) = .ok 0x48a25e36942a4fd ∧
      minSqrtPrice ≤ 0x48a170391f7dc43 ∧ (0x48a170391f7dc43 : SqrtPrice) < 0x48a25e36942a4fd ∧
      0x48a25e36942a4fd ≤ maxSqrtPrice := by
  obtain ⟨s, s', hs, hs', hmin, hlt, hmax⟩ :=
    sqrtPrice_ascends.1 (-524288) (-524287) (by decide) (by decide) (by decide)
  obtain rfl : s = 0x48a170391f7dc43 := eq_of_eq_ok hs (by decide +kernel)
  obtain rfl : s' = 0x48a25e36942a4fd := eq_of_eq_ok hs' (by decide +kernel)
  exact ⟨by decide, by decide, by decide, hs, hs', hmin, hlt, hmax⟩

end LiquidityBand.Tick
