import LiquidityBand.Proofs.Tick.SqrtPrice
import LiquidityBand.Tick.Logarithm

/-!
# The tick of a square-root price

A number between 1 and 2 is squared, and halved if it reaches 2; that is one bit of its logarithm,
and what remains is again between 1 and 2. Every rounding goes down, so the bits found never
exceed the logarithm, and they fall short of it by less than the weight of the last one and a
trace. Scaled to steps of the grid, that is less than nine tenths of a step; two candidates are
therefore enough, and the exact price of the higher one decides between them.

* `squaringStep_spec` is one bit, `fractionBitsOfLog_spec` a row of them and `binaryLog_spec` the
  logarithm;
* `Brackets` is what the two candidates promise, and `candidates_brackets` that they keep it;
* `IsTickOf` is the tick of a price, by `exists_ofSqrtPrice` what the search finds, and
  `IsTickOf.price_le_iff` compares the price with those of other ticks;
* `ofSqrtPrice_inverts` is the search for the tick.
-/

namespace LiquidityBand.Tick

/-! ### The binary logarithm -/

/-- A number from 1 up to 2, with 127 fractional bits. -/
structure IsMantissa (r : ℕ) : Prop where
  ge : 2 ^ 127 ≤ r
  lt : r < 2 ^ 128

theorem IsMantissa.pos {r : ℕ} (h : IsMantissa r) : 0 < r := lt_of_lt_of_le (by norm_num) h.ge

theorem IsMantissa.logMantissa_bounds {r : ℕ} (h : IsMantissa r) :
    0 ≤ logMantissa r ∧ logMantissa r ≤ Real.log 2 := by
  have hge : (2 : ℝ) ^ 127 ≤ r := by exact_mod_cast h.ge
  have hle : (r : ℝ) ≤ 2 ^ 128 := by exact_mod_cast h.lt.le
  have hlow := Real.log_le_log (by positivity) hge
  have hhigh := Real.log_le_log (by exact_mod_cast h.pos) hle
  rw [Real.log_pow] at hlow hhigh
  norm_num at hlow hhigh
  unfold logMantissa
  constructor <;> linarith

theorem squaringStep_spec {r : ℕ} (h : IsMantissa r) :
    ∃ next bit, squaringStep r = .ok (next, bit) ∧ IsMantissa next ∧
      bit * Real.log 2 + logMantissa next ≤ 2 * logMantissa r ∧
      2 * logMantissa r ≤ bit * Real.log 2 + logMantissa next + 1 / 2 ^ 127 := by
  have hlow : 2 ^ 127 * 2 ^ 127 ≤ r * r := Nat.mul_le_mul h.ge h.ge
  have hhigh : r * r < 2 ^ 128 * 2 ^ 128 := Nat.mul_lt_mul'' h.lt h.lt
  have hsquare : r * r < 2 ^ 256 := by omega
  have hbit : r * r / 2 ^ 127 / 2 ^ 128 ≤ 1 := by omega
  generalize hb : r * r / 2 ^ 127 / 2 ^ 128 = bit at hbit
  have hnext : IsMantissa (r * r / 2 ^ (127 + bit)) := by
    obtain rfl | rfl : bit = 0 ∨ bit = 1 := by omega
    · exact ⟨by omega, by omega⟩
    · exact ⟨by omega, by omega⟩
  have hfloor := log_floor (m := r * r) (d := 2 ^ (127 + bit)) (by positivity) (by positivity)
    hnext.ge
  have hr : (0 : ℝ) < r := by exact_mod_cast h.pos
  have hlog : Real.log (((r * r : ℕ) : ℝ) / (2 ^ (127 + bit) : ℕ)) =
      2 * Real.log r - (127 + bit) * Real.log 2 := by
    push_cast
    rw [Real.log_div (by positivity) (by positivity), Real.log_mul hr.ne' hr.ne', Real.log_pow]
    push_cast
    ring
  rw [hlog] at hfloor
  refine ⟨r * r / 2 ^ (127 + bit), bit, ?_, hnext, ?_⟩
  · rw [squaringStep, fit_eq_ok hsquare, ok_bind, toNat_ofNat_of_lt hsquare]
    dsimp only
    rw [hb, shiftAmount_eq_ok (by omega), ok_bind, Nat.div_div_eq_div_mul, ← Nat.pow_add]
    rfl
  · unfold logMantissa
    push_cast at hfloor ⊢
    constructor <;> linarith [hfloor.1, hfloor.2]

/-- A row of bits falls short by at most the weight of its last one and the roundings. -/
theorem fractionBitsOfLog_spec {places weight r : ℕ} (h : IsMantissa r) (hp : places ≤ weight) :
    ∃ bits, fractionBitsOfLog places weight r = .ok bits ∧
      bits * Real.log 2 ≤ 2 ^ (weight + 1) * logMantissa r ∧
      2 ^ (weight + 1) * logMantissa r ≤
        (bits + 2 ^ (weight + 1 - places)) * Real.log 2 + 2 ^ (weight + 1) / 2 ^ 127 := by
  induction places generalizing weight r with
  | zero =>
    obtain ⟨hlow, hhigh⟩ := h.logMantissa_bounds
    have hpow : (0 : ℝ) < 2 ^ (weight + 1) := by positivity
    refine ⟨0, rfl, ?_, ?_⟩
    · rw [Nat.cast_zero, zero_mul]
      positivity
    · rw [Nat.cast_zero, zero_add, Nat.sub_zero]
      have := mul_le_mul_of_nonneg_left hhigh hpow.le
      have : (0 : ℝ) < 2 ^ (weight + 1) / 2 ^ 127 := by positivity
      linarith
  | succ places ih =>
    obtain ⟨w, rfl⟩ : ∃ w, weight = w + 1 := ⟨weight - 1, by omega⟩
    obtain ⟨next, bit, hstep, hnext, hlow, hhigh⟩ := squaringStep_spec h
    obtain ⟨rest, hrest, hrlow, hrhigh⟩ := ih hnext (Nat.le_of_succ_le_succ hp)
    have hpow : (0 : ℝ) < 2 ^ (w + 1) := by positivity
    have hl := mul_le_mul_of_nonneg_left hlow hpow.le
    have hh := mul_le_mul_of_nonneg_left hhigh hpow.le
    have hexp : w + 1 + 1 - (places + 1) = w + 1 - places := by omega
    -- squaring doubles the logarithm, whose whole part is the bit; the row that follows is the rest
    refine ⟨bit * 2 ^ (w + 1) + rest, ?_, ?_, ?_⟩
    · rw [fractionBitsOfLog, hstep, ok_bind]
      change (fractionBitsOfLog places w next >>= _) = _
      rw [hrest, ok_bind]
      rfl
    · rw [pow_succ 2 (w + 1)]
      push_cast
      linarith
    · rw [hexp, pow_succ 2 (w + 1)]
      push_cast
      linarith

/-- The mantissa of a ratio: its top bit is moved to the place of one. -/
def mantissa (ratio : ℕ) : Except Error ℕ :=
  if 128 ≤ ratio.log2 then do
    let k ← shiftAmount 256 (ratio.log2 - 127)
    return ratio / 2 ^ k
  else do
    let k ← difference 127 ratio.log2
    return ratio * 2 ^ k % 2 ^ 256

theorem binaryLog_eq (ratio : ℕ) :
    binaryLog ratio = (do
      let r ← mantissa ratio
      let fraction ← fractionBitsOfLog logPlaces 63 r
      return ((ratio.log2 : ℤ) - 128) * 2 ^ 64 + fraction) := by
  unfold binaryLog mantissa
  dsimp only
  split
  · cases shiftAmount 256 (ratio.log2 - 127) <;> rfl
  · cases difference 127 ratio.log2 <;> rfl

/-- What the mantissa of a ratio stands for, with what its rounding takes off. -/
structure IsMantissaOf (r ratio : ℕ) : Prop extends IsMantissa r where
  le : ((ratio.log2 : ℤ) - 128 : ℤ) * Real.log 2 + logMantissa r ≤ logRatio ratio
  ge_sub : logRatio ratio ≤
    ((ratio.log2 : ℤ) - 128 : ℤ) * Real.log 2 + logMantissa r + 1 / 2 ^ 127

section
variable {ratio : ℕ}

/-- A ratio of 1 or more loses bits below its mantissa. -/
theorem mantissa_of_le (h0 : 0 < ratio) (hlt : ratio < 2 ^ 256) (h128 : 128 ≤ ratio.log2) :
    ∃ r, mantissa ratio = .ok r ∧ IsMantissaOf r ratio := by
  have hlow : 2 ^ ratio.log2 ≤ ratio := Nat.log2_self_le h0.ne'
  have hhigh : ratio < 2 ^ (ratio.log2 + 1) := Nat.lt_log2_self
  have htop : ratio.log2 < 256 := (Nat.log2_lt h0.ne').mpr hlt
  have hR : (0 : ℝ) < ratio := by exact_mod_cast h0
  obtain ⟨k, hk⟩ : ∃ k, ratio.log2 = 127 + k := ⟨ratio.log2 - 127, by omega⟩
  have hsub : ratio.log2 - 127 = k := by omega
  have hr : IsMantissa (ratio / 2 ^ k) := by
    rw [hk, pow_add] at hlow
    rw [hk, show 127 + k + 1 = 128 + k by omega, pow_add] at hhigh
    exact ⟨(Nat.le_div_iff_mul_le (by positivity)).mpr hlow,
      (Nat.div_lt_iff_lt_mul (by positivity)).mpr hhigh⟩
  have hfloor := log_floor (by positivity) (by positivity) hr.ge
  rw [Nat.cast_pow, Nat.cast_two, Real.log_div hR.ne' (by positivity), Real.log_pow] at hfloor
  refine ⟨ratio / 2 ^ k, ?_, hr, ?_, ?_⟩
  · rw [mantissa, if_pos h128, hsub, shiftAmount_eq_ok (by omega), ok_bind]
    rfl
  all_goals
    rw [logRatio_eq hR, logMantissa, hk]
    push_cast at hfloor ⊢
    linarith [hfloor.1, hfloor.2]

/-- A ratio below 1 keeps all of its bits. -/
theorem mantissa_of_lt (h0 : 0 < ratio) (h128 : ratio.log2 < 128) :
    ∃ r, mantissa ratio = .ok r ∧ IsMantissaOf r ratio := by
  have hlow : 2 ^ ratio.log2 ≤ ratio := Nat.log2_self_le h0.ne'
  have hhigh : ratio < 2 ^ (ratio.log2 + 1) := Nat.lt_log2_self
  have hR : (0 : ℝ) < ratio := by exact_mod_cast h0
  obtain ⟨k, hk⟩ : ∃ k, 127 = ratio.log2 + k := ⟨127 - ratio.log2, by omega⟩
  have hsub : 127 - ratio.log2 = k := by omega
  have hmul : ratio * 2 ^ k < 2 ^ 128 := by
    rw [show 128 = ratio.log2 + 1 + k by omega, pow_add]
    exact Nat.mul_lt_mul_of_pos_right hhigh (by positivity)
  have hr : IsMantissa (ratio * 2 ^ k) := by
    refine ⟨?_, hmul⟩
    rw [hk, pow_add]
    exact Nat.mul_le_mul_right _ hlow
  have hlog : Real.log ((ratio * 2 ^ k : ℕ) : ℝ) = Real.log ratio + k * Real.log 2 := by
    rw [Nat.cast_mul, Nat.cast_pow, Nat.cast_two, Real.log_mul hR.ne' (by positivity),
      Real.log_pow]
  have hkR : (127 : ℝ) = ratio.log2 + k := by exact_mod_cast hk
  have htopR : (ratio.log2 : ℝ) = 127 - k := by linarith
  have htrace : (0 : ℝ) < 1 / 2 ^ 127 := by positivity
  refine ⟨ratio * 2 ^ k, ?_, hr, ?_, ?_⟩
  · rw [mantissa, if_neg (Nat.not_le.mpr h128), difference_eq_ok (by omega), hsub, ok_bind,
      Nat.mod_eq_of_lt (lt_trans hmul (by norm_num))]
    rfl
  all_goals
    rw [logRatio_eq hR, logMantissa, hlog]
    push_cast
    rw [htopR]
    linarith

theorem mantissa_spec (h0 : 0 < ratio) (hlt : ratio < 2 ^ 256) :
    ∃ r, mantissa ratio = .ok r ∧ IsMantissaOf r ratio := by
  rcases Nat.lt_or_ge ratio.log2 128 with h | h
  · exact mantissa_of_lt h0 h
  · exact mantissa_of_le h0 hlt h

end

/-- The binary logarithm is at most one unit of its last place too low, and a trace. -/
theorem binaryLog_spec {ratio : ℕ} (h0 : 0 < ratio) (hlt : ratio < 2 ^ 256) :
    ∃ log, binaryLog ratio = .ok log ∧ log * Real.log 2 ≤ 2 ^ 64 * logRatio ratio ∧
      2 ^ 64 * logRatio ratio ≤ (log + 2 ^ 50) * Real.log 2 + 1 / 2 ^ 62 := by
  obtain ⟨r, hr, hmantissa, hlow, hhigh⟩ := mantissa_spec h0 hlt
  have hplaces : logPlaces ≤ 63 := by decide
  obtain ⟨bits, hbits, hblow, hbhigh⟩ := fractionBitsOfLog_spec hmantissa hplaces
  rw [show 63 + 1 = 64 from rfl] at hblow hbhigh
  rw [show 64 - logPlaces = 50 from rfl] at hbhigh
  refine ⟨((ratio.log2 : ℤ) - 128) * 2 ^ 64 + bits, ?_, ?_, ?_⟩
  · rw [binaryLog_eq, hr, ok_bind, hbits, ok_bind]
    rfl
  · push_cast at hlow ⊢
    linarith
  · push_cast at hhigh ⊢
    linarith

/-! ### The two candidates -/

/-- By how much the candidates keep away from a price that they do not fit. -/
noncomputable def clearance : ℝ := 4 / 10 ^ 7

/-- Two candidates of which the lower one is not too high, and the higher one not too low. -/
structure Brackets (x : ℕ) (low high : ℤ) : Prop where
  low_le : low * gridStep + clearance ≤ logPrice x
  le_high : logPrice x + clearance ≤ (high + 1) * gridStep
  low_le_high : low ≤ high
  high_le_succ : high ≤ low + 1

theorem gridError_lt_clearance : gridError < clearance := by
  unfold gridError clearance
  norm_num

/-- The scale turns binary logarithms into steps of the grid, to nine places. -/
theorem abs_logScale_sub_le :
    |logScale * gridStep - 2 ^ 64 * Real.log 2| ≤ 2 ^ 64 * (3 / 10 ^ 10) := by
  have hstep := gridStep_bounds
  have htwo := Real.log_two_gt_d9
  have htwo' := Real.log_two_lt_d9
  unfold logScale
  push_cast
  rw [abs_le]
  constructor <;> linarith [hstep.1, hstep.2]

theorem brackets_of_log {x : ℕ} {log : ℤ} (hlow : log * Real.log 2 ≤ 2 ^ 64 * logPrice x)
    (hhigh : 2 ^ 64 * logPrice x ≤ (log + 2 ^ 50) * Real.log 2 + 1 / 2 ^ 62)
    (hlog : |(log : ℝ)| ≤ 65 * 2 ^ 64) :
    Brackets x ((log * logScale - lowMargin) / 2 ^ 128)
      ((log * logScale - highMargin) / 2 ^ 128 + 1) := by
  have hscaled : |log * (logScale * gridStep - 2 ^ 64 * Real.log 2)| ≤
      65 * 2 ^ 64 * (2 ^ 64 * (3 / 10 ^ 10)) := by
    rw [abs_mul]
    exact mul_le_mul hlog abs_logScale_sub_le (abs_nonneg _) (by positivity)
  obtain ⟨hs1, hs2⟩ := abs_le.mp hscaled
  -- a candidate is a floor, so it lies less than a step below what it is the floor of
  have hfloor (m : ℤ) : ((m / 2 ^ 128 : ℤ) : ℝ) * 2 ^ 128 ≤ m ∧
      (m : ℝ) < ((m / 2 ^ 128 : ℤ) + 1) * 2 ^ 128 :=
    ⟨by exact_mod_cast Int.ediv_mul_le m (by norm_num),
      by exact_mod_cast Int.lt_ediv_add_one_mul_self m (by norm_num)⟩
  have hstep := gridStep_bounds
  have htwo := Real.log_two_lt_d9
  refine ⟨?_, ?_, ?_, ?_⟩
  · have hle := mul_le_mul_of_nonneg_right (hfloor (log * logScale - lowMargin)).1 gridStep_pos.le
    generalize (log * logScale - lowMargin) / 2 ^ 128 = low at hle ⊢
    unfold clearance
    unfold lowMargin at hle
    push_cast at hle
    linarith
  · have hlt := mul_lt_mul_of_pos_right (hfloor (log * logScale - highMargin)).2 gridStep_pos
    generalize (log * logScale - highMargin) / 2 ^ 128 = high at hlt ⊢
    unfold clearance
    unfold highMargin at hlt
    push_cast at hlt ⊢
    linarith
  · unfold lowMargin highMargin
    omega
  · unfold lowMargin highMargin
    omega

section
variable {x : SqrtPrice}

/-- The prices that have a tick lie between the ends of the grid. -/
theorem logPrice_bounds (hlow : minSqrtPrice ≤ x) (hhigh : x < maxSqrtPrice) :
    -887272 * gridStep - gridError ≤ logPrice x.toNat ∧
      logPrice x.toNat < 887272 * gridStep + gridError := by
  have hpos := toNat_pos_of_minSqrtPrice_le hlow
  have hmin : (minTick.toInt : ℝ) = -887272 := by norm_num [toInt_minTick]
  have hmax : (maxTick.toInt : ℝ) = 887272 := by norm_num [toInt_maxTick]
  constructor
  · by_contra hlt
    rw [not_le, ← hmin] at hlt
    exact absurd (lt_sqrtPrice sqrtPrice_minTick hpos hlt) (Nat.not_lt.mpr (BitVec.le_def.mp hlow))
  · by_contra hle
    rw [not_lt, ← hmax] at hle
    exact absurd (sqrtPrice_le sqrtPrice_maxTick hpos hle)
      (Nat.not_le.mpr (BitVec.lt_def.mp hhigh))

theorem abs_le_of_logPrice {y : ℝ} {log : ℤ} (hlow : log * Real.log 2 ≤ 2 ^ 64 * y)
    (hhigh : 2 ^ 64 * y ≤ (log + 2 ^ 50) * Real.log 2 + 1 / 2 ^ 62)
    (hy : -887272 * gridStep - gridError ≤ y ∧ y < 887272 * gridStep + gridError) :
    |(log : ℝ)| ≤ 65 * 2 ^ 64 := by
  have hstep := gridStep_bounds.2
  have htwo := Real.log_two_gt_d9
  have hpos : 0 < Real.log 2 := lt_trans (by norm_num) htwo
  rw [gridError] at hy
  rw [abs_le]
  constructor
  · by_contra hlt
    rw [not_le] at hlt
    have hmul := mul_lt_mul_of_pos_right hlt hpos
    linarith [hy.1]
  · by_contra hlt
    rw [not_le] at hlt
    have hmul := mul_lt_mul_of_pos_right hlt hpos
    linarith [hy.2]

theorem Brackets.bounds {low high : ℤ} (h : Brackets x.toNat low high) (hlow : minSqrtPrice ≤ x)
    (hhigh : x < maxSqrtPrice) : -887272 ≤ high ∧ low < 887272 := by
  obtain ⟨hT, hT'⟩ := logPrice_bounds hlow hhigh
  have herror := gridError_lt_clearance
  constructor
  · have hlt : -887272 * gridStep < (high + 1) * gridStep := by linarith [h.le_high]
    have := lt_of_mul_lt_mul_right hlt gridStep_pos.le
    have : -887272 < high + 1 := by exact_mod_cast this
    omega
  · have hlt : low * gridStep < 887272 * gridStep := by linarith [h.low_le]
    exact_mod_cast lt_of_mul_lt_mul_right hlt gridStep_pos.le

theorem toInt_ofInt_of_small {z : ℤ} (h : -1000000 ≤ z) (h' : z ≤ 1000000) :
    (Int32.ofInt z).toInt = z :=
  Int32.toInt_ofInt_of_le (by omega) (by omega)

/-- The two candidates of a price that has a tick. -/
theorem candidates_brackets (hlow : minSqrtPrice ≤ x) (hhigh : x < maxSqrtPrice) :
    ∃ low high, candidates x = .ok (low, high) ∧ Brackets x.toNat low.toInt high.toInt := by
  have hpos := toNat_pos_of_minSqrtPrice_le hlow
  have hx : x.toNat * 2 ^ 32 < 2 ^ 256 := by
    have := BitVec.lt_def.mp hhigh
    have := toNat_maxSqrtPrice_lt
    omega
  obtain ⟨log, hlog, hllow, hlhigh⟩ := binaryLog_spec (by omega) hx
  rw [logRatio_scaled] at hllow hlhigh
  have hsize := abs_le_of_logPrice hllow hlhigh (logPrice_bounds hlow hhigh)
  have hb := brackets_of_log hllow hlhigh hsize
  obtain ⟨hmin, hmax⟩ := hb.bounds hlow hhigh
  have hle := hb.low_le_high
  have hsucc := hb.high_le_succ
  rw [candidates, Nat.mod_eq_of_lt hx, hlog, ok_bind]
  dsimp only
  generalize (log * logScale - lowMargin) / 2 ^ 128 = low at *
  generalize (log * logScale - highMargin) / 2 ^ 128 = high at *
  have hlowInt := toInt_ofInt_of_small (z := low) (by omega) (by omega)
  have hhighInt := toInt_ofInt_of_small (z := high) (by omega) (by omega)
  have hfit : fitInt32 .fault (high + 1) = .ok (Int32.ofInt (high + 1)) := by
    rw [fitInt32_eq_ok_iff]
    exact toInt_ofInt_of_small (by omega) (by omega)
  refine ⟨Int32.ofInt low, Int32.ofInt (high + 1), ?_, ?_⟩
  · rw [hhighInt, hfit, ok_bind]
    rfl
  · rwa [hlowInt, toInt_ofInt_of_small (by omega) (by omega)]

end

/-! ### The search -/

theorem toInt_succ {t : Tick} (h : t < maxTick) : (t + 1).toInt = t.toInt + 1 := by
  rw [Int32.lt_iff_toInt_lt, toInt_maxTick] at h
  have hmin := Int32.le_toInt t
  rw [Int32.toInt_add, Int32.toInt_one]
  exact Int.bmod_eq_of_le (by omega) (by omega)

/-- The price lies from the tick's own price up to that of the next tick. -/
structure IsTickOf (x : SqrtPrice) (t : Tick) : Prop where
  ge_min : minTick ≤ t
  lt_max : t < maxTick
  price : ∃ s, t.sqrtPrice = .ok s ∧ s ≤ x
  next : ∃ s, (t + 1).sqrtPrice = .ok s ∧ x < s

section
variable {x : SqrtPrice} {t : Tick}

theorem inBounds_of_toInt (hmin : -887272 ≤ t.toInt) (hmax : t.toInt ≤ 887272) : t.inBounds :=
  (inBounds_iff t).mpr ⟨hmin, hmax⟩

/-- The tick is the greatest one whose price is not above the given one. -/
theorem IsTickOf.le_of_price_le (h : IsTickOf x t) {u : Tick} {s : SqrtPrice}
    (hu : u.sqrtPrice = .ok s) (hs : s ≤ x) : u ≤ t := by
  obtain ⟨s', hs', hx⟩ := h.next
  by_contra hlt
  rw [Int32.not_le, Int32.lt_iff_toInt_lt] at hlt
  have hsucc := toInt_succ h.lt_max
  rcases eq_or_ne u (t + 1) with rfl | hne
  · rw [eq_of_eq_ok hu hs', BitVec.le_def] at hs
    exact absurd (BitVec.lt_def.mp hx) (Nat.not_lt.mpr hs)
  · have hlt' : t + 1 < u := by
      have hne' : u.toInt ≠ (t + 1).toInt := fun he => hne (Int32.toInt_inj.mp he)
      rw [Int32.lt_iff_toInt_lt]
      omega
    have hprices := sqrtPrice_lt_sqrtPrice hs' hu hlt'
    rw [BitVec.lt_def] at hprices hx
    rw [BitVec.le_def] at hs
    omega

/-- Prices compare with the given one as their ticks do with the tick. -/
theorem IsTickOf.price_le_iff (h : IsTickOf x t) {u : Tick} {s : SqrtPrice}
    (hu : u.sqrtPrice = .ok s) : s ≤ x ↔ u ≤ t := by
  constructor
  · exact h.le_of_price_le hu
  · intro hle
    obtain ⟨s', hs', hx⟩ := h.price
    exact BitVec.le_trans (sqrtPrice_le_sqrtPrice hu hs' hle) hx

/-- The given price is at most that of a tick if its own tick is lower, or if it is that price. -/
theorem IsTickOf.le_price_iff (h : IsTickOf x t) {u : Tick} {s : SqrtPrice}
    (hu : u.sqrtPrice = .ok s) : x ≤ s ↔ t < u ∨ u.sqrtPrice = .ok x := by
  rw [← Int32.not_le, ← h.price_le_iff hu, BitVec.not_le, hu, Except.ok.injEq, ← BitVec.toNat_inj,
    BitVec.le_def, BitVec.lt_def]
  omega

theorem IsTickOf.unique {u : Tick} (ht : IsTickOf x t) (hu : IsTickOf x u) : t = u := by
  obtain ⟨s, hs, hsx⟩ := ht.price
  obtain ⟨s', hs', hsx'⟩ := hu.price
  exact Int32.le_antisymm (hu.le_of_price_le hs hsx) (ht.le_of_price_le hs' hsx')

theorem exists_price_le (hx : 0 < x.toNat) (hmin : -887272 ≤ t.toInt) (hmax : t.toInt ≤ 887272)
    (h : t.toInt * gridStep + clearance ≤ logPrice x.toNat) :
    ∃ s, t.sqrtPrice = .ok s ∧ s ≤ x := by
  obtain ⟨s, -, hs, -⟩ := exists_sqrtPrice (inBounds_of_toInt hmin hmax)
  refine ⟨s, hs, BitVec.le_def.mpr (sqrtPrice_le hs hx ?_)⟩
  linarith [gridError_lt_clearance]

theorem exists_next_gt (hx : 0 < x.toNat) (hmin : -887272 ≤ t.toInt) (hmax : t.toInt < 887272)
    (h : logPrice x.toNat + clearance ≤ (t.toInt + 1) * gridStep) :
    ∃ s, (t + 1).sqrtPrice = .ok s ∧ x < s := by
  have hsucc : (t + 1).toInt = t.toInt + 1 := toInt_succ (Int32.lt_iff_toInt_lt.mpr hmax)
  obtain ⟨s, -, hs, -⟩ := exists_sqrtPrice (t := t + 1) (inBounds_of_toInt (by omega) (by omega))
  refine ⟨s, hs, BitVec.lt_def.mpr (lt_sqrtPrice hs hx ?_)⟩
  rw [hsucc]
  push_cast
  linarith [gridError_lt_clearance]

section
variable {low high : Tick}

/-- If there is one candidate, it is the tick. -/
theorem Brackets.isTickOf (h : Brackets x.toNat low.toInt low.toInt) (hlow : minSqrtPrice ≤ x)
    (hhigh : x < maxSqrtPrice) : IsTickOf x low := by
  have hx := toNat_pos_of_minSqrtPrice_le hlow
  obtain ⟨hmin, hmax⟩ := h.bounds hlow hhigh
  exact ⟨Int32.le_iff_toInt_le.mpr hmin, Int32.lt_iff_toInt_lt.mpr hmax,
    exists_price_le hx hmin hmax.le h.low_le, exists_next_gt hx hmin hmax h.le_high⟩

/-- If the higher candidate's price is not above the given one, it is the tick. -/
theorem Brackets.isTickOf_high (h : Brackets x.toNat low.toInt high.toInt) (hlow : minSqrtPrice ≤ x)
    (hhigh : x < maxSqrtPrice) {above : SqrtPrice} (habove : high.sqrtPrice = .ok above)
    (hle : above ≤ x) : IsTickOf x high := by
  obtain ⟨hmin, hmax⟩ := h.bounds hlow hhigh
  have hsucc := h.high_le_succ
  have hlt : high.toInt < 887272 := by
    by_contra hge
    obtain rfl : high = maxTick := Int32.toInt_inj.mp (by rw [toInt_maxTick]; omega)
    obtain rfl := eq_of_eq_ok habove sqrtPrice_maxTick
    exact absurd hle (BitVec.not_le.mpr hhigh)
  exact ⟨Int32.le_iff_toInt_le.mpr hmin, Int32.lt_iff_toInt_lt.mpr hlt, ⟨above, habove, hle⟩,
    exists_next_gt (toNat_pos_of_minSqrtPrice_le hlow) hmin hlt h.le_high⟩

/-- If it is above, the tick before is the one. -/
theorem Brackets.isTickOf_low (h : Brackets x.toNat low.toInt high.toInt) (hlow : minSqrtPrice ≤ x)
    (hhigh : x < maxSqrtPrice) (hne : low ≠ high) {above : SqrtPrice}
    (habove : high.sqrtPrice = .ok above) (hlt : x < above) : IsTickOf x low := by
  obtain ⟨hmin, hmax⟩ := h.bounds hlow hhigh
  have hle := h.low_le_high
  have hsucc := h.high_le_succ
  have hne' := mt Int32.toInt_inj.mp hne
  have hnext : high = low + 1 := by
    rw [← Int32.toInt_inj, toInt_succ (Int32.lt_iff_toInt_lt.mpr hmax)]
    omega
  have hge : -887272 ≤ low.toInt := by
    by_contra hlow'
    obtain rfl : high = minTick := Int32.toInt_inj.mp (by rw [toInt_minTick]; omega)
    obtain rfl := eq_of_eq_ok habove sqrtPrice_minTick
    exact absurd hlow (BitVec.not_le.mpr hlt)
  exact ⟨Int32.le_iff_toInt_le.mpr hge, Int32.lt_iff_toInt_lt.mpr hmax,
    exists_price_le (toNat_pos_of_minSqrtPrice_le hlow) hge hmax.le h.low_le,
    ⟨above, hnext ▸ habove, hlt⟩⟩

end

/-- Every price between the ends of the grid has its tick, and the search finds it. -/
theorem exists_ofSqrtPrice (hlow : minSqrtPrice ≤ x) (hhigh : x < maxSqrtPrice) :
    ∃ t, ofSqrtPrice x = .ok t ∧ IsTickOf x t := by
  obtain ⟨low, high, hcandidates, hb⟩ := candidates_brackets hlow hhigh
  have hrange : ¬(x < minSqrtPrice ∨ maxSqrtPrice ≤ x) := by
    rw [not_or, BitVec.not_lt, BitVec.not_le]
    exact ⟨hlow, hhigh⟩
  rw [ofSqrtPrice, if_neg hrange, hcandidates, ok_bind]
  dsimp only
  by_cases heq : low = high
  · subst heq
    rw [if_pos rfl]
    exact ⟨low, rfl, hb.isTickOf hlow hhigh⟩
  · -- two candidates are neighbours, so the higher one is on the grid even if the lower is not
    obtain ⟨hmin, hmax⟩ := hb.bounds hlow hhigh
    have hsucc := hb.high_le_succ
    obtain ⟨above, -, habove, -⟩ := exists_sqrtPrice (t := high)
      (inBounds_of_toInt hmin (by omega))
    rw [if_neg heq, habove, ok_bind]
    by_cases hdecide : above ≤ x
    · rw [if_pos hdecide]
      exact ⟨high, rfl, hb.isTickOf_high hlow hhigh habove hdecide⟩
    · rw [if_neg hdecide]
      exact ⟨low, rfl, hb.isTickOf_low hlow hhigh heq habove (BitVec.not_le.mp hdecide)⟩

/-- The price of a tick below the greatest one is in the domain of the search, and the tick is its
own. -/
theorem isTickOf_sqrtPrice (hmin : minTick ≤ t) (hmax : t < maxTick) :
    ∃ s, t.sqrtPrice = .ok s ∧ minSqrtPrice ≤ s ∧ s < maxSqrtPrice ∧ IsTickOf s t := by
  have hlow := Int32.le_iff_toInt_le.mp hmin
  have hhigh := Int32.lt_iff_toInt_lt.mp hmax
  have hsucc := toInt_succ hmax
  rw [toInt_minTick] at hlow
  rw [toInt_maxTick] at hhigh
  obtain ⟨s, -, hs, -⟩ := exists_sqrtPrice (inBounds_of_toInt hlow hhigh.le)
  obtain ⟨s', -, hs', -⟩ := exists_sqrtPrice (t := t + 1)
    (inBounds_of_toInt (by omega) (by omega))
  have hnext : s < s' := sqrtPrice_lt_sqrtPrice hs hs' (Int32.lt_iff_toInt_lt.mpr (by omega))
  exact ⟨s, hs, (sqrtPrice_bounds hs).1, sqrtPrice_lt_sqrtPrice hs sqrtPrice_maxTick hmax,
    ⟨hmin, hmax, ⟨s, hs, BitVec.le_refl s⟩, ⟨s', hs', hnext⟩⟩⟩

/-- The search refuses exactly what has no tick, finds the greatest tick whose price is not above
the given one, and so undoes the price of a tick. -/
theorem ofSqrtPrice_inverts :
    (∀ x : SqrtPrice, x < minSqrtPrice ∨ maxSqrtPrice ≤ x →
      ofSqrtPrice x = .error .sqrtPriceOutOfBounds) ∧
    (∀ x : SqrtPrice, minSqrtPrice ≤ x → x < maxSqrtPrice →
      ∃ t s s', ofSqrtPrice x = .ok t ∧ minTick ≤ t ∧ t < maxTick ∧
        t.sqrtPrice = .ok s ∧ (t + 1).sqrtPrice = .ok s' ∧ s ≤ x ∧ x < s' ∧
        ∀ u su, sqrtPrice u = .ok su → su ≤ x → u ≤ t) ∧
    (∀ t : Tick, minTick ≤ t → t < maxTick → ∃ s, t.sqrtPrice = .ok s ∧ ofSqrtPrice s = .ok t) := by
  refine ⟨?_, ?_, ?_⟩
  · intro x hx
    exact if_pos hx
  · intro x hlow hhigh
    obtain ⟨t, ht, htick⟩ := exists_ofSqrtPrice hlow hhigh
    obtain ⟨s, hs, hsx⟩ := htick.price
    obtain ⟨s', hs', hxs⟩ := htick.next
    exact ⟨t, s, s', ht, htick.ge_min, htick.lt_max, hs, hs', hsx, hxs,
      fun u su hu hle => htick.le_of_price_le hu hle⟩
  · intro t hmin hmax
    obtain ⟨s, hs, hlow, hhigh, htick⟩ := isTickOf_sqrtPrice hmin hmax
    obtain ⟨u, hu, hutick⟩ := exists_ofSqrtPrice hlow hhigh
    exact ⟨s, hs, hutick.unique htick ▸ hu⟩

end

end LiquidityBand.Tick
