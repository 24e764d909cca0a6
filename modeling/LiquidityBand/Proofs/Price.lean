import LiquidityBand.Price
import LiquidityBand.Proofs.Double.Rounding
import LiquidityBand.Proofs.Register

/-!
# How near a square-root price is to the price it was found for

The square-root price of a price is the whole part of the rounded root, times `2 ^ 96`. The root is
off by a relative error of `2 ^ -53`, the scaling by nothing, and the whole part by less than one
unit, which is the more the smaller the square-root price is. Squared, that gives a relative error
of little more than `2 / (x + 1)` for the square-root price `x`. This is less than `10 ^ -9` from
`2 ^ 31` on. A little below, it still is, because there are no doubles near enough to the next
square-root price; `leastAccurate` is where this ends.

* `Price.toSqrtPrice_eq_ok` follows the conversion through the arithmetic of doubles;
* `Price.IsWholePart` has the two errors, and `Price.lt_sq_of_multiple` the end of what is accurate;
* `Price.toSqrtPrice_isAccurate` bounds the error for every price that is converted.
-/

namespace LiquidityBand.Price

/-- The exact price of a square-root price. -/
def exactPrice (x : SqrtPrice) : ℚ := (x.toNat / 2 ^ 96) ^ 2

/-- The least square-root price from which on a relative error is less than `10 ^ -9`. -/
def leastAccurate : ℕ := 1999999722

/-- How near the square-root price of a price is to it. -/
structure IsAccurate (p : ℚ) (x : SqrtPrice) : Prop where
  one_le : 1 ≤ x.toNat
  le_max : x ≤ maxStoredSqrtPrice
  near : |exactPrice x - p| < (2 / (x.toNat + 1) + 1 / 2 ^ 51) * p
  accurate : leastAccurate ≤ x.toNat → |exactPrice x - p| < 1 / 10 ^ 9 * p

/-! ### The steps of the conversion -/

theorem read_oneSqrtPriceDouble :
    Double.read oneSqrtPriceDouble = .finite false (2 ^ 52) 1118 := by decide +kernel

theorem read_limit : Double.read (Float.ofNat (2 ^ 160)) = .finite false (2 ^ 52) 1182 := by
  decide +kernel

theorem exists_read_of_isPositive {price : Float} (h : isPositive price = true) :
    ∃ m k, Double.read price = .finite false m k ∧ 0 < m := by
  rw [isPositive, Option.any_eq_true] at h
  obtain ⟨n, hn, hpos⟩ := h
  rw [Double.signedUnits?] at hn
  cases hread : Double.read price with
  | nan => rw [hread] at hn; cases hn
  | infinite negative => rw [hread] at hn; cases hn
  | finite negative m k =>
    rw [hread, Double.Reading.signedUnits?, Option.some.injEq] at hn
    rw [decide_eq_true_iff, ← hn] at hpos
    cases negative with
    | false =>
      refine ⟨m, k, rfl, Nat.pos_of_ne_zero ?_⟩
      rintro rfl
      simp at hpos
    | true =>
      have hunits : (0 : ℤ) ≤ m * 2 ^ k := by positivity
      rw [if_pos rfl] at hpos
      omega

/-- The conversion takes the root, moves it up by 96 bits without loss, and cuts its fraction. -/
theorem toSqrtPrice_eq_ok {price : Float} {x : SqrtPrice} (h : toSqrtPrice price = .ok x) :
    ∃ m k r j, Double.read price = .finite false m k ∧ 2 ^ 52 ≤ r ∧ r < 2 ^ 53 ∧
      Double.IsRoot (m * 2 ^ k / Double.unitsInOne) r (2 ^ j / Double.unitsInOne) ∧
      j + 96 < 1182 ∧ x.toNat = r * 2 ^ (j + 96) / Double.unitsInOne ∧ 0 < x.toNat := by
  rw [toSqrtPrice] at h
  split_ifs at h with hpos
  rw [Bool.not_eq_true, Bool.not_eq_false'] at hpos
  obtain ⟨m, k, hread, hm⟩ := exists_read_of_isPositive hpos
  obtain ⟨r, j, hsqrt, hr, hj, hroot⟩ := Double.read_sqrt hread hm
  have hscaled := Double.read_mul_power hsqrt hr read_oneSqrtPriceDouble (by omega) (by omega)
  rw [show j + 1118 - 1022 = j + 96 by omega] at hscaled
  dsimp only at h
  split_ifs at h with hwide
  rw [Double.le_iff_of_read hscaled (by omega) read_limit (by norm_num), not_or] at hwide
  rw [bind_eq_ok_iff] at h
  obtain ⟨whole, hwhole, h⟩ := h
  rw [Double.toUInt256_of_read hscaled, fit_eq_ok_iff] at hwhole
  split_ifs at h with hzero
  · cases h
  obtain rfl := Except.ok.inj h
  exact ⟨m, k, r, j, hread, hr, (Double.read_bounds hscaled).1, hroot, by omega, hwhole,
    Nat.pos_of_ne_zero fun h0 => hzero (BitVec.eq_of_toNat_eq h0)⟩

/-! ### The errors of the root and of the rounding down -/

/-- The whole part of a number that is the root of `P`, up to the relative error of a double. -/
structure IsWholePart (P Y : ℚ) (n : ℕ) : Prop where
  lower : ((1 - 1 / 2 ^ 53) * Y) ^ 2 < P
  upper : P < ((1 + 1 / 2 ^ 53) * Y) ^ 2
  le : n ≤ Y
  lt : Y < n + 1

section
variable {P Y : ℚ} {n : ℕ}

theorem IsWholePart.pos (h : IsWholePart P Y n) : 0 < P := lt_of_le_of_lt (sq_nonneg _) h.lower

/-- Above the price there is only the error of the root. -/
theorem IsWholePart.sq_lt (h : IsWholePart P Y n) : (n : ℚ) ^ 2 < (1 + 1 / 2 ^ 51) * P := by
  have hroot := h.lower
  rw [mul_pow] at hroot
  calc (n : ℚ) ^ 2 ≤ Y ^ 2 := pow_le_pow_left₀ (Nat.cast_nonneg n) h.le 2
    _ ≤ (1 + 1 / 2 ^ 51) * ((1 - 1 / 2 ^ 53) ^ 2 * Y ^ 2) := by
        rw [← mul_assoc]
        exact le_mul_of_one_le_left (sq_nonneg Y) (by norm_num)
    _ < (1 + 1 / 2 ^ 51) * P := mul_lt_mul_of_pos_left hroot (by norm_num)

/-- Below it there is also what is lost by rounding down. -/
theorem IsWholePart.lt_sq (h : IsWholePart P Y n) (hn : 1 ≤ n) :
    (1 - (2 / (n + 1) + 1 / 2 ^ 51)) * P < (n : ℚ) ^ 2 := by
  have hn : (1 : ℚ) ≤ n := by exact_mod_cast hn
  rcases le_or_gt (1 - (2 / (n + 1) + 1 / 2 ^ 51) : ℚ) 0 with hw | hw
  · exact lt_of_le_of_lt (mul_nonpos_of_nonpos_of_nonneg hw h.pos.le) (by positivity)
  · have hsq : Y ^ 2 < ((n : ℚ) + 1) ^ 2 :=
      pow_lt_pow_left₀ h.lt (zero_le_one.trans (hn.trans h.le)) (by norm_num)
    have hroot : P < (1 + 1 / 2 ^ 53) ^ 2 * ((n : ℚ) + 1) ^ 2 := by
      refine h.upper.trans ?_
      rw [mul_pow]
      exact mul_lt_mul_of_pos_left hsq (by norm_num)
    calc (1 - (2 / (n + 1) + 1 / 2 ^ 51)) * P
        < (1 - (2 / (n + 1) + 1 / 2 ^ 51)) * ((1 + 1 / 2 ^ 53) ^ 2 * (n + 1) ^ 2) :=
          mul_lt_mul_of_pos_left hroot hw
      _ = (1 + 1 / 2 ^ 53) ^ 2 * ((n : ℚ) ^ 2 - 1 - 1 / 2 ^ 51 * (n + 1) ^ 2) := by
          field_simp
          ring
      _ < (n : ℚ) ^ 2 := by nlinarith

theorem IsWholePart.abs_sub_lt {w : ℚ} (h : IsWholePart P Y n) (hw : 1 / 2 ^ 51 ≤ w)
    (hbelow : (1 - w) * P < (n : ℚ) ^ 2) : |(n : ℚ) ^ 2 - P| < w * P := by
  have habove := h.sq_lt
  have hw := mul_le_mul_of_nonneg_right hw h.pos.le
  rw [abs_lt]
  constructor <;> linarith

theorem IsWholePart.near (h : IsWholePart P Y n) (hn : 1 ≤ n) :
    |(n : ℚ) ^ 2 - P| < (2 / (n + 1) + 1 / 2 ^ 51) * P :=
  h.abs_sub_lt (le_add_of_nonneg_left (by positivity)) (h.lt_sq hn)

theorem IsWholePart.near_of_large (h : IsWholePart P Y n) (hn : 2 ^ 31 ≤ n) :
    |(n : ℚ) ^ 2 - P| < 1 / 10 ^ 9 * P := by
  have hcast : (2 ^ 31 : ℚ) ≤ n := by exact_mod_cast hn
  have hloss : (2 / (n + 1) : ℚ) ≤ 2 / (2 ^ 31 + 1) :=
    div_le_div_of_nonneg_left (by norm_num) (by norm_num) (by linarith)
  calc |(n : ℚ) ^ 2 - P| < (2 / (n + 1) + 1 / 2 ^ 51) * P := h.near (by omega)
    _ ≤ 1 / 10 ^ 9 * P := mul_le_mul_of_nonneg_right (by linarith) h.pos.le

end

/-! ### The least square-root price that is accurate -/

/-- If the price is a multiple of 512, on the scale of squares, and its root lies below the next
square-root price by `2 ^ -23`, then rounding down is accurate. -/
theorem lt_sq_of_multiple {n q : ℕ} (hn : leastAccurate ≤ n)
    (hq : (512 * q : ℚ) < (n + 1 - 1 / 2 ^ 23) ^ 2) :
    (1 - 1 / 10 ^ 9) * (512 * q : ℚ) < (n : ℚ) ^ 2 := by
  rcases Nat.lt_or_ge n (leastAccurate + 40) with hsmall | hlarge
  -- only for the first forty square-root prices it matters that the price is a multiple
  · obtain ⟨d, rfl⟩ := Nat.exists_eq_add_of_le hn
    have hd : d < 40 := by omega
    have htable : ∀ d < 40, 512 * ((2 ^ 23 * (leastAccurate + d) + 8388607) ^ 2 / 2 ^ 55) *
        999999999 < 10 ^ 9 * (leastAccurate + d) ^ 2 := by decide +kernel
    have hwhole : 2 ^ 55 * q ≤ (2 ^ 23 * (leastAccurate + d) + 8388607) ^ 2 := by
      have hscaled : (2 ^ 55 * q : ℚ) ≤ (2 ^ 23 * (leastAccurate + d : ℕ) + 8388607) ^ 2 := by
        linarith
      exact_mod_cast hscaled
    have hle : q ≤ (2 ^ 23 * (leastAccurate + d) + 8388607) ^ 2 / 2 ^ 55 :=
      (Nat.le_div_iff_mul_le (by norm_num)).2 (by rwa [mul_comm])
    have hlt : 512 * q * 999999999 < 10 ^ 9 * (leastAccurate + d) ^ 2 :=
      lt_of_le_of_lt (Nat.mul_le_mul_right _ (Nat.mul_le_mul_left _ hle)) (htable d hd)
    have hcast : (512 * q * 999999999 : ℚ) < 10 ^ 9 * (leastAccurate + d : ℕ) ^ 2 := by
      exact_mod_cast hlt
    linarith
  · have hn : (1999999762 : ℚ) ≤ n := by exact_mod_cast hlarge
    calc (1 - 1 / 10 ^ 9) * (512 * q : ℚ)
        < (1 - 1 / 10 ^ 9) * (n + 1 - 1 / 2 ^ 23) ^ 2 := mul_lt_mul_of_pos_left hq (by norm_num)
      _ ≤ (n : ℚ) ^ 2 := by nlinarith

section
variable {P Y : ℚ} {n : ℕ}

theorem IsWholePart.two_pow_lt (h : IsWholePart P Y n) (hn : leastAccurate ≤ n) : 2 ^ 61 < P := by
  have hsq : (1999999722 : ℚ) ^ 2 ≤ (n : ℚ) ^ 2 :=
    pow_le_pow_left₀ (by norm_num) (by exact_mod_cast hn) 2
  have habove := h.sq_lt
  linarith

theorem IsWholePart.near_of_multiple {q : ℕ} (h : IsWholePart P Y n) (hn : leastAccurate ≤ n)
    (hq : P = 512 * q) (hhalf : P < (n + 1 - 1 / 2 ^ 23) ^ 2) :
    |(n : ℚ) ^ 2 - P| < 1 / 10 ^ 9 * P := by
  refine h.abs_sub_lt (by norm_num) ?_
  rw [hq] at hhalf ⊢
  exact lt_sq_of_multiple hn hhalf

end

/-- A price of at least `2 ^ 61`, on the scale of squares, is a multiple of 512. -/
theorem exists_multiple {m k : ℕ} (hm : m < 2 ^ 53)
    (hlarge : (2 ^ 61 : ℚ) < m * 2 ^ k / Double.unitsInOne * (2 ^ 96) ^ 2) :
    ∃ q : ℕ, (m * 2 ^ k / Double.unitsInOne * (2 ^ 96) ^ 2 : ℚ) = 512 * q := by
  have hplace : 2 ^ 61 * Double.unitsInOne < 2 ^ (53 + k + 192) := by
    rw [div_mul_eq_mul_div, lt_div_iff₀ Double.unitsInOne_pos, ← pow_mul] at hlarge
    have hcast : ((2 ^ 61 * Double.unitsInOne : ℕ) : ℚ) < ((m * 2 ^ k * 2 ^ 192 : ℕ) : ℚ) := by
      rw [Nat.cast_mul, Nat.cast_mul, Nat.cast_mul, Double.cast_two_pow, Double.cast_two_pow,
        Double.cast_two_pow]
      exact hlarge
    exact (Nat.cast_lt.1 hcast).trans
      (Double.mul_lt_two_pow_add (Double.mul_lt_two_pow_add hm k) 192)
  rw [Double.units_lt_two_pow_iff] at hplace
  obtain ⟨c, rfl⟩ : ∃ c, k = c + 891 := ⟨k - 891, by omega⟩
  have hpow : (2 ^ 891 * (2 ^ 96) ^ 2 : ℚ) = 512 * Double.unitsInOne := by
    rw [Double.cast_unitsInOne, ← pow_mul, ← pow_add, show (512 : ℚ) = 2 ^ 9 by norm_num,
      ← pow_add]
  refine ⟨m * 2 ^ c, ?_⟩
  rw [pow_add, ← mul_assoc, div_mul_eq_mul_div, mul_assoc (m * 2 ^ c : ℚ), hpow, ← mul_assoc,
    mul_div_assoc, div_self Double.unitsInOne_pos.ne', mul_one, mul_comm, Nat.cast_mul,
    Double.cast_two_pow]

/-! ### The unit of the root -/

/-- The last place of a root at place `j`, on the scale of square-root prices. -/
def rootUnit (j : ℕ) : ℚ := 2 ^ j / Double.unitsInOne * 2 ^ 96

theorem rootUnit_eq (j : ℕ) : rootUnit j = 2 ^ (j + 96) / Double.unitsInOne := by
  rw [rootUnit, pow_add, div_mul_eq_mul_div]

theorem rootUnit_pos (j : ℕ) : 0 < rootUnit j :=
  mul_pos (div_pos (pow_pos two_pos j) Double.unitsInOne_pos) (by norm_num)

section
variable {r j n : ℕ}

/-- From `2 ^ 30` to `2 ^ 31` the last place of a significand of 53 bits is `2 ^ -22`. -/
theorem rootUnit_eq_of_lt (hr : 2 ^ 52 ≤ r) (hr' : r < 2 ^ 53) (hlo : 2 ^ 30 ≤ n)
    (hhi : n < 2 ^ 31) (hn : n = r * 2 ^ (j + 96) / Double.unitsInOne) :
    rootUnit j = 1 / 2 ^ 22 := by
  have hpos : 0 < Double.unitsInOne := Double.zero_lt_unitsInOne
  have hupper : 2 ^ (52 + (j + 96)) < 2 ^ 31 * Double.unitsInOne :=
    calc 2 ^ (52 + (j + 96)) ≤ r * 2 ^ (j + 96) := Double.two_pow_add_le_mul hr (j + 96)
      _ < 2 ^ 31 * Double.unitsInOne := (Nat.div_lt_iff_lt_mul hpos).1 (hn ▸ hhi)
  have hlower : 2 ^ 30 * Double.unitsInOne < 2 ^ (53 + (j + 96)) :=
    calc 2 ^ 30 * Double.unitsInOne ≤ r * 2 ^ (j + 96) :=
          (Nat.le_div_iff_mul_le hpos).1 (hn ▸ hlo)
      _ < 2 ^ (53 + (j + 96)) := Double.mul_lt_two_pow_add hr' (j + 96)
  rw [Double.two_pow_lt_units_iff] at hupper
  rw [Double.units_lt_two_pow_iff] at hlower
  obtain rfl : j = 956 := by omega
  rw [rootUnit_eq, Double.cast_unitsInOne,
    div_eq_div_iff (pow_ne_zero 1074 two_ne_zero) (pow_ne_zero 22 two_ne_zero), one_mul, ← pow_add]

section
variable {P : ℚ} (hr : 2 ^ 52 ≤ r) (hroot : Double.IsRoot P r (rootUnit j))
  (hn : n = r * 2 ^ (j + 96) / Double.unitsInOne)
include hr hroot hn

theorem isWholePart_of_isRoot : IsWholePart P (r * rootUnit j) n := by
  obtain ⟨hlower, hupper⟩ := hroot.relative (rootUnit_pos j) hr
  have hvalue : r * rootUnit j = ((r * 2 ^ (j + 96) : ℕ) : ℚ) / Double.unitsInOne := by
    rw [rootUnit_eq, Nat.cast_mul, Double.cast_two_pow, mul_div_assoc]
  refine ⟨hlower, hupper, ?_, ?_⟩
  · rw [hvalue, hn]
    exact Nat.cast_div_le
  · rw [hvalue, hn, ← Nat.floor_div_eq_div (K := ℚ)]
    exact Nat.lt_floor_add_one _

theorem lt_sq_half_below (hr' : r < 2 ^ 53) (hlo : 2 ^ 30 ≤ n) (hhi : n < 2 ^ 31) :
    P < (n + 1 - 1 / 2 ^ 23) ^ 2 := by
  have hunit := rootUnit_eq_of_lt hr hr' hlo hhi hn
  have hlt := (isWholePart_of_isRoot hr hroot hn).lt
  rw [hunit, mul_one_div, div_lt_iff₀ (by norm_num)] at hlt
  have hnat : r < (n + 1) * 2 ^ 22 := by exact_mod_cast hlt
  have hwhole : (r + 1 : ℚ) ≤ (n + 1) * 2 ^ 22 := by exact_mod_cast hnat
  have hhalf : ((n + 1) * 2 ^ 22 - 1 / 2) * rootUnit j = n + 1 - 1 / 2 ^ 23 := by
    rw [hunit]
    ring
  rw [← hhalf]
  exact hroot.lt_sq (rootUnit_pos j) (by linarith)

end

theorem le_maxStoredSqrtPrice {x : SqrtPrice} (hr : r < 2 ^ 53) (hj : j + 96 < 1182)
    (hx : x.toNat = r * 2 ^ (j + 96) / Double.unitsInOne) : x ≤ maxStoredSqrtPrice := by
  have hpos : 0 < Double.unitsInOne := Double.zero_lt_unitsInOne
  have hlt : x.toNat < 2 ^ 160 := by
    rw [hx, Nat.div_lt_iff_lt_mul hpos, ← Double.two_pow_add_units]
    calc r * 2 ^ (j + 96) < 2 ^ (53 + (j + 96)) := Double.mul_lt_two_pow_add hr (j + 96)
      _ ≤ 2 ^ (160 + 1074) := Nat.pow_le_pow_right two_pos (by omega)
  rw [BitVec.le_def, show maxStoredSqrtPrice.toNat = 2 ^ 160 - 1 from rfl]
  exact Nat.le_sub_one_of_lt hlt

end

/-! ### The error of the conversion -/

theorem abs_exactPrice_sub_lt_iff {p w : ℚ} {x : SqrtPrice} :
    |exactPrice x - p| < w * p ↔
      |(x.toNat : ℚ) ^ 2 - p * (2 ^ 96) ^ 2| < w * (p * (2 ^ 96) ^ 2) := by
  have hpos : (0 : ℚ) < (2 ^ 96) ^ 2 := by norm_num
  have hscale : (x.toNat : ℚ) ^ 2 - p * (2 ^ 96) ^ 2 = (exactPrice x - p) * (2 ^ 96) ^ 2 := by
    rw [exactPrice, div_pow, sub_mul, div_mul_cancel₀ _ hpos.ne']
  rw [hscale, abs_mul, abs_of_pos hpos, ← mul_assoc, mul_lt_mul_iff_left₀ hpos]

/-- A price that is converted becomes a square-root price from 1 to the greatest one that can be
stored. Its relative error is less than `2 / (x + 1)` and the little that the root may be off, and
less than `10 ^ -9` from `leastAccurate` on. -/
theorem toSqrtPrice_isAccurate (price : Float) (p : ℚ) (x : SqrtPrice)
    (hp : Double.value? price = some p) (h : toSqrtPrice price = .ok x) : IsAccurate p x := by
  obtain ⟨m, k, r, j, hread, hr, hr', hroot, hj, hx, hpos⟩ := toSqrtPrice_eq_ok h
  rw [Double.value?_of_read hread, Option.some.injEq] at hp
  have hscaled : Double.IsRoot (p * (2 ^ 96) ^ 2) r (rootUnit j) := by
    rw [← hp]
    exact hroot.scale (by norm_num)
  have hpart := isWholePart_of_isRoot hr hscaled hx
  refine ⟨hpos, le_maxStoredSqrtPrice hr' hj hx, ?_, ?_⟩
  · rw [abs_exactPrice_sub_lt_iff]
    exact hpart.near hpos
  · intro hleast
    rw [abs_exactPrice_sub_lt_iff]
    rcases Nat.lt_or_ge x.toNat (2 ^ 31) with hhi | hlarge
    · have hlo : 2 ^ 30 ≤ x.toNat := le_trans (by decide) hleast
      obtain ⟨q, hq⟩ := exists_multiple (Double.read_bounds hread).1
        (by rw [hp]; exact hpart.two_pow_lt hleast)
      rw [hp] at hq
      exact hpart.near_of_multiple hleast hq (lt_sq_half_below hr hscaled hx hr' hlo hhi)
    · exact hpart.near_of_large hlarge

/-- The least double with the least accurate square-root price. -/
theorem toSqrtPrice_isAccurate_at_least :
    Double.value? (Float.ofBits 0x37cbc16ce5da99df) = some (3999998888000077312 / 2 ^ 192) ∧
      toSqrtPrice (Float.ofBits 0x37cbc16ce5da99df) = .ok 1999999722 ∧
      IsAccurate (3999998888000077312 / 2 ^ 192) 1999999722 := by
  have hp : Double.value? (Float.ofBits 0x37cbc16ce5da99df) =
      some (3999998888000077312 / 2 ^ 192) := by decide +kernel
  have hx : toSqrtPrice (Float.ofBits 0x37cbc16ce5da99df) = .ok 1999999722 := by decide +kernel
  exact ⟨hp, hx, toSqrtPrice_isAccurate _ _ _ hp hx⟩

/-- The double before it has the square-root price before it, which is off by more than
`10 ^ -9`, though the next one would not be. -/
theorem toSqrtPrice_inaccurate_below :
    Double.value? (Float.ofBits 0x37cbc16ce5da99de) = some (3999998888000076800 / 2 ^ 192) ∧
      (0 : ℚ) < 3999998888000076800 / 2 ^ 192 ∧
      toSqrtPrice (Float.ofBits 0x37cbc16ce5da99de) = .ok 1999999721 ∧
      ¬|exactPrice 1999999721 - 3999998888000076800 / 2 ^ 192| <
        1 / 10 ^ 9 * (3999998888000076800 / 2 ^ 192) ∧
      |exactPrice 1999999722 - 3999998888000076800 / 2 ^ 192| <
        1 / 10 ^ 9 * (3999998888000076800 / 2 ^ 192) :=
  ⟨by decide +kernel, by norm_num, by decide +kernel, by decide +kernel, by decide +kernel⟩

end LiquidityBand.Price
