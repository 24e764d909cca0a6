import LiquidityBand.Proofs.Double.Packing

/-!
# Rounding of square roots and products of doubles

An operation on doubles computes more bits than a significand has, drops the least of them and
rounds what is left to the nearest significand; one bit too many is dropped in turn. For the square
root of a positive double there is nothing to drop at first, because the root is computed to 53
bits: the result is the number nearest to the root, off by at most half of its last place. Squared,
that is a statement on rational numbers. For the product with a power of two only zeros are dropped.

* `Double.IsRoot` says how a rounded root lies to the number it is the root of;
* `Double.read_sqrt` and `Double.read_mul_power` read the results of the two operations;
* `Double.le_iff_of_read` reads a comparison.
-/

namespace LiquidityBand.Double

open Float.Model (Format UnpackedFloat totalExponent)
open Float.Model.UnpackedFloat

/-! ### Significands of 53 bits -/

section
variable {m k : ℕ} {e : ℤ}

theorem log2_mul_two_pow (hlo : 2 ^ 52 ≤ m) (hhi : m < 2 ^ 53) (k : ℕ) :
    (m * 2 ^ k).log2 = 52 + k := by
  have hpos : 0 < m * 2 ^ k := Nat.mul_pos (by omega) (Nat.two_pow_pos k)
  refine (Nat.log2_eq_iff hpos.ne').2 ⟨?_, ?_⟩
  · exact two_pow_add_le_mul hlo k
  · rw [show 52 + k + 1 = 53 + k by omega]
    exact mul_lt_two_pow_add hhi k

theorem targetExponent_mul_two_pow (hlo : 2 ^ 52 ≤ m) (hhi : m < 2 ^ 53) (he : -1074 ≤ e + k) :
    Format.binary64.targetExponent (totalExponent (m * 2 ^ k) e) = e + k := by
  rw [Format.targetExponent, totalExponent, log2_mul_two_pow hlo hhi]
  simp only [Format.mantissaBits, Format.minExponent]
  omega

theorem exact_shiftRight (m k : ℕ) :
    ExtendedMantissa.ofMantissaAndAccuracy (m * 2 ^ k) .exact >>> k =
      ExtendedMantissa.ofMantissaAndAccuracy m .exact := by
  induction k generalizing m with
  | zero => rw [pow_zero, mul_one]; rfl
  | succ k ih =>
    have hstep : ExtendedMantissa.ofMantissaAndAccuracy (m * 2 ^ (k + 1)) .exact >>> (k + 1) =
        (ExtendedMantissa.ofMantissaAndAccuracy (m * 2 * 2 ^ k) .exact >>> k).shiftRightOne := by
      rw [pow_succ', ← mul_assoc]
      rfl
    rw [hstep, ih]
    simp [ExtendedMantissa.shiftRightOne, ExtendedMantissa.ofMantissaAndAccuracy]

theorem shiftToTargetExponent_exact (hlo : 2 ^ 52 ≤ m) (hhi : m < 2 ^ 53) (he : -1074 ≤ e + k) :
    shiftToTargetExponent Format.binary64 (m * 2 ^ k) e .exact =
      (.ofMantissaAndAccuracy m .exact, e + k) := by
  rw [shiftToTargetExponent, targetExponent_mul_two_pow hlo hhi he, shiftToExponent,
    add_sub_cancel_left, Int.toNat_natCast, exact_shiftRight]

theorem shiftToTargetExponent_of_normal (hlo : 2 ^ 52 ≤ m) (hhi : m < 2 ^ 53) (he : -1074 ≤ e)
    (accuracy : Accuracy) :
    shiftToTargetExponent Format.binary64 m e accuracy =
      (.ofMantissaAndAccuracy m accuracy, e) := by
  have htarget := targetExponent_mul_two_pow (k := 0) (e := e) hlo hhi (by omega)
  rw [pow_zero, mul_one, Nat.cast_zero, add_zero] at htarget
  rw [shiftToTargetExponent, htarget, shiftToExponent, sub_self,
    Int.toNat_zero, Nat.cast_zero, add_zero]
  rfl

theorem roundedMantissa_ofMantissaAndAccuracy (m : ℕ) (accuracy : Accuracy) :
    (ExtendedMantissa.ofMantissaAndAccuracy m accuracy).roundedMantissa =
      accuracy.roundToNearestEven m := by
  rcases accuracy with _ | _ | _ | _ <;> rfl

theorem roundWithAccuracy_eq {sign : Sign} {n : ℕ} {d : ℤ} {accuracy : Accuracy}
    {em : ExtendedMantissa} (hlo : 2 ^ 52 ≤ m) (hhi : m < 2 ^ 53) (he : -1074 ≤ e + k)
    (hm : 0 < m) (hshift : shiftToTargetExponent Format.binary64 n d accuracy = (em, e))
    (hround : em.roundedMantissa = m * 2 ^ k) :
    roundWithAccuracy Format.binary64 sign n d accuracy = .finite sign m (e + k) hm := by
  rw [roundWithAccuracy, hshift]
  dsimp only
  rw [hround, shiftToTargetExponent_exact hlo hhi he]
  exact dif_neg hm.ne'

end

/-! ### Square roots -/

/-- Where the square root of a number lies between two neighbours. -/
def rootAccuracy (n : ℕ) : Accuracy :=
  if n - n.sqrt * n.sqrt = 0 then .exact
  else .inexact (if n - n.sqrt * n.sqrt ≤ n.sqrt then .lt else .gt)

/-- The number nearest to a square root. -/
def nearestRoot (n : ℕ) : ℕ := (rootAccuracy n).roundToNearestEven n.sqrt

/-- No two numbers are equally near, because the square of a number and a half is not whole. -/
theorem nearestRoot_bounds (n : ℕ) :
    nearestRoot n * nearestRoot n ≤ n + (nearestRoot n - 1) ∧
      n ≤ nearestRoot n * nearestRoot n + nearestRoot n := by
  have hle := Nat.sqrt_le n
  have hlt := Nat.lt_succ_sqrt n
  have hsquare : (n.sqrt + 1) * (n.sqrt + 1) = n.sqrt * n.sqrt + 2 * n.sqrt + 1 := by ring
  rw [Nat.succ_eq_add_one, hsquare] at hlt
  rw [nearestRoot, rootAccuracy]
  split_ifs with hexact hbelow
  · simp only [Accuracy.roundToNearestEven]
    omega
  · simp only [Accuracy.roundToNearestEven]
    omega
  · simp only [Accuracy.roundToNearestEven, hsquare]
    omega

theorem nearestRoot_eq (n : ℕ) : nearestRoot n = n.sqrt ∨ nearestRoot n = n.sqrt + 1 := by
  rw [nearestRoot, rootAccuracy]
  split_ifs
  · exact .inl rfl
  · exact .inl rfl
  · exact .inr rfl

/-- The number `r * u` is the square root of `n`, up to half of the unit `u`. -/
structure IsRoot (n : ℚ) (r : ℕ) (u : ℚ) : Prop where
  lower : ((r - 1 / 2) * u) ^ 2 < n
  upper : n < ((r + 1 / 2) * u) ^ 2

theorem isRoot_nearestRoot {n : ℕ} (h : 0 < nearestRoot n) : IsRoot n (nearestRoot n) 1 := by
  obtain ⟨hlower, hupper⟩ := nearestRoot_bounds n
  have hlower : (nearestRoot n * nearestRoot n + 1 : ℚ) ≤ n + nearestRoot n := by
    exact_mod_cast (by omega : nearestRoot n * nearestRoot n + 1 ≤ n + nearestRoot n)
  have hupper : (n : ℚ) ≤ nearestRoot n * nearestRoot n + nearestRoot n := by
    exact_mod_cast hupper
  constructor
  · rw [mul_one]
    linarith
  · rw [mul_one]
    linarith

section
variable {n u : ℚ} {r : ℕ}

theorem IsRoot.scale {c : ℚ} (hc : 0 < c) (h : IsRoot n r u) : IsRoot (n * c ^ 2) r (u * c) := by
  constructor
  · rw [← mul_assoc, mul_pow]
    exact mul_lt_mul_of_pos_right h.lower (pow_pos hc 2)
  · rw [← mul_assoc, mul_pow]
    exact mul_lt_mul_of_pos_right h.upper (pow_pos hc 2)

section
variable (hu : 0 < u) (h : IsRoot n r u)
include hu h

theorem IsRoot.sq_lt {a : ℚ} (hpos : 0 ≤ a) (ha : a ≤ r - 1 / 2) : (a * u) ^ 2 < n := by
  have hle : a * u ≤ (r - 1 / 2) * u := mul_le_mul_of_nonneg_right ha hu.le
  exact lt_of_le_of_lt (pow_le_pow_left₀ (mul_nonneg hpos hu.le) hle 2) h.lower

theorem IsRoot.lt_sq {a : ℚ} (ha : r + 1 / 2 ≤ a) : n < (a * u) ^ 2 := by
  have hle : (r + 1 / 2) * u ≤ a * u := mul_le_mul_of_nonneg_right ha hu.le
  exact lt_of_lt_of_le h.upper (pow_le_pow_left₀ (by positivity) hle 2)

/-- A root of 53 bits is off by a relative error of at most `2 ^ -53`. -/
theorem IsRoot.relative (hr : 2 ^ 52 ≤ r) :
    ((1 - 1 / 2 ^ 53) * (r * u)) ^ 2 < n ∧ n < ((1 + 1 / 2 ^ 53) * (r * u)) ^ 2 := by
  have hr : (2 ^ 52 : ℚ) ≤ r := by exact_mod_cast hr
  rw [← mul_assoc, ← mul_assoc]
  exact ⟨h.sq_lt hu (by positivity) (by linarith), h.lt_sq hu (by linarith)⟩

end

/-- A greater unit allows for more. -/
theorem IsRoot.carry {i : ℕ} (hr : 0 < r) (hu : 0 < u) (h : IsRoot n (r * 2 ^ i : ℕ) u) :
    IsRoot n r (u * 2 ^ i) := by
  have hr : (1 : ℚ) ≤ r := by exact_mod_cast hr
  have hi : (1 : ℚ) ≤ 2 ^ i := one_le_pow₀ (by norm_num)
  have hcast : ((r * 2 ^ i : ℕ) : ℚ) = r * 2 ^ i := by rw [Nat.cast_mul, cast_two_pow]
  constructor
  · rw [mul_comm u, ← mul_assoc]
    exact h.sq_lt hu (mul_nonneg (by linarith) (by positivity)) (by rw [hcast]; linarith)
  · rw [mul_comm u, ← mul_assoc]
    exact h.lt_sq hu (by rw [hcast]; linarith)

end

theorem exists_normal {r : ℕ} (hlo : 2 ^ 52 ≤ r) (hhi : r ≤ 2 ^ 53) :
    ∃ m i, r = m * 2 ^ i ∧ 2 ^ 52 ≤ m ∧ m < 2 ^ 53 ∧ i ≤ 1 := by
  rcases hhi.lt_or_eq with hlt | rfl
  · exact ⟨r, 0, (mul_one r).symm, hlo, hlt, zero_le_one⟩
  · exact ⟨2 ^ 52, 1, by norm_num, le_rfl, by norm_num, le_rfl⟩

section
variable {m k : ℕ}

theorem sqrtCore_eq (hm : 0 < m) (hhi : m < 2 ^ 53) (hk : k ≤ 2045) :
    ∃ c j : ℕ, c + 2 * j = k + 1074 ∧ j ≤ 1533 ∧ 2 ^ 104 ≤ m * 2 ^ c ∧ m * 2 ^ c < 2 ^ 106 ∧
      sqrtCore Format.binary64 m (k - 1074) =
        ((m * 2 ^ c).sqrt, (j : ℤ) - 1074, rootAccuracy (m * 2 ^ c)) := by
  have hlog : m.log2 < 53 := (Nat.log2_lt hm.ne').2 hhi
  obtain ⟨hpow, hpow'⟩ := (Nat.log2_eq_iff hm.ne').1 rfl
  obtain ⟨j, hj⟩ : ∃ j, j = (m.log2 + k + 970) / 2 := ⟨_, rfl⟩
  obtain ⟨c, hc⟩ : ∃ c, c + 2 * j = k + 1074 := ⟨k + 1074 - 2 * j, by omega⟩
  have htarget : min ((k - 1074 : ℤ).ediv 2)
      (Format.binary64.targetExponent ((totalExponent m (k - 1074) + 1).ediv 2)) = j - 1074 := by
    change min ((k - 1074 : ℤ) / 2)
      (Format.binary64.targetExponent ((totalExponent m (k - 1074) + 1) / 2)) = _
    simp only [Format.targetExponent, totalExponent, Format.mantissaBits, Format.minExponent]
    omega
  have hshift : ((k - 1074 : ℤ) - 2 * (j - 1074)).toNat = c := by omega
  refine ⟨c, j, hc, by omega, ?_, ?_, ?_⟩
  · calc 2 ^ 104 ≤ 2 ^ (m.log2 + c) := Nat.pow_le_pow_right (by norm_num) (by omega)
      _ ≤ m * 2 ^ c := two_pow_add_le_mul hpow c
  · calc m * 2 ^ c < 2 ^ (m.log2 + 1 + c) := mul_lt_two_pow_add hpow' c
      _ ≤ 2 ^ 106 := Nat.pow_le_pow_right (by norm_num) (by omega)
  · rw [sqrtCore, htarget, hshift, Nat.shiftLeft_eq, rootAccuracy]

/-- The number whose root is taken is the value of the double, on the scale of the root. -/
theorem cast_mul_sq_place {c j : ℕ} (h : c + 2 * j = k + 1074) :
    ((m * 2 ^ c : ℕ) : ℚ) * (2 ^ j / unitsInOne) ^ 2 = m * 2 ^ k / unitsInOne := by
  have hpow : (2 : ℚ) ^ c * (2 ^ j) ^ 2 = 2 ^ k * unitsInOne := by
    rw [cast_unitsInOne, ← pow_mul', ← pow_add, h, pow_add]
  have hne : (unitsInOne : ℚ) ≠ 0 := unitsInOne_pos.ne'
  rw [Nat.cast_mul, cast_two_pow, div_pow, ← mul_div_assoc, mul_assoc, hpow, sq,
    ← mul_assoc, mul_div_mul_right _ _ hne]

/-- The square root of a positive double is a positive double of 53 bits nearest to it. -/
theorem read_sqrt {x : Float} (h : read x = .finite false m k) (hm : 0 < m) :
    ∃ r j, read x.sqrt = .finite false r j ∧ 2 ^ 52 ≤ r ∧ j ≤ 1534 ∧
      IsRoot (m * 2 ^ k / unitsInOne) r (2 ^ j / unitsInOne) := by
  obtain ⟨hhi, hk⟩ := read_bounds h
  obtain ⟨c, j, hc, hj, hn, hn', hcore⟩ := sqrtCore_eq hm hhi hk
  have hroot : 2 ^ 52 ≤ (m * 2 ^ c).sqrt := Nat.le_sqrt.2 (by omega)
  have hroot' : (m * 2 ^ c).sqrt < 2 ^ 53 := Nat.sqrt_lt.2 (by omega)
  have hnear := nearestRoot_eq (m * 2 ^ c)
  obtain ⟨r, i, hr, hrlo, hrhi, hi⟩ := exists_normal (r := nearestRoot (m * 2 ^ c))
    (by omega) (by omega)
  have hrpos : 0 < r := by omega
  have hround : roundWithAccuracy Format.binary64 .positive (m * 2 ^ c).sqrt (j - 1074)
      (rootAccuracy (m * 2 ^ c)) = .finite (signOf false) r ((j + i : ℕ) - 1074) hrpos := by
    rw [roundWithAccuracy_eq hrlo hrhi (by omega) hrpos
      (shiftToTargetExponent_of_normal hroot hroot' (by omega) _)
      ((roundedMantissa_ofMantissaAndAccuracy _ _).trans hr)]
    congr 1
    omega
  refine ⟨r, j + i, ?_, hrlo, by omega, ?_⟩
  · change read (.ofModel (.pack (UnpackedFloat.sqrt Format.binary64 x.toModel.unpack))) = _
    rw [unpack_of_read h hm, UnpackedFloat.sqrt, hcore]
    dsimp only
    rw [hround]
    exact read_pack hrlo hrhi (by omega) false hrpos
  · have hu : (0 : ℚ) < 2 ^ j / unitsInOne := div_pos (pow_pos two_pos j) unitsInOne_pos
    have hnear := (isRoot_nearestRoot (n := m * 2 ^ c) (by omega)).scale hu
    rw [cast_mul_sq_place hc, hr, one_mul] at hnear
    rw [pow_add, mul_div_right_comm (2 ^ j : ℚ)]
    exact hnear.carry hrpos hu

end

/-! ### Products with a power of two, and comparisons -/

section
variable {x y : Float} {m n k l : ℕ}

/-- A significand of 53 bits times a power of two is exact, unless the place leaves its range. -/
theorem read_mul_power (hx : read x = .finite false m k) (hlo : 2 ^ 52 ≤ m)
    (hy : read y = .finite false (2 ^ 52) l) (hl : 1022 ≤ k + l) (hk : k + l ≤ 3067) :
    read (x * y) = .finite false m (k + l - 1022) := by
  have hm : 0 < m := by omega
  have hround : roundWithAccuracy Format.binary64 (.positive * .positive) (m * 2 ^ 52)
      (k - 1074 + (l - 1074)) .exact =
        .finite (signOf false) m ((k + l - 1022 : ℕ) - 1074) hm := by
    rw [roundWithAccuracy_eq (k := 0) hlo (read_bounds hx).1 (by omega) hm
      (shiftToTargetExponent_exact hlo (read_bounds hx).1 (by omega))
      (by rw [roundedMantissa_ofMantissaAndAccuracy, pow_zero, mul_one]; rfl),
      UnpackedFloat.finite.injEq]
    exact ⟨rfl, rfl, by omega⟩
  have hmul : x * y = .ofModel (.pack (UnpackedFloat.mul Format.binary64 x.toModel.unpack
    y.toModel.unpack)) := rfl
  rw [hmul, unpack_of_read hx hm, unpack_of_read hy (by norm_num), UnpackedFloat.mul, hround]
  exact read_pack hlo (read_bounds hx).1 (by omega) false hm

theorem le_iff_of_read (hx : read x = .finite false m k) (hm : 0 < m)
    (hy : read y = .finite false n l) (hn : 0 < n) :
    y ≤ x ↔ l < k ∨ l = k ∧ n ≤ m := by
  have hle : y ≤ x ↔ (UnpackedFloat.le y.toModel.unpack x.toModel.unpack) = true := by
    change decide (_ = true) = true ↔ _
    rw [decide_eq_true_iff]
    rfl
  rw [hle, unpack_of_read hx hm, unpack_of_read hy hn, UnpackedFloat.le, UnpackedFloat.compare]
  rw [Option.any_some, Ordering.isLE_then_iff_or, Int.compare_eq_lt, Int.compare_eq_eq,
    Nat.isLE_compare]
  omega

end

end LiquidityBand.Double
