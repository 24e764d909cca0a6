import LiquidityBand.Proofs.Double.Packing

/-!
# The order of doubles

Two doubles are compared by their signs, then by the places of their significands and last by the
significands themselves. As a significand above the least place has its leading bit, the one with
the greater place is the greater number, so the comparison is that of the exact values. The two
zeros are equal, and nothing compares with what is no number.

* `Double.HasUnits` relates the operands of the arithmetic to their values;
* `Double.HasUnits.compare_eq` is the comparison of two operands, and `Double.lt_iff_of_units` and
  `Double.le_iff_of_units` are those of two doubles;
* `Double.isFinite_iff` says which doubles have a value.
-/

namespace LiquidityBand.Double

open Float.Model (UnpackedFloat)
open Float.Model.UnpackedFloat

section
variable {m n k l : ℕ}

theorem mul_two_pow_lt (hm : m < 2 ^ 53) (hn : 2 ^ 52 ≤ n) (h : k < l) :
    m * 2 ^ k < n * 2 ^ l := by
  calc m * 2 ^ k < 2 ^ (53 + k) := mul_lt_two_pow_add hm k
    _ ≤ 2 ^ (52 + l) := Nat.pow_le_pow_right two_pos (by omega)
    _ ≤ n * 2 ^ l := two_pow_add_le_mul hn l

/-- Of two canonical significands the one at the greater place counts for more. -/
theorem compare_place_then (hm : m < 2 ^ 53) (hmk : 0 < k → 2 ^ 52 ≤ m) (hn : n < 2 ^ 53)
    (hnl : 0 < l → 2 ^ 52 ≤ n) :
    (compare ((k : ℤ) - 1074) (l - 1074)).then (compare m n) =
      compare (m * 2 ^ k) (n * 2 ^ l) := by
  rcases lt_trichotomy k l with hlt | rfl | hgt
  · rw [Int.compare_eq_lt.mpr (by omega), Ordering.lt_then,
      Nat.compare_eq_lt.mpr (mul_two_pow_lt hm (hnl (by omega)) hlt)]
  · rw [Int.compare_eq_eq.mpr rfl, Ordering.eq_then]
    simp only [Nat.compare_eq_ite_lt, Nat.mul_lt_mul_right (Nat.two_pow_pos k)]
  · rw [Int.compare_eq_gt.mpr (by omega), Ordering.gt_then,
      Nat.compare_eq_gt.mpr (mul_two_pow_lt hn (hmk (by omega)) hgt)]

theorem compare_natCast (a b : ℕ) : compare (a : ℤ) b = compare a b := by
  simp only [Int.compare_eq_ite_lt, Nat.compare_eq_ite_lt, Nat.cast_lt]

theorem compare_neg_natCast (a b : ℕ) : compare (-(a : ℤ)) (-b) = (compare a b).swap := by
  rw [Nat.compare_swap]
  simp only [Int.compare_eq_ite_lt, Nat.compare_eq_ite_lt, neg_lt_neg_iff, Nat.cast_lt]

theorem units_pos (hm : 0 < m) (k : ℕ) : (0 : ℤ) < (m * 2 ^ k : ℕ) :=
  Int.natCast_pos.mpr (Nat.mul_pos hm (Nat.two_pow_pos k))

end

/-! ### Operands -/

/-- The value of an operand of the arithmetic of doubles, in units of `2 ^ -1074`. -/
inductive HasUnits : UnpackedFloat → ℤ → Prop where
  | zero (sign : Sign) : HasUnits (.zero sign) 0
  | positive {m k : ℕ} (hm : 0 < m) (hlt : m < 2 ^ 53) (hfull : 0 < k → 2 ^ 52 ≤ m) :
      HasUnits (.finite .positive m (k - 1074) hm) (m * 2 ^ k : ℕ)
  | negative {m k : ℕ} (hm : 0 < m) (hlt : m < 2 ^ 53) (hfull : 0 < k → 2 ^ 52 ≤ m) :
      HasUnits (.finite .negative m (k - 1074) hm) (-(m * 2 ^ k : ℕ))

theorem hasUnits_unpacked {r : Reading} {a : ℤ} (hr : r.IsCanonical)
    (ha : r.signedUnits? = some a) : HasUnits r.unpacked a := by
  cases r with
  | nan => cases ha
  | infinite negative => cases ha
  | finite negative m k =>
    obtain ⟨hlt, -, hfull⟩ := hr
    rw [signedUnits?_finite, Option.some.injEq] at ha
    subst ha
    rw [Reading.unpacked]
    split_ifs with hm hsign hsign
    · subst hm
      simpa using HasUnits.zero (signOf negative)
    · subst hm
      simpa using HasUnits.zero (signOf negative)
    · subst hsign
      exact .negative (Nat.pos_of_ne_zero hm) hlt hfull
    · rw [Bool.not_eq_true] at hsign
      subst hsign
      exact .positive (Nat.pos_of_ne_zero hm) hlt hfull

/-- The comparison of two operands is that of their values. -/
theorem HasUnits.compare_eq {x y : UnpackedFloat} {a b : ℤ} (hx : HasUnits x a)
    (hy : HasUnits y b) : x.compare y = some (compare a b) := by
  cases hx with
  | zero sign =>
    cases hy with
    | zero sign' => rfl
    | @positive n l hn => exact congrArg some (Int.compare_eq_lt.mpr (units_pos hn l)).symm
    | @negative n l hn =>
      exact congrArg some (Int.compare_eq_gt.mpr (neg_neg_of_pos (units_pos hn l))).symm
  | @positive m k hm hlt hfull =>
    have hpos := units_pos hm k
    cases hy with
    | zero sign => exact congrArg some (Int.compare_eq_gt.mpr hpos).symm
    | positive hn hlt' hfull' =>
      rw [compare_natCast, ← compare_place_then hlt hfull hlt' hfull']
      rfl
    | @negative n l hn =>
      have hneg := neg_neg_of_pos (units_pos hn l)
      exact congrArg some (Int.compare_eq_gt.mpr (hneg.trans hpos)).symm
  | @negative m k hm hlt hfull =>
    have hneg := neg_neg_of_pos (units_pos hm k)
    cases hy with
    | zero sign => exact congrArg some (Int.compare_eq_lt.mpr hneg).symm
    | @positive n l hn =>
      exact congrArg some (Int.compare_eq_lt.mpr (hneg.trans (units_pos hn l))).symm
    | negative hn hlt' hfull' =>
      rw [compare_neg_natCast, ← compare_place_then hlt hfull hlt' hfull']
      rfl

/-! ### Doubles -/

section
variable {x y : Float} {a b : ℤ}

theorem isFinite_iff : x.isFinite ↔ ∃ a, signedUnits? x = some a := by
  change x.toModel.unpack.isFinite = true ↔ _
  rw [unpack_toModel, signedUnits?]
  cases read x with
  | nan => simp [Reading.unpacked, Reading.signedUnits?, UnpackedFloat.isFinite]
  | infinite negative => simp [Reading.unpacked, Reading.signedUnits?, UnpackedFloat.isFinite]
  | finite negative m k =>
    rw [Reading.unpacked, signedUnits?_finite]
    split_ifs <;> simp [UnpackedFloat.isFinite]

section
variable (ha : signedUnits? x = some a) (hb : signedUnits? y = some b)
include ha hb

theorem compare_toModel :
    x.toModel.unpack.compare y.toModel.unpack = some (compare a b) := by
  rw [unpack_toModel, unpack_toModel]
  exact (hasUnits_unpacked (read_isCanonical x) ha).compare_eq
    (hasUnits_unpacked (read_isCanonical y) hb)

theorem lt_iff_of_units : x < y ↔ a < b := by
  change decide ((x.toModel.unpack.compare y.toModel.unpack == some .lt) = true) = true ↔ _
  rw [decide_eq_true_iff, compare_toModel ha hb, beq_iff_eq, Option.some.injEq, Int.compare_eq_lt]

theorem le_iff_of_units : x ≤ y ↔ a ≤ b := by
  change decide ((x.toModel.unpack.compare y.toModel.unpack).any (·.isLE) = true) = true ↔ _
  rw [decide_eq_true_iff, compare_toModel ha hb, Option.any_some, Int.isLE_compare]

end

end

end LiquidityBand.Double
