import LiquidityBand.Proofs.Double.Order
import LiquidityBand.Proofs.Double.Pattern
import LiquidityBand.Proofs.Guarded.Words

/-!
# The whole part of a double with guards

A double is floored into 256 bits from the fields of its pattern. What is not finite or negative is
refused, and so is what reaches `2 ^ 256`. The exponent that is left says by how many places the
significand of 53 bits is to be moved: up by at most 203, down by at most 52, and if it would have
to be moved down by more than that, the number is less than one.

* `Double.Floors` lists what flooring a number gives, and `Double.toUInt256_floors` says that the
  exact value is floored;
* `wholePart` is the conversion by fields, each step with its guard; `moved_eq` is its shift, and
  `wholePart_eq` says that it gives the same;
* `wholePart_exact` is the result for every pattern of 64 bits.
-/

namespace LiquidityBand

namespace Double

/-- What flooring a number into 256 bits gives, and what it gives without a number. -/
inductive Floors : Option ℚ → Except Error UInt256 → Prop where
  | noNumber : Floors none (.error .unusablePrice)
  | negative {v : ℚ} (h : v < 0) : Floors (some v) (.error .unusablePrice)
  | tooWide {v : ℚ} (h : 2 ^ 256 ≤ v) : Floors (some v) (.error .arithmeticOverflow)
  | whole {v : ℚ} {n : UInt256} (h0 : 0 ≤ v) (h256 : v < 2 ^ 256) (h : n.toNat = ⌊v⌋) :
      Floors (some v) (.ok n)

theorem floors_div {d : ℕ} (hd : 0 < d) (a : ℕ) :
    Floors (some (a / d)) (fit 256 .arithmeticOverflow (a / d)) := by
  have hpos : (0 : ℚ) < d := Nat.cast_pos.mpr hd
  rcases Nat.lt_or_ge (a / d) (2 ^ 256) with hlt | hge
  · have ha : (a : ℚ) < 2 ^ 256 * d := by exact_mod_cast (Nat.div_lt_iff_lt_mul hd).mp hlt
    rw [fit_eq_ok hlt]
    refine .whole (by positivity) ((div_lt_iff₀ hpos).mpr ha) ?_
    rw [BitVec.toNat_ofNat, Nat.mod_eq_of_lt hlt, Int.natCast_div]
    exact (Rat.floor_intCast_div_natCast a d).symm
  · have ha : (2 ^ 256 * d : ℚ) ≤ a := by exact_mod_cast (Nat.le_div_iff_mul_le hd).mp hge
    rw [fit_eq_error hge]
    exact .tooWide ((le_div_iff₀ hpos).mpr ha)

/-- The conversion floors the exact value of a double. -/
theorem toUInt256_floors (x : Float) : Floors (value? x) (toUInt256 x) := by
  rw [value?, toUInt256]
  cases signedUnits? x with
  | none => exact .noNumber
  | some n =>
    rw [Option.map_some, Rat.mkRat_eq_div]
    dsimp only
    split_ifs with hneg
    · exact .negative (div_neg_of_neg_of_pos (Int.cast_lt_zero.mpr hneg) unitsInOne_pos)
    · obtain ⟨a, rfl⟩ := Int.eq_ofNat_of_zero_le (not_lt.mp hneg)
      rw [← Int.natCast_div, Int.toNat_natCast, Int.cast_natCast]
      exact floors_div zero_lt_unitsInOne a

/-- The fields of a double that is not negative. -/
theorem fields_of_units {x : Float} {a : ℕ} (h : signedUnits? x = some (a : ℤ)) :
    (exponentField x = 0 ∧ a < 2 ^ 52) ∨
    ∃ k, exponentField x = k + 1 ∧ a = (2 ^ 52 + fractionField x) * 2 ^ k := by
  have hfraction := fractionField_lt x
  rw [signedUnits?, read, ofFields] at h
  split_ifs at h with hmax hinfinite hsub
  · cases h
  · cases h
  · rw [signedUnits?_finite, pow_zero, mul_one, Option.some.injEq] at h
    refine .inl ⟨hsub, ?_⟩
    split_ifs at h <;> omega
  · have hpos := units_pos (show 0 < 2 ^ 52 + fractionField x by omega) (exponentField x - 1)
    rw [signedUnits?_finite, Option.some.injEq] at h
    refine .inr ⟨exponentField x - 1, by omega, ?_⟩
    split_ifs at h <;> omega

end Double

namespace Guarded

open Double (unitsInOne)

/-! ### The conversion by fields -/

/-- The least number that 256 bits do not hold, as a double. -/
def tooWide : Float := Float.ofNat (2 ^ 256)

/-- The exponent field of a pattern. -/
def exponentField (bits : UInt64) : Except Error Nat := do
  return ((← wordDown bits 52) &&& 0x7ff).toNat

/-- The fraction field of a pattern, behind a leading one. -/
def significand (bits : UInt64) : Except Error Nat := do
  let lead ← wordUp 1 52
  let mask ← difference lead.toNat 1
  return ((bits &&& UInt64.ofNat mask) ||| lead).toNat

/-- The number of places by which a significand is moved up. -/
def places (exponent : Nat) : Except Error Int := do
  let unbiased ← storeSigned 32 ((← storeSigned 32 exponent) - 1023)
  storeSigned 32 (unbiased - 52)

/-- The significand, moved by a number of places. -/
def moved (m : Nat) (shift : Int) : Except Error Nat :=
  if 0 ≤ shift then shiftUp 256 m shift.toNat
  else if -53 < shift then do shiftDown 256 m (← storeSigned 32 (-shift)).toNat
  else return 0

/-- The whole part of a number from 0 to `2 ^ 256`, from its pattern. -/
def ofPattern (bits : UInt64) : Except Error UInt256 := do
  let exponent ← exponentField bits
  if exponent = 0 then return 0
  else do
    let m ← significand bits
    let shift ← places exponent
    return BitVec.ofNat 256 (← moved m shift)

/-- The whole part of a double. -/
def wholePart (x : Float) : Except Error UInt256 :=
  if ¬x.isFinite ∨ x < 0 then throw .unusablePrice
  else if tooWide ≤ x then throw .arithmeticOverflow
  else ofPattern x.toBits

/-! ### The fields -/

section
variable (x : Float)

theorem exponentField_eq : exponentField x.toBits = .ok (Double.exponentField x) := by
  rw [exponentField, wordDown_eq (by decide), ok_bind, pure_eq_ok, UInt64.toNat_and,
    UInt64.toNat_shiftRight]
  refine congrArg Except.ok ?_
  change (x.toBits.toNat >>> 52) &&& (2 ^ 11 - 1) = _
  rw [Nat.and_two_pow_sub_one_eq_mod, Nat.shiftRight_eq_div_pow]
  rfl

theorem significand_eq : significand x.toBits = .ok (2 ^ 52 + Double.fractionField x) := by
  have hlead : ((1 : UInt64) <<< UInt64.ofNat 52).toNat = 2 ^ 52 := by decide
  have hor := Nat.or_two_pow_eq_add_of_lt (Double.fractionField_lt x)
  rw [significand, wordUp_eq (by decide), ok_bind, hlead, difference_eq_ok (by decide), ok_bind,
    pure_eq_ok, UInt64.toNat_or, UInt64.toNat_and, hlead]
  refine congrArg Except.ok ?_
  change (x.toBits.toNat &&& (2 ^ 52 - 1)) ||| 2 ^ 52 = _
  rw [Nat.and_two_pow_sub_one_eq_mod, Nat.add_comm]
  exact hor

end

theorem places_eq {exponent : ℕ} (h : exponent < 2 ^ 11) :
    places exponent = .ok ((exponent : ℤ) - 1075) := by
  rw [places, storeSigned_eq (by omega) (by omega), ok_bind, storeSigned_eq (by omega) (by omega),
    ok_bind, storeSigned_eq (by omega) (by omega)]
  exact congrArg Except.ok (by ring)

/-- Moved to its place, the significand has the fraction of the number cut off. -/
theorem moved_eq {m k : ℕ} (hm : m < 2 ^ 53) (hk : k ≤ 1277) :
    moved m ((k : ℤ) - 1074) = .ok (m * 2 ^ k / unitsInOne) := by
  rw [moved]
  split_ifs with hup hdown
  · obtain ⟨c, rfl⟩ : ∃ c, k = c + 1074 := ⟨k - 1074, by omega⟩
    have hfits : m * 2 ^ c < 2 ^ 256 :=
      (Double.mul_lt_two_pow_add hm c).trans_le (Nat.pow_le_pow_right two_pos (by omega))
    rw [show (((c + 1074 : ℕ) : ℤ) - 1074).toNat = c by omega, shiftUp_eq (by omega) hfits,
      Double.two_pow_add_units, ← mul_assoc, Nat.mul_div_cancel _ Double.zero_lt_unitsInOne]
  · obtain ⟨d, hd⟩ : ∃ d, 1074 = d + k := ⟨1074 - k, by omega⟩
    have hunits : unitsInOne = 2 ^ d * 2 ^ k := by rw [unitsInOne, hd, pow_add]
    rw [storeSigned_eq (by omega) (by omega), ok_bind,
      show (-((k : ℤ) - 1074)).toNat = d by omega, shiftDown_eq (by omega), hunits,
      Nat.mul_div_mul_right _ _ (Nat.two_pow_pos k)]
  · -- all 53 bits are behind the point
    rw [Nat.div_eq_of_lt (Double.lt_unitsInOne (Double.mul_lt_two_pow_add hm k) (by omega))]
    rfl

/-! ### The whole part -/

section
variable {x : Float} {a : ℕ}

theorem ofPattern_eq (h : Double.signedUnits? x = some (a : ℤ)) (hfits : a < 2 ^ 256 * unitsInOne) :
    ofPattern x.toBits = .ok (BitVec.ofNat 256 (a / unitsInOne)) := by
  rw [ofPattern, exponentField_eq, ok_bind]
  rcases Double.fields_of_units h with ⟨hzero, hsmall⟩ | ⟨k, hexponent, rfl⟩
  · rw [if_pos hzero, Nat.div_eq_of_lt (Double.lt_unitsInOne hsmall (by norm_num))]
    rfl
  · have hfraction := Double.fractionField_lt x
    have hlead : 2 ^ (52 + k) < 2 ^ 256 * unitsInOne :=
      (Double.two_pow_add_le_mul (Nat.le_add_right _ _) k).trans_lt hfits
    rw [Double.two_pow_lt_units_iff] at hlead
    rw [if_neg (by omega), significand_eq, ok_bind, places_eq (Double.exponentField_lt x), ok_bind,
      hexponent, show ((k + 1 : ℕ) : ℤ) - 1075 = k - 1074 by omega,
      moved_eq (by omega) (by omega)]
    rfl

end

theorem units_tooWide :
    Double.signedUnits? tooWide = some ((2 ^ 256 * unitsInOne : ℕ) : ℤ) := by
  have hread : Double.read tooWide = .finite false (2 ^ 52) 1278 := by decide +kernel
  have hplace {k l : ℕ} (h : 52 + k = l + 1074) : 2 ^ 52 * 2 ^ k = 2 ^ l * unitsInOne := by
    rw [← pow_add, h, Double.two_pow_add_units]
  rw [Double.signedUnits?_of_read hread, hplace (show 52 + 1278 = 256 + 1074 from rfl)]

theorem wholePart_eq (x : Float) : wholePart x = Double.toUInt256 x := by
  rw [wholePart, Double.toUInt256]
  cases hn : Double.signedUnits? x with
  | none =>
    have hfinite : ¬x.isFinite := by
      rw [Double.isFinite_iff, hn]
      rintro ⟨a, ha⟩
      cases ha
    rw [if_pos (.inl hfinite)]
    rfl
  | some n =>
    have hfinite : x.isFinite := Double.isFinite_iff.mpr ⟨n, hn⟩
    have hlt : x < 0 ↔ n < 0 := Double.lt_iff_of_units hn (by decide +kernel)
    have hle : tooWide ≤ x ↔ ((2 ^ 256 * unitsInOne : ℕ) : ℤ) ≤ n :=
      Double.le_iff_of_units units_tooWide hn
    dsimp only
    by_cases hneg : n < 0
    · rw [if_pos (.inr (hlt.mpr hneg)), if_pos hneg]
      rfl
    · rw [if_neg (not_or.mpr ⟨not_not.mpr hfinite, mt hlt.mp hneg⟩), if_neg hneg]
      obtain ⟨a, rfl⟩ := Int.eq_ofNat_of_zero_le (not_lt.mp hneg)
      rw [Nat.cast_le, ← Nat.le_div_iff_mul_le Double.zero_lt_unitsInOne] at hle
      rw [← Int.natCast_div, Int.toNat_natCast]
      by_cases hwide : tooWide ≤ x
      · rw [if_pos hwide, fit_eq_error (hle.mp hwide)]
        rfl
      · have hfits := not_le.mp (mt hle.mpr hwide)
        rw [if_neg hwide, fit_eq_ok hfits]
        exact ofPattern_eq hn ((Nat.div_lt_iff_lt_mul Double.zero_lt_unitsInOne).mp hfits)

/-- Whatever the 64 bits of a double are, the conversion by fields floors the number that they stand
for: into 256 bits if it is neither negative nor too great for them, and else with the refusal that
says which. No shift reaches its width, and none up loses a bit. -/
theorem wholePart_exact (b : UInt64) :
    wholePart (Float.ofBits b) = Double.toUInt256 (Float.ofBits b) ∧
    Double.Floors (Double.valueOfBits? b) (Double.toUInt256 (Float.ofBits b)) := by
  refine ⟨wholePart_eq (Float.ofBits b), ?_⟩
  rw [← Double.value?_ofBits]
  exact Double.toUInt256_floors (Float.ofBits b)

/-- The greatest double below `2 ^ 256` keeps all 53 bits of its significand. -/
example : wholePart (Float.ofBits 0x4fefffffffffffff) =
    .ok (BitVec.ofNat 256 (2 ^ 256 - 2 ^ 203)) := by
  decide +kernel

end Guarded

end LiquidityBand
