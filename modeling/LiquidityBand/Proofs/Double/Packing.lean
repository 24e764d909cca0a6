import LiquidityBand.Double.Basic
import Mathlib

/-!
# Fields of packed doubles

The arithmetic of doubles takes its operands apart into a sign, a mantissa and an exponent, works
on these, and packs the result. The exact value of a double is read from its bits. The two are put
together here, so that what is proved of the arithmetic can be said of values: an operand is taken
apart into the fields that are read, and a result of 53 bits is read as it was packed.

* `Double.unpack_toModel`: the operands of the arithmetic are the readings, which are canonical by
  `Double.read_isCanonical`;
* `Double.read_pack`: a packed significand of 53 bits reads as it was;
* `Double.value?_of_read` and `Double.toUInt256_of_read`: values, from the reading.
-/

namespace LiquidityBand.Double

open Float.Model (Format UnpackedFloat)
open Float.Model.UnpackedFloat

/-- The sign with the given bit. -/
def signOf (negative : Bool) : Sign := if negative then .negative else .positive

/-- A reading, as the arithmetic of doubles has its operands. -/
def Reading.unpacked : Reading → UnpackedFloat
  | .nan => .notANumber
  | .infinite negative => .infinity (signOf negative)
  | .finite negative significand place =>
    if h : significand = 0 then .zero (signOf negative)
    else .finite (signOf negative) significand (place - 1074) (Nat.pos_of_ne_zero h)

/-! ### Taking apart -/

section
variable (b : BitVec Format.binary64.numBits)

theorem toNat_unpackMantissa : (unpackMantissa b).toNat = b.toNat % 2 ^ 52 := by
  rw [unpackMantissa_def, BitVec.extractLsb'_toNat, Nat.shiftRight_zero]

theorem toNat_unpackExponent : (unpackExponent b).toNat = b.toNat / 2 ^ 52 % 2 ^ 11 := by
  rw [unpackExponent_def, BitVec.extractLsb'_toNat, Nat.shiftRight_eq_div_pow]

theorem ofBitVec_unpackSign : Sign.ofBitVec (unpackSign b) = signOf (b.toNat.testBit 63) := by
  have h : unpackSign b = BitVec.ofBool (b.getLsbD 63) := by
    rw [unpackSign_def]
    ext i hi
    obtain rfl : i = 0 := by omega
    simp [BitVec.getLsbD_eq_getElem (show 63 < 64 by decide)]
  rw [h, BitVec.testBit_toNat]
  cases b.getLsbD 63 <;> rfl

theorem unpackMantissa_eq_zero_iff : unpackMantissa b = 0#_ ↔ b.toNat % 2 ^ 52 = 0 := by
  rw [← BitVec.toNat_inj, toNat_unpackMantissa, BitVec.toNat_ofNat]
  rfl

theorem unpackExponent_eq_zero_iff :
    unpackExponent b = 0#_ ↔ b.toNat / 2 ^ 52 % 2 ^ 11 = 0 := by
  rw [← BitVec.toNat_inj, toNat_unpackExponent, BitVec.toNat_ofNat]
  rfl

theorem unpackExponent_eq_neg_one_iff :
    unpackExponent b = -1#_ ↔ b.toNat / 2 ^ 52 % 2 ^ 11 = 2 ^ 11 - 1 := by
  rw [← BitVec.toNat_inj, toNat_unpackExponent]
  rfl

theorem toNat_one_append (v : BitVec 52) : (1#1 ++ v).toNat = 2 ^ 52 + v.toNat := by
  rw [BitVec.toNat_append, BitVec.toNat_ofNat, Nat.shiftLeft_eq, Nat.mul_comm,
    ← Nat.two_pow_add_eq_or_of_lt v.isLt]

theorem unpack_eq :
    unpack Format.binary64 b =
      (ofFields (b.toNat.testBit 63) (b.toNat / 2 ^ 52 % 2 ^ 11) (b.toNat % 2 ^ 52)).unpacked := by
  rw [unpack, ofBitVec_unpackSign, ofFields]
  by_cases hmax : b.toNat / 2 ^ 52 % 2 ^ 11 = 2 ^ 11 - 1
  · rw [if_pos hmax, if_pos ((unpackExponent_eq_neg_one_iff b).2 hmax)]
    by_cases hm : b.toNat % 2 ^ 52 = 0
    · rw [if_pos hm, if_pos ((unpackMantissa_eq_zero_iff b).2 hm), Reading.unpacked]
    · rw [if_neg hm, if_neg (mt (unpackMantissa_eq_zero_iff b).1 hm), Reading.unpacked]
  · rw [if_neg hmax, if_neg (mt (unpackExponent_eq_neg_one_iff b).1 hmax)]
    by_cases hsub : b.toNat / 2 ^ 52 % 2 ^ 11 = 0
    · rw [if_pos hsub, if_pos ((unpackExponent_eq_zero_iff b).2 hsub), Reading.unpacked]
      by_cases hm : b.toNat % 2 ^ 52 = 0
      · rw [dif_pos ((unpackMantissa_eq_zero_iff b).2 hm), dif_pos hm]
      · rw [dif_neg (mt (unpackMantissa_eq_zero_iff b).1 hm), dif_neg hm]
        congr 1
        rw [toNat_unpackExponent, hsub]
        rfl
    · rw [if_neg hsub, if_neg (mt (unpackExponent_eq_zero_iff b).1 hsub), Reading.unpacked,
        dif_neg (by omega)]
      congr 1
      · rw [toNat_one_append, toNat_unpackMantissa]
      · rw [toNat_unpackExponent]
        simp only [Format.exponentBias]
        omega

end

/-- The operands of the arithmetic of doubles are what the doubles read as. -/
theorem unpack_toModel (x : Float) : x.toModel.unpack = (read x).unpacked :=
  unpack_eq x.toBits.toBitVec

theorem unpack_of_read {x : Float} {m k : ℕ} (h : read x = .finite false m k) (hm : 0 < m) :
    x.toModel.unpack = .finite .positive m (k - 1074) hm := by
  rw [unpack_toModel, h, Reading.unpacked, dif_neg hm.ne']
  rfl

/-! ### Canonical readings -/

/-- A significand has at most 53 bits, and there are 2046 places for it. Only at the least place it
may have fewer bits. -/
def Reading.IsCanonical : Reading → Prop
  | .finite _ significand place =>
      significand < 2 ^ 53 ∧ place ≤ 2045 ∧ (0 < place → 2 ^ 52 ≤ significand)
  | _ => True

theorem ofFields_isCanonical {negative : Bool} {exponent fraction : ℕ} (he : exponent < 2 ^ 11)
    (hf : fraction < 2 ^ 52) : (ofFields negative exponent fraction).IsCanonical := by
  unfold ofFields
  split_ifs with hmax hzero hsub
  · trivial
  · trivial
  · exact ⟨by omega, by omega, by omega⟩
  · exact ⟨by omega, by omega, by omega⟩

theorem fractionField_lt (x : Float) : fractionField x < 2 ^ 52 := Nat.mod_lt _ (by norm_num)

theorem exponentField_lt (x : Float) : exponentField x < 2 ^ 11 := Nat.mod_lt _ (by norm_num)

theorem read_isCanonical (x : Float) : (read x).IsCanonical :=
  ofFields_isCanonical (exponentField_lt x) (fractionField_lt x)

theorem read_bounds {x : Float} {negative : Bool} {m k : ℕ} (h : read x = .finite negative m k) :
    m < 2 ^ 53 ∧ k ≤ 2045 := by
  have hcanonical := read_isCanonical x
  rw [h] at hcanonical
  exact ⟨hcanonical.1, hcanonical.2.1⟩

/-! ### Packing -/

section
variable (negative : Bool) (exponent : BitVec 11) (mantissa : BitVec 52)

theorem testBit_packComponents :
    (packComponents Format.binary64 (signOf negative) exponent mantissa).toNat.testBit 63 =
      negative := by
  have h := ofBitVec_unpackSign (packComponents Format.binary64 (signOf negative) exponent mantissa)
  rw [unpackSign_packComponents, Sign.ofBitVec_toBitVec] at h
  revert h
  cases negative <;> cases Nat.testBit _ 63 <;> simp [signOf]

theorem div_mod_packComponents :
    (packComponents Format.binary64 (signOf negative) exponent mantissa).toNat / 2 ^ 52 % 2 ^ 11 =
      exponent.toNat := by
  rw [← toNat_unpackExponent, unpackExponent_packComponents]

theorem mod_packComponents :
    (packComponents Format.binary64 (signOf negative) exponent mantissa).toNat % 2 ^ 52 =
      mantissa.toNat := by
  rw [← toNat_unpackMantissa, unpackMantissa_packComponents]

end

/-- What is packed with three fields reads as these fields say. -/
theorem read_of_pack_eq {f : UnpackedFloat} {negative : Bool} {exponent : BitVec 11}
    {mantissa : BitVec 52}
    (h : pack Format.binary64 f =
      packComponents Format.binary64 (signOf negative) exponent mantissa) :
    read (.ofModel (.pack f)) = ofFields negative exponent.toNat mantissa.toNat := by
  change ofFields ((pack _ _).toNat.testBit 63) ((pack _ _).toNat / 2 ^ 52 % 2 ^ 11)
    ((pack _ _).toNat % 2 ^ 52) = _
  rw [h, testBit_packComponents, div_mod_packComponents, mod_packComponents]

section
variable {m k : ℕ}

theorem pack_eq (hlo : 2 ^ 52 ≤ m) (hhi : m < 2 ^ 53) (hk : k ≤ 2045) (sign : Sign) (hm : 0 < m) :
    pack Format.binary64 (.finite sign m (k - 1074) hm) =
      packComponents Format.binary64 sign (BitVec.ofNat 11 (k + 1)) (BitVec.ofNat 52 m) := by
  have hlog : m.log2 = 52 := (Nat.log2_eq_iff hm.ne').2 ⟨hlo, hhi⟩
  have hbiased : ((k : ℤ) - 1074 + Format.binary64.exponentBias + (52 : ℕ)).toNat = k + 1 := by
    simp only [Format.exponentBias]
    omega
  rw [pack]
  dsimp only
  rw [hbiased, if_neg (by omega), if_pos (by rw [hlog]; rfl)]

/-- A significand of exactly 53 bits reads, when it is packed, as it was. -/
theorem read_pack (hlo : 2 ^ 52 ≤ m) (hhi : m < 2 ^ 53) (hk : k ≤ 2045) (negative : Bool)
    (hm : 0 < m) :
    read (.ofModel (.pack (.finite (signOf negative) m (k - 1074) hm))) =
      .finite negative m k := by
  rw [read_of_pack_eq (pack_eq hlo hhi hk (signOf negative) hm), BitVec.toNat_ofNat,
    BitVec.toNat_ofNat, Nat.mod_eq_of_lt (by omega), ofFields, if_neg (by omega),
    if_neg (by omega)]
  congr 1
  omega

/-- With fewer bits than that, it does at the least place. -/
theorem read_pack_of_lt (hlt : m < 2 ^ 52) (negative : Bool) (hm : 0 < m) :
    read (.ofModel (.pack (.finite (signOf negative) m ((0 : ℕ) - 1074) hm))) =
      .finite negative m 0 := by
  have hlog : m.log2 < 52 := (Nat.log2_lt hm.ne').2 hlt
  have hbiased : (((0 : ℕ) : ℤ) - 1074 + Format.binary64.exponentBias + (52 : ℕ)).toNat = 1 := rfl
  have hpack : pack Format.binary64 (.finite (signOf negative) m ((0 : ℕ) - 1074) hm) =
      packComponents Format.binary64 (signOf negative) 0#11 (BitVec.ofNat 52 m) := by
    rw [pack]
    dsimp only
    rw [hbiased, if_neg (by decide), if_neg (by simp only [Format.mantissaBits]; omega)]
  rw [read_of_pack_eq hpack, BitVec.toNat_ofNat, BitVec.toNat_ofNat, Nat.mod_eq_of_lt hlt]
  rfl

end

/-- Packing keeps every canonical reading. -/
theorem read_pack_unpacked {r : Reading} (h : r.IsCanonical) :
    read (.ofModel (.pack r.unpacked)) = r := by
  cases r with
  | nan => decide +kernel
  | infinite negative => cases negative <;> decide +kernel
  | finite negative m k =>
    obtain ⟨hm, hk, hfull⟩ := h
    rw [Reading.unpacked]
    split_ifs with hzero
    · obtain rfl : k = 0 := by omega
      subst hzero
      cases negative <;> decide +kernel
    · rcases Nat.lt_or_ge m (2 ^ 52) with hsub | hnormal
      · obtain rfl : k = 0 := by omega
        exact read_pack_of_lt hsub negative _
      · exact read_pack hnormal hm hk negative _

/-! ### Values -/

theorem cast_two_pow (n : ℕ) : ((2 ^ n : ℕ) : ℚ) = 2 ^ n := by
  rw [Nat.cast_pow, Nat.cast_ofNat]

theorem mul_lt_two_pow_add {m a : ℕ} (h : m < 2 ^ a) (k : ℕ) : m * 2 ^ k < 2 ^ (a + k) := by
  rw [pow_add]
  exact Nat.mul_lt_mul_of_pos_right h (Nat.two_pow_pos k)

theorem two_pow_add_le_mul {m a : ℕ} (h : 2 ^ a ≤ m) (k : ℕ) : 2 ^ (a + k) ≤ m * 2 ^ k := by
  rw [pow_add]
  exact Nat.mul_le_mul_right _ h

theorem cast_unitsInOne : (unitsInOne : ℚ) = 2 ^ 1074 := by
  rw [unitsInOne]
  exact cast_two_pow 1074

theorem zero_lt_unitsInOne : 0 < unitsInOne := by
  rw [unitsInOne]
  positivity

theorem unitsInOne_pos : (0 : ℚ) < unitsInOne := Nat.cast_pos.2 zero_lt_unitsInOne

theorem lt_unitsInOne {n a : ℕ} (h : n < 2 ^ a) (ha : a ≤ 1074) : n < unitsInOne := by
  obtain ⟨c, hc⟩ := Nat.exists_eq_add_of_le ha
  rw [unitsInOne, hc]
  exact h.trans_le (Nat.pow_le_pow_right two_pos (Nat.le_add_right a c))

theorem two_pow_add_units (a : ℕ) : 2 ^ (a + 1074) = 2 ^ a * unitsInOne := by
  rw [unitsInOne, pow_add]

theorem two_pow_lt_units_iff {a b : ℕ} : 2 ^ a < 2 ^ b * unitsInOne ↔ a < b + 1074 := by
  rw [← two_pow_add_units, Nat.pow_lt_pow_iff_right one_lt_two]

theorem units_lt_two_pow_iff {a b : ℕ} : 2 ^ b * unitsInOne < 2 ^ a ↔ b + 1074 < a := by
  rw [← two_pow_add_units, Nat.pow_lt_pow_iff_right one_lt_two]

section
variable {x : Float} {m k : ℕ}

theorem signedUnits?_finite (negative : Bool) (m k : ℕ) :
    (Reading.finite negative m k).signedUnits? =
      some (if negative then -((m * 2 ^ k : ℕ) : ℤ) else (m * 2 ^ k : ℕ)) := by
  rw [Reading.signedUnits?, Nat.cast_mul, Nat.cast_pow]
  rfl

theorem signedUnits?_of_read (h : read x = .finite false m k) :
    signedUnits? x = some ((m * 2 ^ k : ℕ) : ℤ) := by
  rw [signedUnits?, h, signedUnits?_finite]
  rfl

theorem value?_of_read (h : read x = .finite false m k) :
    value? x = some (m * 2 ^ k / (unitsInOne : ℚ)) := by
  rw [value?, signedUnits?_of_read h, Option.map_some, Rat.mkRat_eq_div, Int.cast_natCast,
    Nat.cast_mul, Nat.cast_pow, Nat.cast_ofNat]

theorem toUInt256_of_read (h : read x = .finite false m k) :
    toUInt256 x = fit 256 .arithmeticOverflow (m * 2 ^ k / unitsInOne) := by
  rw [toUInt256, signedUnits?_of_read h]
  change (if ((m * 2 ^ k : ℕ) : ℤ) < 0 then _ else _) = _
  rw [if_neg (by omega), ← Int.natCast_div, Int.toNat_natCast]

end

end LiquidityBand.Double
