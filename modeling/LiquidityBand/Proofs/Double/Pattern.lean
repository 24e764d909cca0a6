import LiquidityBand.Proofs.Double.Packing

/-!
# The value of a pattern of 64 bits

A pattern of 64 bits has a sign bit, eleven bits for an exponent and 52 bits for a fraction. It
stands for a number with the fraction behind a leading one, times a power of two; where all bits of
the exponent are zero the leading bit is zero too, and where all of them are set there is no number.
Making a double of a pattern gives all patterns that are no number the same bits, and leaves the
others as they are, so the double has the value of its pattern.

* `Double.valueOfBits?` is the value of a pattern, by its three fields;
* `Double.read_ofBits` reads the double that a pattern makes, and `Double.value?_ofBits` is its
  value.
-/

namespace LiquidityBand.Double

open Float.Model (Format)
open Float.Model.UnpackedFloat

theorem read_ofBits (b : UInt64) :
    read (Float.ofBits b) =
      ofFields (b.toNat.testBit 63) (b.toNat / 2 ^ 52 % 2 ^ 11) (b.toNat % 2 ^ 52) := by
  change read (.ofModel (.pack (unpack Format.binary64 b.toBitVec))) = _
  rw [unpack_eq]
  exact read_pack_unpacked
    (ofFields_isCanonical (Nat.mod_lt _ (by norm_num)) (Nat.mod_lt _ (by norm_num)))

/-- The factor that a sign bit stands for. -/
def signFactor (negative : Bool) : ℚ := if negative then -1 else 1

/-- The number that a pattern of 64 bits stands for, if it is one. -/
def valueOfBits? (b : UInt64) : Option ℚ :=
  let sign := signFactor (b.toNat.testBit 63)
  let exponent : ℕ := b.toNat / 2 ^ 52 % 2 ^ 11
  let fraction : ℕ := b.toNat % 2 ^ 52
  if exponent = 2 ^ 11 - 1 then none
  else if exponent = 0 then some (sign * (fraction / 2 ^ 52) * (2 : ℚ) ^ (-1022 : ℤ))
  else some (sign * (1 + fraction / 2 ^ 52) * (2 : ℚ) ^ ((exponent : ℤ) - 1023))

theorem two_zpow_place (k : ℕ) : (2 : ℚ) ^ ((k : ℤ) - 1022) = 2 ^ 52 * 2 ^ k / unitsInOne := by
  have hunits : (unitsInOne : ℚ) = 2 ^ 52 * 2 ^ 1022 := by rw [cast_unitsInOne, ← pow_add]
  rw [zpow_sub₀ two_ne_zero, zpow_natCast, hunits, mul_div_mul_left _ _ (by positivity)]
  rfl

/-- The value of a reading, with the point behind the leading bit of its significand. -/
theorem value?_of_finite {x : Float} {negative : Bool} {m k : ℕ}
    (h : read x = .finite negative m k) :
    value? x = some (signFactor negative * (m / 2 ^ 52) * (2 : ℚ) ^ ((k : ℤ) - 1022)) := by
  have hplace : (m / 2 ^ 52 : ℚ) * (2 : ℚ) ^ ((k : ℤ) - 1022) =
      ((m * 2 ^ k : ℕ) : ℚ) / unitsInOne := by
    rw [two_zpow_place, mul_div_assoc', ← mul_assoc, div_mul_cancel₀ _ (by positivity),
      Nat.cast_mul, cast_two_pow]
  rw [value?, signedUnits?, h, signedUnits?_finite, Option.map_some, Rat.mkRat_eq_div, mul_assoc,
    hplace, signFactor]
  split_ifs
  · rw [Int.cast_neg, Int.cast_natCast, neg_div, neg_one_mul]
  · rw [Int.cast_natCast, one_mul]

/-- The exact value of a double is that of its pattern. -/
theorem value?_ofBits (b : UInt64) : value? (Float.ofBits b) = valueOfBits? b := by
  have hread := read_ofBits b
  rw [ofFields] at hread
  rw [valueOfBits?]
  split_ifs at hread ⊢ with hmax hzero hsub
  · rw [value?, signedUnits?, hread]
    rfl
  · rw [value?, signedUnits?, hread]
    rfl
  · rw [value?_of_finite hread, Nat.cast_zero, zero_sub]
  · have hexponent : ((b.toNat / 2 ^ 52 % 2 ^ 11 - 1 : ℕ) : ℤ) - 1022 =
        (b.toNat / 2 ^ 52 % 2 ^ 11 : ℕ) - 1023 := by omega
    have hlead : ((2 ^ 52 + b.toNat % 2 ^ 52 : ℕ) / 2 ^ 52 : ℚ) =
        1 + (b.toNat % 2 ^ 52 : ℕ) / 2 ^ 52 := by
      rw [Nat.cast_add, cast_two_pow, add_div, div_self (by positivity)]
    rw [value?_of_finite hread, hexponent, hlead]

end LiquidityBand.Double
