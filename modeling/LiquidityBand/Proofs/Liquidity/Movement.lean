import LiquidityBand.Proofs.Liquidity.TwoSided

/-!
# Amounts along the price

While the price rises from the lower to the upper price of its range, a position gives away token 0
and takes in token 1; outside the range nothing moves. So whatever the three places of the current
price do, they are one formula for either token, at the price moved into the range.

* `SqrtRange.clamp` is the price moved into the range, and it keeps the order of prices;
* `Liquidity.toNat_held` are the two formulas;
* `Liquidity.amounts_monotone` compares what a position holds at two prices.
-/

namespace LiquidityBand

namespace SqrtRange

/-- The nearest price to the current one in a range. -/
def clamp (r : SqrtRange) (current : SqrtPrice) : ℕ :=
  max r.lower.toNat (min current.toNat r.upper.toNat)

section
variable {r : SqrtRange} {c c' : SqrtPrice}

theorem lower_le_clamp (r : SqrtRange) (c : SqrtPrice) : r.lower.toNat ≤ r.clamp c :=
  le_max_left _ _

theorem IsStored.clamp_pos (h : r.IsStored) (c : SqrtPrice) : 0 < r.clamp c :=
  lt_of_lt_of_le h.pos (lower_le_clamp r c)

theorem clamp_mono (h : c ≤ c') : r.clamp c ≤ r.clamp c' :=
  max_le_max le_rfl (min_le_min (BitVec.le_def.mp h) le_rfl)

theorem clamp_below (h : c ≤ r.lower) : r.clamp c = r.lower.toNat :=
  max_eq_left ((min_le_left _ _).trans (BitVec.le_def.mp h))

theorem clamp_inside (hl : r.lower < c) (hu : c < r.upper) : r.clamp c = c.toNat := by
  rw [clamp, min_eq_left (BitVec.lt_def.mp hu).le, max_eq_right (BitVec.lt_def.mp hl).le]

theorem IsStored.clamp_above (h : r.IsStored) (hu : r.upper ≤ c) : r.clamp c = r.upper.toNat := by
  rw [clamp, min_eq_right (BitVec.le_def.mp hu), max_eq_right h.lt.le]

end

end SqrtRange

namespace Liquidity

section
variable {r : SqrtRange} {current : SqrtPrice} {l : Liquidity} {up : Bool} {held : AmountPair}

/-- What a position holds: token 0 for the part of its range above the price, token 1 for the part
below, each rounded once. -/
theorem toNat_held (h : r.IsStored) (hheld : amounts current r l up = .ok held) :
    held.amount0.toNat = roundedDiv up
      (l.toNat * 2 ^ 96 * (r.upper.toNat - r.clamp current)) (r.upper.toNat * r.clamp current) ∧
    held.amount1.toNat = roundedDiv up (l.toNat * (r.clamp current - r.lower.toNat)) (2 ^ 96) := by
  rcases amounts_cases h hheld with ⟨hlow, h0, h1⟩ | ⟨hlow, hhigh, h0, h1⟩ | ⟨hhigh, h0, h1⟩
  · rw [amount0_eq_ok_iff h] at h0
    rw [SqrtRange.clamp_below hlow, h0, h1, Nat.sub_self, Nat.mul_zero, roundedDiv_zero]
    exact ⟨rfl, rfl⟩
  · rw [amount0_eq_ok_iff (h.above hlow hhigh)] at h0
    rw [amount1_eq_ok_iff (h.below hlow hhigh)] at h1
    rw [SqrtRange.clamp_inside hlow hhigh]
    exact ⟨h0, h1⟩
  · rw [amount1_eq_ok_iff h] at h1
    rw [h.clamp_above hhigh, h0, h1, Nat.sub_self, Nat.mul_zero, roundedDiv_zero]
    exact ⟨rfl, rfl⟩

theorem isStored_of_amounts (h : amounts current r l up = .ok held) : r.IsStored :=
  SqrtRange.isStored_of_bind h

end

/-- Of token 0, the part of a range above the price `x` takes the quotient of `u - x` by `u * x`,
which falls as the price rises. -/
theorem sub_mul_le_sub_mul {x y : ℕ} (hxy : x ≤ y) (n u : ℕ) :
    n * (u - y) * (u * x) ≤ n * (u - x) * (u * y) :=
  Nat.mul_le_mul (Nat.mul_le_mul_left _ (Nat.sub_le_sub_left hxy u)) (Nat.mul_le_mul_left _ hxy)

/-- As the price rises, a position never holds more of token 0 and never less of token 1, wherever
the two prices are and however the amounts are rounded. -/
theorem amounts_monotone (r : SqrtRange) (l : Liquidity) (up : Bool) (c c' : SqrtPrice)
    (a b : AmountPair) (hc : c ≤ c') (ha : amounts c r l up = .ok a)
    (hb : amounts c' r l up = .ok b) : b.amount0 ≤ a.amount0 ∧ a.amount1 ≤ b.amount1 := by
  have hr := isStored_of_amounts ha
  have hclamp : r.clamp c ≤ r.clamp c' := SqrtRange.clamp_mono hc
  have hupper : 0 < r.upper.toNat := hr.pos.trans hr.lt
  obtain ⟨ha0, ha1⟩ := toNat_held hr ha
  obtain ⟨hb0, hb1⟩ := toNat_held hr hb
  rw [BitVec.le_def, BitVec.le_def, ha0, ha1, hb0, hb1]
  constructor
  · exact roundedDiv_le_roundedDiv (Nat.mul_pos hupper (hr.clamp_pos c'))
      (Nat.mul_pos hupper (hr.clamp_pos c)) (sub_mul_le_sub_mul hclamp _ _) up
  · refine roundedDiv_le_roundedDiv (by positivity) (by positivity) ?_ up
    exact Nat.mul_le_mul_right _ (Nat.mul_le_mul_left _ (Nat.sub_le_sub_right hclamp _))

/-- Between the ticks -1 and 1, from below the range to the price 1 inside it. -/
theorem amounts_monotone_into_range :
    (0xfffcb933bd6fad37aa2d162d : SqrtPrice) ≤ 0x1000000000000000000000000 ∧
    amounts 0xfffcb933bd6fad37aa2d162d
      ⟨0xfffcb933bd6fad37aa2d162e, 0x1000346d6ff11672ae55ad010⟩ 20001499987 true =
        .ok ⟨2000050, 0⟩ ∧
    amounts 0x1000000000000000000000000
      ⟨0xfffcb933bd6fad37aa2d162e, 0x1000346d6ff11672ae55ad010⟩ 20001499987 true =
        .ok ⟨1000000, 1000000⟩ ∧
    (1000000 : Amount) ≤ 2000050 ∧ (0 : Amount) ≤ 1000000 :=
  have hc : (0xfffcb933bd6fad37aa2d162d : SqrtPrice) ≤ 0x1000000000000000000000000 := by decide
  have ha : amounts 0xfffcb933bd6fad37aa2d162d
      ⟨0xfffcb933bd6fad37aa2d162e, 0x1000346d6ff11672ae55ad010⟩ 20001499987 true =
        .ok ⟨2000050, 0⟩ := by decide +kernel
  have hb : amounts 0x1000000000000000000000000
      ⟨0xfffcb933bd6fad37aa2d162e, 0x1000346d6ff11672ae55ad010⟩ 20001499987 true =
        .ok ⟨1000000, 1000000⟩ := by decide +kernel
  ⟨hc, ha, hb, amounts_monotone _ _ _ _ _ _ _ hc ha hb⟩

end Liquidity

end LiquidityBand
