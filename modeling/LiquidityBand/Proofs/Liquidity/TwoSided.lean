import LiquidityBand.Liquidity.TwoSided
import LiquidityBand.Proofs.Liquidity.OneSided

/-!
# A position is backed by its deposit

The liquidity of two amounts is rounded down at every step, and the amounts of a liquidity are
rounded once. So what the liquidity is worth, rounded up, is covered by the amounts it was made
of, on either side of the current price and at it; rounded down it is worth at most one unit less.

* `Liquidity.IsBacked` compares an amount that is given with the two roundings of the one that is
  needed, and `Liquidity.exists_rounded` finds them;
* `Liquidity.amount0_isBacked` and `Liquidity.amount1_isBacked` are the two sides of a range;
* `Liquidity.amounts_cases` says what a position holds, by the place of the current price;
* `Liquidity.exists_amounts_of_ofAmounts` is the whole position.
-/

namespace LiquidityBand

namespace SqrtRange.IsStored

variable {r : SqrtRange} {current : SqrtPrice}

/-- The part of a range above the current price. -/
theorem above (h : r.IsStored) (hl : r.lower < current) (hu : current < r.upper) :
    IsStored ⟨current, r.upper⟩ :=
  ⟨h.pos.trans (BitVec.lt_def.mp hl), BitVec.lt_def.mp hu, h.stored⟩

/-- The part of a range below the current price. -/
theorem below (h : r.IsStored) (hl : r.lower < current) (hu : current < r.upper) :
    IsStored ⟨r.lower, current⟩ :=
  ⟨h.pos, BitVec.lt_def.mp hl, (BitVec.lt_def.mp hu).trans h.stored⟩

end SqrtRange.IsStored

namespace Liquidity

/-- The given amount covers an amount rounded up, which is at most one unit more than the same
amount rounded down. -/
structure IsBacked (given up down : Amount) : Prop where
  covers : up.toNat ≤ given.toNat
  down_le_up : down.toNat ≤ up.toNat
  up_le_succ : up.toNat ≤ down.toNat + 1

/-- A token that a position does not hold needs nothing. -/
theorem isBacked_zero (given : Amount) : IsBacked given 0 0 :=
  ⟨Nat.zero_le _, le_rfl, Nat.zero_le _⟩

section
variable {r : SqrtRange} {given : Amount} {l m : Liquidity}

theorem exists_rounded {n d : ℕ} {cause : Error} (hd : 0 < d) (h : n ≤ given.toNat * d) :
    ∃ up down, fit 128 cause (roundedDiv true n d) = .ok up ∧
      fit 128 cause (roundedDiv false n d) = .ok down ∧ IsBacked given up down := by
  have hcovers := (roundedDiv_true_le_iff hd).mpr h
  have hle := div_le_roundedDiv (n := n) hd true
  have hup : roundedDiv true n d < 2 ^ 128 := lt_of_le_of_lt hcovers given.isLt
  have hdown : roundedDiv false n d < 2 ^ 128 := lt_of_le_of_lt hle hup
  refine ⟨_, _, fit_eq_ok hup, fit_eq_ok hdown, ?_, ?_, ?_⟩
  · rwa [toNat_ofNat_of_lt hup]
  · rwa [toNat_ofNat_of_lt hup, toNat_ofNat_of_lt hdown]
  · rw [toNat_ofNat_of_lt hup, toNat_ofNat_of_lt hdown]
    exact roundedDiv_le_succ hd true

/-- Any liquidity up to that of an amount of token 0 is backed by the amount. -/
theorem amount0_isBacked (h : r.IsStored) (hm : ofAmount0 r given = .ok m)
    (hl : l.toNat ≤ m.toNat) :
    ∃ up down, amount0 r l true = .ok up ∧ amount0 r l false = .ok down ∧
      IsBacked given up down := by
  rw [(ofAmount0_eq_ok_iff h).mp hm, le_found0_iff h] at hl
  rw [amount0_eq h, amount0_eq h]
  exact exists_rounded (Nat.mul_pos (h.pos.trans h.lt) h.pos) (mul_le_of_mul_le_truncated hl)

/-- Any liquidity up to that of an amount of token 1 is backed by the amount. -/
theorem amount1_isBacked (h : r.IsStored) (hm : ofAmount1 r given = .ok m)
    (hl : l.toNat ≤ m.toNat) :
    ∃ up down, amount1 r l true = .ok up ∧ amount1 r l false = .ok down ∧
      IsBacked given up down := by
  rw [(ofAmount1_eq_ok_iff h).mp hm, le_found1_iff h] at hl
  rw [amount1_eq h, amount1_eq h]
  exact exists_rounded (by positivity) hl

end

/-! ### The three places of the current price -/

section
variable {current : SqrtPrice} {r : SqrtRange}

theorem amounts_below (h : r.IsStored) (hc : current ≤ r.lower) (l : Liquidity) (up : Bool) :
    amounts current r l up = amount0 r l up >>= fun a => .ok ⟨a, 0⟩ := by
  rw [amounts, amountsBy, SqrtRange.width_eq_ok h, ok_bind, if_pos hc]
  rfl

theorem amounts_inside (h : r.IsStored) (hl : r.lower < current) (hu : current < r.upper)
    (l : Liquidity) (up : Bool) :
    amounts current r l up = amount0 ⟨current, r.upper⟩ l up >>= fun a =>
      amount1 ⟨r.lower, current⟩ l up >>= fun b => .ok ⟨a, b⟩ := by
  rw [amounts, amountsBy, SqrtRange.width_eq_ok h, ok_bind, if_neg (BitVec.not_le.mpr hl),
    if_pos hu]
  rfl

theorem amounts_above (h : r.IsStored) (hu : r.upper ≤ current) (l : Liquidity) (up : Bool) :
    amounts current r l up = amount1 r l up >>= fun b => .ok ⟨0, b⟩ := by
  have hl : r.lower < current := BitVec.lt_def.mpr (lt_of_lt_of_le h.lt (BitVec.le_def.mp hu))
  rw [amounts, amountsBy, SqrtRange.width_eq_ok h, ok_bind, if_neg (BitVec.not_le.mpr hl),
    if_neg (BitVec.not_lt.mpr hu)]
  rfl

/-- What a position holds: token 0 alone, both tokens over the two parts of its range, or token 1
alone, by where the current price is. -/
theorem amounts_cases (h : r.IsStored) {l : Liquidity} {up : Bool} {held : AmountPair}
    (hheld : amounts current r l up = .ok held) :
    (current ≤ r.lower ∧ amount0 r l up = .ok held.amount0 ∧ held.amount1 = 0) ∨
    (r.lower < current ∧ current < r.upper ∧ amount0 ⟨current, r.upper⟩ l up = .ok held.amount0 ∧
      amount1 ⟨r.lower, current⟩ l up = .ok held.amount1) ∨
    (r.upper ≤ current ∧ held.amount0 = 0 ∧ amount1 r l up = .ok held.amount1) := by
  by_cases hlow : current ≤ r.lower
  · simp only [amounts_below h hlow, bind_eq_ok_iff] at hheld
    obtain ⟨a, ha, hpair⟩ := hheld
    obtain rfl := Except.ok.inj hpair
    exact .inl ⟨hlow, ha, rfl⟩
  rw [BitVec.not_le] at hlow
  by_cases hhigh : current < r.upper
  · simp only [amounts_inside h hlow hhigh, bind_eq_ok_iff] at hheld
    obtain ⟨a, ha, b, hb, hpair⟩ := hheld
    obtain rfl := Except.ok.inj hpair
    exact .inr (.inl ⟨hlow, hhigh, ha, hb⟩)
  · rw [BitVec.not_lt] at hhigh
    simp only [amounts_above h hhigh, bind_eq_ok_iff] at hheld
    obtain ⟨b, hb, hpair⟩ := hheld
    obtain rfl := Except.ok.inj hpair
    exact .inr (.inr ⟨hhigh, rfl, hb⟩)

/-- Likewise the liquidity of two amounts: one side, the lesser of two, or the other side. -/
theorem ofAmounts_below (h : r.IsStored) (hc : current ≤ r.lower) (given : AmountPair) :
    ofAmounts current r given = ofAmount0 r given.amount0 := by
  rw [ofAmounts, ofAmountsBy, SqrtRange.width_eq_ok h, ok_bind, if_pos hc]

theorem ofAmounts_inside (h : r.IsStored) (hl : r.lower < current) (hu : current < r.upper)
    (given : AmountPair) :
    ofAmounts current r given = ofAmount0 ⟨current, r.upper⟩ given.amount0 >>= fun side0 =>
      ofAmount1 ⟨r.lower, current⟩ given.amount1 >>= fun side1 =>
        .ok (if side0 ≤ side1 then side0 else side1) := by
  rw [ofAmounts, ofAmountsBy, SqrtRange.width_eq_ok h, ok_bind, if_neg (BitVec.not_le.mpr hl),
    if_pos hu]
  rfl

theorem ofAmounts_above (h : r.IsStored) (hu : r.upper ≤ current) (given : AmountPair) :
    ofAmounts current r given = ofAmount1 r given.amount1 := by
  have hl : r.lower < current := BitVec.lt_def.mpr (lt_of_lt_of_le h.lt (BitVec.le_def.mp hu))
  rw [ofAmounts, ofAmountsBy, SqrtRange.width_eq_ok h, ok_bind, if_neg (BitVec.not_le.mpr hl),
    if_neg (BitVec.not_lt.mpr hu)]

theorem toNat_lesser (a b : Liquidity) :
    (if a ≤ b then a else b).toNat = min a.toNat b.toNat := by
  by_cases h : a ≤ b
  · rw [if_pos h, min_eq_left (BitVec.le_def.mp h)]
  · rw [if_neg h, min_eq_right (BitVec.lt_def.mp (BitVec.not_le.mp h)).le]

theorem lesser_le (a b : Liquidity) :
    (if a ≤ b then a else b).toNat ≤ a.toNat ∧ (if a ≤ b then a else b).toNat ≤ b.toNat := by
  rw [toNat_lesser]
  exact ⟨min_le_left _ _, min_le_right _ _⟩

theorem isStored_of_ofAmounts {given : AmountPair} {l : Liquidity}
    (h : ofAmounts current r given = .ok l) : r.IsStored := SqrtRange.isStored_of_bind h

end

/-- Whatever liquidity two amounts give, they cover both amounts that it is worth, and neither of
these fails to be computed. -/
theorem exists_amounts_of_ofAmounts (current : SqrtPrice) (r : SqrtRange) (given : AmountPair)
    (l : Liquidity) (h : ofAmounts current r given = .ok l) :
    ∃ up down, amounts current r l true = .ok up ∧ amounts current r l false = .ok down ∧
      IsBacked given.amount0 up.amount0 down.amount0 ∧
      IsBacked given.amount1 up.amount1 down.amount1 := by
  have hr := isStored_of_ofAmounts h
  rw [ofAmounts, ofAmountsBy, SqrtRange.width_eq_ok hr, ok_bind] at h
  split_ifs at h with hl hu
  · obtain ⟨up, down, hup, hdown, hbacked⟩ := amount0_isBacked hr h le_rfl
    refine ⟨⟨up, 0⟩, ⟨down, 0⟩, ?_, ?_, hbacked, isBacked_zero _⟩
    · rw [amounts_below hr hl, hup, ok_bind]
    · rw [amounts_below hr hl, hdown, ok_bind]
  · rw [BitVec.not_le] at hl
    simp only [bind_eq_ok_iff] at h
    obtain ⟨side0, h0, side1, h1, hmin⟩ := h
    have hle : l.toNat ≤ side0.toNat ∧ l.toNat ≤ side1.toNat := by
      rw [← Except.ok.inj hmin]
      exact lesser_le side0 side1
    obtain ⟨up0, down0, hup0, hdown0, hbacked0⟩ := amount0_isBacked (hr.above hl hu) h0 hle.1
    obtain ⟨up1, down1, hup1, hdown1, hbacked1⟩ := amount1_isBacked (hr.below hl hu) h1 hle.2
    refine ⟨⟨up0, up1⟩, ⟨down0, down1⟩, ?_, ?_, hbacked0, hbacked1⟩
    · rw [amounts_inside hr hl hu, hup0, ok_bind, hup1, ok_bind]
    · rw [amounts_inside hr hl hu, hdown0, ok_bind, hdown1, ok_bind]
  · obtain ⟨up, down, hup, hdown, hbacked⟩ := amount1_isBacked hr h le_rfl
    refine ⟨⟨0, up⟩, ⟨0, down⟩, ?_, ?_, isBacked_zero _, hbacked⟩
    · rw [amounts_above hr (BitVec.not_lt.mp hu), hup, ok_bind]
    · rw [amounts_above hr (BitVec.not_lt.mp hu), hdown, ok_bind]

/-- At the price 1, between the ticks -1 and 1, with one unit more of token 1. -/
theorem exists_amounts_at_one :
    ofAmounts 0x1000000000000000000000000
        ⟨0xfffcb933bd6fad37aa2d162e, 0x1000346d6ff11672ae55ad010⟩ ⟨1000000, 1000001⟩ =
      .ok 0x4a82eab53 ∧
    amounts 0x1000000000000000000000000
        ⟨0xfffcb933bd6fad37aa2d162e, 0x1000346d6ff11672ae55ad010⟩ 0x4a82eab53 true =
      .ok ⟨1000000, 1000000⟩ ∧
    amounts 0x1000000000000000000000000
        ⟨0xfffcb933bd6fad37aa2d162e, 0x1000346d6ff11672ae55ad010⟩ 0x4a82eab53 false =
      .ok ⟨999999, 999999⟩ ∧
    IsBacked 1000000 1000000 999999 ∧ IsBacked 1000001 1000000 999999 := by
  have hl : ofAmounts 0x1000000000000000000000000
      ⟨0xfffcb933bd6fad37aa2d162e, 0x1000346d6ff11672ae55ad010⟩ ⟨1000000, 1000001⟩ =
    .ok 0x4a82eab53 := by decide +kernel
  obtain ⟨up, down, hup, hdown, h0, h1⟩ := exists_amounts_of_ofAmounts _ _ ⟨1000000, 1000001⟩ _ hl
  obtain rfl : up = ⟨1000000, 1000000⟩ := eq_of_eq_ok hup (by decide +kernel)
  obtain rfl : down = ⟨999999, 999999⟩ := eq_of_eq_ok hdown (by decide +kernel)
  exact ⟨hl, hup, hdown, h0, h1⟩

end Liquidity

end LiquidityBand
