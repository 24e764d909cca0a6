import LiquidityBand.Liquidity.OneSided
import LiquidityBand.Proofs.ProductQuotient
import LiquidityBand.Proofs.Register

/-!
# The formulas of one token

On a range of positive stored prices, each of the four formulas is one rounded quotient of natural
numbers, stored in 128 bits. Nothing in between leaves its register, except that the liquidity of
an amount of token 0 may already leave 256 bits.

* `SqrtRange.IsStored` says that a range has a width, and `SqrtRange.span` is that width;
* `Liquidity.ofAmount1_eq`, `Liquidity.amount1_eq`, `Liquidity.amount0_eq` and
  `Liquidity.ofAmount0_eq` are the four formulas;
* `Liquidity.amount0_exact` compares the amount of token 0 with the rational number it stands for;
* `Liquidity.amount0_le_iff` and `Liquidity.amount1_le_iff` say when an amount covers a liquidity,
  in terms of exact products;
* `Liquidity.amount0_pos` and `Liquidity.amount1_pos` say that a positive liquidity needs a positive
  amount.
-/

namespace LiquidityBand

namespace SqrtRange

/-- The two prices ascend, are positive and are no wider than a pool stores them. -/
structure IsStored (r : SqrtRange) : Prop where
  pos : 0 < r.lower.toNat
  lt : r.lower.toNat < r.upper.toNat
  stored : r.upper.toNat < 2 ^ 160

/-- The distance of the two prices. -/
def span (r : SqrtRange) : ℕ := r.upper.toNat - r.lower.toNat

section
variable {r : SqrtRange}

theorem IsStored.span_pos (h : r.IsStored) : 0 < r.span := Nat.sub_pos_of_lt h.lt

theorem IsStored.span_lt (h : r.IsStored) : r.span < 2 ^ 160 :=
  lt_of_le_of_lt (Nat.sub_le _ _) h.stored

theorem IsStored.span_lt_upper (h : r.IsStored) : r.span < r.upper.toNat :=
  Nat.sub_lt (h.pos.trans h.lt) h.pos

theorem isStored_iff : r.IsStored ↔
    0 < r.lower ∧ r.lower < r.upper ∧ r.upper ≤ maxStoredSqrtPrice := by
  rw [BitVec.lt_def, BitVec.lt_def, BitVec.le_def,
    show maxStoredSqrtPrice.toNat = 2 ^ 160 - 1 from rfl, show (0 : SqrtPrice).toNat = 0 from rfl]
  constructor
  · intro h
    exact ⟨h.pos, h.lt, Nat.le_sub_one_of_lt h.stored⟩
  · rintro ⟨hpos, hlt, hmax⟩
    exact ⟨hpos, hlt, by omega⟩

theorem width_eq_ok (h : r.IsStored) : r.width = .ok (BitVec.ofNat 256 r.span) := by
  obtain ⟨hpos, hlt, hmax⟩ := isStored_iff.mp h
  have hzero : r.lower ≠ 0 := fun h0 => BitVec.not_lt.mpr (BitVec.le_of_eq h0) hpos
  rw [width, if_neg (BitVec.not_le.mpr hlt), if_neg hzero, if_neg (BitVec.not_lt.mpr hmax),
    difference_eq_ok h.lt.le, ok_bind]
  exact fit_eq_ok (lt_trans h.span_lt (by decide))

theorem isStored_of_width {w : UInt256} (h : r.width = .ok w) : r.IsStored := by
  unfold width at h
  split_ifs at h with hle hzero hmax
  have hpos := Nat.pos_of_ne_zero fun h0 => hzero (BitVec.toNat_inj.mp h0)
  exact isStored_iff.mpr ⟨BitVec.lt_def.mpr hpos, BitVec.not_le.mp hle, BitVec.not_lt.mp hmax⟩

/-- What is computed from a width has one. -/
theorem isStored_of_bind {α : Type} {f : UInt256 → Except Error α} {x : α}
    (h : (r.width >>= f) = .ok x) : r.IsStored := by
  obtain ⟨w, hw, -⟩ := bind_eq_ok_iff.mp h
  exact isStored_of_width hw

theorem toNat_width (h : r.IsStored) : (BitVec.ofNat 256 r.span).toNat = r.span :=
  toNat_ofNat_of_lt (lt_trans h.span_lt (by decide))

end

end SqrtRange

namespace Liquidity

section
variable {r : SqrtRange}

theorem ofAmount1_eq (h : r.IsStored) (amount : Amount) :
    ofAmount1 r amount = fit 128 .liquidityTooWide (amount.toNat * 2 ^ 96 / r.span) := by
  rw [ofAmount1, SqrtRange.width_eq_ok h, ok_bind, SqrtRange.toNat_width h, toNat_scaled,
    quotient_eq_ok h.span_pos.ne', ok_bind]
  rfl

theorem amount1_eq (h : r.IsStored) (liquidity : Liquidity) (up : Bool) :
    amount1 r liquidity up =
      fit 128 .amountTooWide (roundedDiv up (liquidity.toNat * r.span) (2 ^ 96)) := by
  have hl := liquidity.isLt
  have hspan := h.span_lt
  have hproduct : liquidity.toNat * r.span < 2 ^ 128 * 2 ^ 160 := Nat.mul_lt_mul'' hl hspan
  have hsmall : roundedDiv up (liquidity.toNat * r.span) (2 ^ 96) < 2 ^ 256 :=
    lt_of_le_of_lt (roundedDiv_le_succ (by decide) up) (by omega)
  rw [amount1, amount1By, SqrtRange.width_eq_ok h, ok_bind, fixedProduct_eq,
    SqrtRange.toNat_width h, BitVec.toNat_setWidth, Nat.mod_eq_of_lt (lt_trans hl (by decide)),
    fit_eq_ok hsmall, ok_bind, toNat_ofNat_of_lt hsmall]

/-- The width is below the upper price, so the first of the two divisions of token 0 hardly passes
the scaled liquidity. -/
theorem roundedDiv_upper_lt (h : r.IsStored) (liquidity : Liquidity) (up : Bool) :
    roundedDiv up (liquidity.toNat * 2 ^ 96 * r.span) r.upper.toNat + 1 < 2 ^ 256 := by
  have hl := liquidity.isLt
  have hquot : liquidity.toNat * 2 ^ 96 * r.span / r.upper.toNat ≤ liquidity.toNat * 2 ^ 96 := by
    refine Nat.div_le_of_le_mul ?_
    rw [Nat.mul_comm r.upper.toNat]
    exact Nat.mul_le_mul_left _ h.span_lt_upper.le
  have hround := roundedDiv_le_succ (n := liquidity.toNat * 2 ^ 96 * r.span)
    (h.pos.trans h.lt) up
  omega

theorem productQuotient_upper (h : r.IsStored) (liquidity : Liquidity) (up : Bool) :
    productQuotient (scaled liquidity) (BitVec.ofNat 256 r.span) r.upper up = .ok (BitVec.ofNat 256
      (roundedDiv up (liquidity.toNat * 2 ^ 96 * r.span) r.upper.toNat)) := by
  have hupper : 0 < r.upper.toNat := h.pos.trans h.lt
  have hne : r.upper ≠ 0 := fun h0 => by rw [h0] at hupper; exact absurd hupper (by decide)
  rw [productQuotient_eq hne, toNat_scaled, SqrtRange.toNat_width h, fractionBits]
  exact fit_eq_ok (Nat.lt_of_succ_lt (roundedDiv_upper_lt h liquidity up))

/-- The division by the upper price and the one by the lower price round once. -/
theorem amount0_eq (h : r.IsStored) (liquidity : Liquidity) (up : Bool) :
    amount0 r liquidity up = fit 128 .amountTooWide (roundedDiv up
      (liquidity.toNat * 2 ^ 96 * r.span) (r.upper.toNat * r.lower.toNat)) := by
  have hfit := roundedDiv_upper_lt h liquidity up
  rw [amount0, SqrtRange.width_eq_ok h, ok_bind, productQuotient_upper h, ok_bind,
    ← roundedDiv_roundedDiv (h.pos.trans h.lt) h.pos]
  generalize roundedDiv up (liquidity.toNat * 2 ^ 96 * r.span) r.upper.toNat = value at hfit
  have hwhole : value / r.lower.toNat + 1 < 2 ^ 256 := by
    have := Nat.div_le_self value r.lower.toNat
    omega
  have hinexact : (value % r.lower.toNat != 0) = decide (value % r.lower.toNat ≠ 0) := by
    rw [Bool.eq_iff_iff, bne_iff_ne, decide_eq_true_iff]
  rw [toNat_ofNat_of_lt (Nat.lt_of_succ_lt hfit), quotient_eq_ok h.pos.ne', ok_bind,
    roundedDiv_eq h.pos]
  dsimp only
  rw [hinexact]
  cases up && decide (value % r.lower.toNat ≠ 0) with
  | false =>
    rw [if_neg Bool.false_ne_true, fit_eq_ok (Nat.lt_of_succ_lt hwhole), ok_bind,
      toNat_ofNat_of_lt (Nat.lt_of_succ_lt hwhole), Bool.toNat_false, Nat.add_zero]
  | true => rw [if_pos rfl, fit_eq_ok hwhole, ok_bind, toNat_ofNat_of_lt hwhole, Bool.toNat_true]

/-- The product of the prices is rounded down before the amount is multiplied in. -/
theorem ofAmount0_eq (h : r.IsStored) (amount : Amount) :
    ofAmount0 r amount =
      fit 256 .arithmeticOverflow
          (amount.toNat * (r.lower.toNat * r.upper.toNat / 2 ^ 96) / r.span) >>=
        fun x => fit 128 .liquidityTooWide x.toNat := by
  have hproduct : r.lower.toNat * r.upper.toNat < 2 ^ 160 * 2 ^ 160 :=
    Nat.mul_lt_mul'' (h.lt.trans h.stored) h.stored
  have hsmall : r.lower.toNat * r.upper.toNat / 2 ^ 96 < 2 ^ 256 := by omega
  have hne : BitVec.ofNat 256 r.span ≠ 0 := fun h0 => by
    have := h.span_pos
    rw [← SqrtRange.toNat_width h, h0] at this
    exact absurd this (by decide)
  rw [ofAmount0, ofAmount0By, SqrtRange.width_eq_ok h, ok_bind, fixedProduct_eq, roundedDiv_false,
    fit_eq_ok hsmall, ok_bind, productQuotient_eq hne, roundedDiv_false, SqrtRange.toNat_width h,
    toNat_ofNat_of_lt hsmall, BitVec.toNat_setWidth,
    Nat.mod_eq_of_lt (lt_trans amount.isLt (by decide))]

/-- The liquidity of an amount of token 0, without the fraction of the product of the prices. -/
def found0 (r : SqrtRange) (amount : Amount) : ℕ :=
  amount.toNat * (r.lower.toNat * r.upper.toNat / 2 ^ 96) / r.span

/-- The liquidity of an amount of token 1. -/
def found1 (r : SqrtRange) (amount : Amount) : ℕ := amount.toNat * 2 ^ 96 / r.span

theorem le_found0_iff (h : r.IsStored) {amount : Amount} {n : ℕ} : n ≤ found0 r amount ↔
    n * r.span ≤ amount.toNat * (r.lower.toNat * r.upper.toNat / 2 ^ 96) :=
  Nat.le_div_iff_mul_le h.span_pos

theorem le_found1_iff (h : r.IsStored) {amount : Amount} {n : ℕ} : n ≤ found1 r amount ↔
    n * r.span ≤ amount.toNat * 2 ^ 96 :=
  Nat.le_div_iff_mul_le h.span_pos

/-- As long as the liquidity fits 128 bits, the step before it fits 256. -/
theorem ofAmount0_eq_ok_iff (h : r.IsStored) {amount : Amount} {l : Liquidity} :
    ofAmount0 r amount = .ok l ↔ l.toNat = found0 r amount := by
  rw [ofAmount0_eq h, ← found0, bind_eq_ok_iff]
  simp only [fit_eq_ok_iff]
  constructor
  · rintro ⟨x, hx, hl⟩
    rw [hl, hx]
  · intro hl
    have hfit : l.toNat < 2 ^ 256 := lt_trans l.isLt (by decide)
    exact ⟨BitVec.ofNat 256 l.toNat, (toNat_ofNat_of_lt hfit).trans hl,
      (toNat_ofNat_of_lt hfit).symm⟩

theorem ofAmount1_eq_ok_iff (h : r.IsStored) {amount : Amount} {l : Liquidity} :
    ofAmount1 r amount = .ok l ↔ l.toNat = found1 r amount := by
  rw [ofAmount1_eq h, fit_eq_ok_iff, found1]

theorem amount0_eq_ok_iff (h : r.IsStored) {liquidity : Liquidity} {up : Bool} {a : Amount} :
    amount0 r liquidity up = .ok a ↔ a.toNat = roundedDiv up
      (liquidity.toNat * 2 ^ 96 * r.span) (r.upper.toNat * r.lower.toNat) := by
  rw [amount0_eq h, fit_eq_ok_iff]

theorem amount1_eq_ok_iff (h : r.IsStored) {liquidity : Liquidity} {up : Bool} {a : Amount} :
    amount1 r liquidity up = .ok a ↔
      a.toNat = roundedDiv up (liquidity.toNat * r.span) (2 ^ 96) := by
  rw [amount1_eq h, fit_eq_ok_iff]

end

/-! ### The exact amount of token 0 -/

/-- The amount `l * 2 ^ 96 * (upper - lower) / (upper * lower)` of token 0 is a rational number;
this is its one rounding. -/
def worth0 (r : SqrtRange) (l : Liquidity) (up : Bool) : ℕ :=
  wholeQuotient up (l.toNat * 2 ^ 96 * (r.upper.toNat - r.lower.toNat))
    (r.upper.toNat * r.lower.toNat)

/-- The two roundings on the way to an amount of token 0 are one rounding of the exact amount, up or
down. The amount is refused only where 128 bits do not hold it, and the quotient in between is never
refused. -/
theorem amount0_exact (r : SqrtRange) (l : Liquidity) (up : Bool) (hpos : 0 < r.lower)
    (hlt : r.lower < r.upper) (hmax : r.upper ≤ maxStoredSqrtPrice) :
    amount0 r l up =
      (if worth0 r l up < 2 ^ 128 then .ok (BitVec.ofNat 128 (worth0 r l up))
      else .error .amountTooWide) ∧
    ∃ width value, r.width = .ok width ∧
      productQuotient (scaled l) width r.upper up = .ok value := by
  have h : r.IsStored := SqrtRange.isStored_iff.mpr ⟨hpos, hlt, hmax⟩
  have hworth : worth0 r l up =
      roundedDiv up (l.toNat * 2 ^ 96 * r.span) (r.upper.toNat * r.lower.toNat) :=
    (roundedDiv_eq_wholeQuotient (Nat.mul_pos (h.pos.trans h.lt) h.pos) up).symm
  constructor
  · rw [hworth]
    exact amount0_eq h l up
  · exact ⟨_, _, SqrtRange.width_eq_ok h, productQuotient_upper h l up⟩

/-- Between the ticks -1 and 1, where both divisions leave a remainder. -/
theorem amount0_exact_around_one :
    (0 : SqrtPrice) < 0xfffcb933bd6fad37aa2d162e ∧
    (0xfffcb933bd6fad37aa2d162e : SqrtPrice) < 0x1000346d6ff11672ae55ad010 ∧
    0x1000346d6ff11672ae55ad010 ≤ maxStoredSqrtPrice ∧
    worth0 ⟨0xfffcb933bd6fad37aa2d162e, 0x1000346d6ff11672ae55ad010⟩ 20001499987 true = 2000050 ∧
    amount0 ⟨0xfffcb933bd6fad37aa2d162e, 0x1000346d6ff11672ae55ad010⟩ 20001499987 true =
      (if worth0 ⟨0xfffcb933bd6fad37aa2d162e, 0x1000346d6ff11672ae55ad010⟩ 20001499987 true <
          2 ^ 128
      then .ok (BitVec.ofNat 128
        (worth0 ⟨0xfffcb933bd6fad37aa2d162e, 0x1000346d6ff11672ae55ad010⟩ 20001499987 true))
      else .error .amountTooWide) ∧
    SqrtRange.width ⟨0xfffcb933bd6fad37aa2d162e, 0x1000346d6ff11672ae55ad010⟩ =
      .ok 0x68da341a1b9f33b2db9e2 ∧
    productQuotient (scaled 20001499987) 0x68da341a1b9f33b2db9e2 0x1000346d6ff11672ae55ad010 true =
      .ok 0x1e844e00f2757e042593b7d86a6335 := by
  obtain ⟨hamount, width, value, hwidth, hvalue⟩ :=
    amount0_exact ⟨0xfffcb933bd6fad37aa2d162e, 0x1000346d6ff11672ae55ad010⟩ 20001499987 true
      (by decide) (by decide) (by decide)
  obtain rfl : width = 0x68da341a1b9f33b2db9e2 := eq_of_eq_ok hwidth (by decide)
  obtain rfl : value = 0x1e844e00f2757e042593b7d86a6335 :=
    eq_of_eq_ok hvalue (by decide +kernel)
  exact ⟨by decide, by decide, by decide, by decide +kernel, hamount, hwidth, hvalue⟩

/-! ### Amounts of a positive liquidity -/

section
variable {r : SqrtRange} {l : Liquidity} {a : Amount}

theorem pos_of_fit_roundedDiv {n d : ℕ} {cause : Error} (hd : 0 < d) (hn : 0 < n)
    (h : fit 128 cause (roundedDiv true n d) = .ok a) : 0 < a := by
  rw [BitVec.lt_def, fit_eq_ok_iff.mp h]
  exact roundedDiv_true_pos hd hn

/-- However small a liquidity and its range are, token 0 is needed above the price. -/
theorem amount0_pos (h : r.IsStored) (hl : 0 < l) (ha : amount0 r l true = .ok a) : 0 < a := by
  have hspan := h.span_pos
  have hl' : 0 < l.toNat := BitVec.lt_def.mp hl
  rw [amount0_eq h] at ha
  exact pos_of_fit_roundedDiv (Nat.mul_pos (h.pos.trans h.lt) h.pos) (by positivity) ha

/-- Likewise token 1 below the price. -/
theorem amount1_pos (h : r.IsStored) (hl : 0 < l) (ha : amount1 r l true = .ok a) : 0 < a := by
  rw [amount1_eq h] at ha
  exact pos_of_fit_roundedDiv (by positivity) (Nat.mul_pos (BitVec.lt_def.mp hl) h.span_pos) ha

end

/-! ### Amounts that cover a liquidity -/

section
variable {r : SqrtRange} {given : Amount} {l : Liquidity}

/-- A quotient rounded up is stored and covered if the given amount covers the exact quotient. -/
theorem fit_roundedDiv_le_iff {n d : ℕ} {cause : Error} (hd : 0 < d) :
    (∃ a, fit 128 cause (roundedDiv true n d) = .ok a ∧ a ≤ given) ↔
      n ≤ given.toNat * d := by
  rw [← roundedDiv_true_le_iff hd]
  constructor
  · rintro ⟨a, ha, hle⟩
    rw [← fit_eq_ok_iff.mp ha]
    exact BitVec.le_def.mp hle
  · intro hle
    have hlt : roundedDiv true n d < 2 ^ 128 := lt_of_le_of_lt hle given.isLt
    refine ⟨_, fit_eq_ok hlt, BitVec.le_def.mpr ?_⟩
    rwa [toNat_ofNat_of_lt hlt]

theorem amount0_le_iff (h : r.IsStored) : (∃ a, amount0 r l true = .ok a ∧ a ≤ given) ↔
    l.toNat * 2 ^ 96 * r.span ≤ given.toNat * (r.upper.toNat * r.lower.toNat) := by
  rw [amount0_eq h, fit_roundedDiv_le_iff (Nat.mul_pos (h.pos.trans h.lt) h.pos)]

theorem amount1_le_iff (h : r.IsStored) : (∃ a, amount1 r l true = .ok a ∧ a ≤ given) ↔
    l.toNat * r.span ≤ given.toNat * 2 ^ 96 := by
  rw [amount1_eq h, fit_roundedDiv_le_iff (by positivity)]

/-- An amount that covers a liquidity without the fraction of the product of the prices covers it
with the fraction. -/
theorem mul_le_of_mul_le_truncated {n a : ℕ}
    (h : n * r.span ≤ a * (r.lower.toNat * r.upper.toNat / 2 ^ 96)) :
    n * 2 ^ 96 * r.span ≤ a * (r.upper.toNat * r.lower.toNat) :=
  calc n * 2 ^ 96 * r.span
      = n * r.span * 2 ^ 96 := Nat.mul_right_comm _ _ _
    _ ≤ a * (r.lower.toNat * r.upper.toNat / 2 ^ 96) * 2 ^ 96 := Nat.mul_le_mul_right _ h
    _ = a * (r.lower.toNat * r.upper.toNat / 2 ^ 96 * 2 ^ 96) := Nat.mul_assoc _ _ _
    _ ≤ a * (r.lower.toNat * r.upper.toNat) := Nat.mul_le_mul_left _ (Nat.div_mul_le_self _ _)
    _ = a * (r.upper.toNat * r.lower.toNat) := by rw [Nat.mul_comm r.lower.toNat]

end

end Liquidity

end LiquidityBand
