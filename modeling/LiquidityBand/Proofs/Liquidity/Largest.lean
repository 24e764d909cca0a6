import LiquidityBand.Proofs.Liquidity.TwoSided

/-!
# The largest liquidity that two amounts cover

Two amounts cover a liquidity if they are enough for what it is worth at the current price, rounded
up. They cover every liquidity up to a largest one, and none above it.

The formula of token 1 finds the largest liquidity. The formula of token 0 drops the fraction of
the product of the prices before the amount comes in, and where prices are low it falls short.
Inside the range both sides are computed before the lesser one is taken, so that the greater one
can leave its register and nothing is found.

* `Liquidity.IsCovered` and `Liquidity.IsLargest` are stated through the amounts that a liquidity
  is worth;
* `Liquidity.isCovered_iff` says that `Liquidity.most` is the largest covered liquidity;
* `Liquidity.ofAmounts_eq_ok_iff` says what the formulas find;
* `Liquidity.ofAmounts_eq_largest_iff` says when this is the largest liquidity, and
  `Liquidity.ofAmounts_shortfall` how far below it can be.
-/

namespace LiquidityBand.Liquidity

/-- The amounts that are given are enough for the liquidity at the current price. -/
def IsCovered (current : SqrtPrice) (r : SqrtRange) (given : AmountPair) (l : Liquidity) : Prop :=
  ∃ held, amounts current r l true = .ok held ∧
    held.amount0 ≤ given.amount0 ∧ held.amount1 ≤ given.amount1

/-- The liquidity is covered and the next one, which 128 bits hold, is not. -/
structure IsLargest (current : SqrtPrice) (r : SqrtRange) (given : AmountPair) (m : Liquidity) :
    Prop where
  covered : IsCovered current r given m
  lt : m.toNat < 2 ^ 128 - 1
  next : ¬IsCovered current r given (m + 1)

/-! ### One token -/

section
variable {r : SqrtRange} {given : Amount} {l : Liquidity}

/-- The largest liquidity that an amount of token 0 covers. -/
def most0 (r : SqrtRange) (given : Amount) : ℕ :=
  given.toNat * (r.upper.toNat * r.lower.toNat) / (2 ^ 96 * r.span)

theorem le_most0_iff (h : r.IsStored) {n : ℕ} : n ≤ most0 r given ↔
    n * 2 ^ 96 * r.span ≤ given.toNat * (r.upper.toNat * r.lower.toNat) := by
  rw [most0, Nat.le_div_iff_mul_le (Nat.mul_pos (by positivity) h.span_pos), ← Nat.mul_assoc]

theorem found0_le_most0 (h : r.IsStored) (given : Amount) : found0 r given ≤ most0 r given :=
  (le_most0_iff h).mpr (mul_le_of_mul_le_truncated (Nat.div_mul_le_self _ _))

/-- What is lost is at most the amount over the width of the range, but for the rounding. -/
theorem most0_le_found0_add (h : r.IsStored) (given : Amount) :
    most0 r given ≤ found0 r given + given.toNat / r.span + 1 := by
  have hw := h.span_pos
  rw [← Nat.lt_succ_iff, most0, Nat.div_lt_iff_lt_mul (Nat.mul_pos (by positivity) hw)]
  have hfound := Nat.lt_mul_div_succ
    (given.toNat * (r.lower.toNat * r.upper.toNat / 2 ^ 96)) hw
  have hquot := Nat.lt_mul_div_succ given.toNat hw
  have hfraction := Nat.lt_mul_div_succ (r.lower.toNat * r.upper.toNat) (show 0 < 2 ^ 96 by decide)
  rw [← found0] at hfound
  -- the quotients are opaque from here on; the dropped fraction is less than one, so it costs the
  -- amount less than once
  generalize found0 r given = n at hfound ⊢
  generalize given.toNat / r.span = k at hquot ⊢
  generalize r.lower.toNat * r.upper.toNat / 2 ^ 96 = q at hfound hfraction
  calc given.toNat * (r.upper.toNat * r.lower.toNat)
      = given.toNat * (r.lower.toNat * r.upper.toNat) := by rw [Nat.mul_comm r.upper.toNat]
    _ ≤ given.toNat * (2 ^ 96 * (q + 1)) := Nat.mul_le_mul_left _ hfraction.le
    _ = 2 ^ 96 * (given.toNat * q + given.toNat) := by ring
    _ < 2 ^ 96 * (r.span * (n + 1) + r.span * (k + 1)) :=
        Nat.mul_lt_mul_of_pos_left (Nat.add_lt_add hfound hquot) (by positivity)
    _ = (n + k + 1).succ * (2 ^ 96 * r.span) := by rw [Nat.succ_eq_add_one]; ring

end

/-! ### Both tokens -/

section
variable {current : SqrtPrice} {r : SqrtRange} {given : AmountPair} {l m : Liquidity}

/-- The largest liquidity that two amounts cover: inside the range, the lesser of the two sides. -/
def most (current : SqrtPrice) (r : SqrtRange) (given : AmountPair) : ℕ :=
  if current ≤ r.lower then most0 r given.amount0
  else if current < r.upper then
    min (most0 ⟨current, r.upper⟩ given.amount0) (found1 ⟨r.lower, current⟩ given.amount1)
  else found1 r given.amount1

/-- The two tokens are covered apart. -/
theorem isCovered_of_amounts_eq {x y : Except Error Amount}
    (h : amounts current r l true = x >>= fun a => y >>= fun b => .ok ⟨a, b⟩) :
    IsCovered current r given l ↔
      (∃ a, x = .ok a ∧ a ≤ given.amount0) ∧ ∃ b, y = .ok b ∧ b ≤ given.amount1 := by
  rw [IsCovered, h]
  constructor
  · rintro ⟨held, hheld, hle0, hle1⟩
    obtain ⟨a, ha, hrest⟩ := bind_eq_ok_iff.mp hheld
    obtain ⟨b, hb, hpair⟩ := bind_eq_ok_iff.mp hrest
    obtain rfl := Except.ok.inj hpair
    exact ⟨⟨a, ha, hle0⟩, b, hb, hle1⟩
  · rintro ⟨⟨a, ha, hle0⟩, b, hb, hle1⟩
    exact ⟨⟨a, b⟩, by rw [ha, ok_bind, hb, ok_bind], hle0, hle1⟩

/-- A token that the position does not hold is covered. -/
theorem exists_zero_le (given : Amount) :
    ∃ a, (.ok 0 : Except Error Amount) = .ok a ∧ a ≤ given :=
  ⟨0, rfl, BitVec.le_def.mpr (Nat.zero_le _)⟩

theorem isCovered_iff (h : r.IsStored) : IsCovered current r given l ↔
    l.toNat ≤ most current r given := by
  rw [most]
  split_ifs with hlow hhigh
  · rw [le_most0_iff h, ← amount0_le_iff h,
      isCovered_of_amounts_eq (y := .ok 0) (amounts_below h hlow l true)]
    exact and_iff_left (exists_zero_le _)
  · rw [BitVec.not_le] at hlow
    have habove := h.above hlow hhigh
    have hbelow := h.below hlow hhigh
    rw [le_min_iff, le_most0_iff habove, ← amount0_le_iff habove, le_found1_iff hbelow,
      ← amount1_le_iff hbelow]
    exact isCovered_of_amounts_eq (amounts_inside h hlow hhigh l true)
  · rw [le_found1_iff h, ← amount1_le_iff h,
      isCovered_of_amounts_eq (x := .ok 0) (amounts_above h (BitVec.not_lt.mp hhigh) l true)]
    exact and_iff_right (exists_zero_le _)

theorem isLargest_iff (h : r.IsStored) : IsLargest current r given m ↔
    m.toNat = most current r given ∧ m.toNat < 2 ^ 128 - 1 := by
  have hsucc (hlt : m.toNat < 2 ^ 128 - 1) : (m + 1).toNat = m.toNat + 1 := by
    rw [BitVec.toNat_add, show (1 : Liquidity).toNat = 1 from rfl, Nat.mod_eq_of_lt (by omega)]
  constructor
  · rintro ⟨hcovered, hlt, hnext⟩
    rw [isCovered_iff h] at hcovered hnext
    rw [hsucc hlt] at hnext
    omega
  · rintro ⟨hmost, hlt⟩
    refine ⟨(isCovered_iff h).mpr hmost.le, hlt, ?_⟩
    rw [isCovered_iff h, hsucc hlt]
    omega

/-- No covered liquidity is above the largest one. -/
theorem IsLargest.le (hm : IsLargest current r given m) (h : r.IsStored)
    (hl : IsCovered current r given l) : l ≤ m := by
  rw [BitVec.le_def, ((isLargest_iff h).mp hm).1]
  exact (isCovered_iff h).mp hl

/-- What the formulas find. Inside the range both sides are stored before they are compared. -/
theorem ofAmounts_eq_ok_iff (h : r.IsStored) : ofAmounts current r given = .ok l ↔
    if current ≤ r.lower then l.toNat = found0 r given.amount0
    else if current < r.upper then
      found0 ⟨current, r.upper⟩ given.amount0 < 2 ^ 128 ∧
      found1 ⟨r.lower, current⟩ given.amount1 < 2 ^ 128 ∧
      l.toNat = min (found0 ⟨current, r.upper⟩ given.amount0)
        (found1 ⟨r.lower, current⟩ given.amount1)
    else l.toNat = found1 r given.amount1 := by
  split_ifs with hlow hhigh
  · rw [ofAmounts_below h hlow]
    exact ofAmount0_eq_ok_iff h
  · rw [BitVec.not_le] at hlow
    simp only [ofAmounts_inside h hlow hhigh, bind_eq_ok_iff,
      ofAmount0_eq_ok_iff (h.above hlow hhigh), ofAmount1_eq_ok_iff (h.below hlow hhigh)]
    constructor
    · rintro ⟨side0, h0, side1, h1, hl⟩
      rw [← Except.ok.inj hl, toNat_lesser, ← h0, ← h1]
      exact ⟨side0.isLt, side1.isLt, rfl⟩
    · rintro ⟨h0, h1, hl⟩
      refine ⟨BitVec.ofNat 128 _, toNat_ofNat_of_lt h0, BitVec.ofNat 128 _,
        toNat_ofNat_of_lt h1, congrArg _ (BitVec.toNat_inj.mp ?_)⟩
      rw [toNat_lesser, toNat_ofNat_of_lt h0, toNat_ofNat_of_lt h1, hl]
  · rw [ofAmounts_above h (BitVec.not_lt.mp hhigh)]
    exact ofAmount1_eq_ok_iff h

/-- The formulas find as much as `m`: the one of token 0 does so without the fraction of the product
of the prices, and inside the range both sides fit their registers. -/
def IsReached (current : SqrtPrice) (r : SqrtRange) (given : AmountPair) (m : Liquidity) : Prop :=
  if current ≤ r.lower then m.toNat ≤ found0 r given.amount0
  else if current < r.upper then
    m.toNat ≤ found0 ⟨current, r.upper⟩ given.amount0 ∧
    found0 ⟨current, r.upper⟩ given.amount0 < 2 ^ 128 ∧
    found1 ⟨r.lower, current⟩ given.amount1 < 2 ^ 128
  else True

/-- The formulas give the largest liquidity exactly if they reach it. -/
theorem ofAmounts_eq_largest_iff (current : SqrtPrice) (r : SqrtRange) (given : AmountPair)
    (m : Liquidity) (h : r.IsStored) (hm : IsLargest current r given m) :
    ofAmounts current r given = .ok m ↔ IsReached current r given m := by
  have hmost := ((isLargest_iff h).mp hm).1
  rw [ofAmounts_eq_ok_iff h, IsReached]
  rw [most] at hmost
  -- what is found is never above the largest liquidity, so to reach it is to equal it
  split_ifs at hmost ⊢ with hlow hhigh
  · have hle := found0_le_most0 h given.amount0
    omega
  · have hle := found0_le_most0 (h.above (BitVec.not_le.mp hlow) hhigh) given.amount0
    omega
  · exact iff_true_intro hmost

/-- At the price 1, between the ticks -1 and 1, the largest liquidity is reached. -/
theorem ofAmounts_eq_largest_at_one :
    SqrtRange.IsStored ⟨0xfffcb933bd6fad37aa2d162e, 0x1000346d6ff11672ae55ad010⟩ ∧
    IsLargest 0x1000000000000000000000000
      ⟨0xfffcb933bd6fad37aa2d162e, 0x1000346d6ff11672ae55ad010⟩ ⟨1000000, 1000001⟩ 20001499987 ∧
    ofAmounts 0x1000000000000000000000000
        ⟨0xfffcb933bd6fad37aa2d162e, 0x1000346d6ff11672ae55ad010⟩ ⟨1000000, 1000001⟩ =
      .ok 20001499987 ∧
    (ofAmounts 0x1000000000000000000000000
        ⟨0xfffcb933bd6fad37aa2d162e, 0x1000346d6ff11672ae55ad010⟩ ⟨1000000, 1000001⟩ =
        .ok 20001499987 ↔
      IsReached 0x1000000000000000000000000
        ⟨0xfffcb933bd6fad37aa2d162e, 0x1000346d6ff11672ae55ad010⟩ ⟨1000000, 1000001⟩
        20001499987) :=
  have hstored := SqrtRange.isStored_iff.mpr ⟨by decide, by decide, by decide⟩
  have hlargest := (isLargest_iff hstored).mpr ⟨by decide +kernel, by decide⟩
  ⟨hstored, hlargest, by decide +kernel, ofAmounts_eq_largest_iff _ _ _ _ hstored hlargest⟩

/-- Below the range between the ticks -600000 and -599940, the formula of token 0 misses one part in
744 of the largest liquidity. -/
theorem ofAmounts_below_largest :
    minSqrtPrice ≤ 0x1a60ffcbaf2bc3 ∧ (0x1a60ffcbaf2bc3 : SqrtPrice) < 0x1a7549a04e1ec6 ∧
    0x1a7549a04e1ec6 ≤ maxSqrtPrice ∧
    IsLargest 0x1a60ffcbaf2bc3 ⟨0x1a60ffcbaf2bc3, 0x1a7549a04e1ec6⟩ ⟨1000000000000000000, 0⟩
      31287340 ∧
    ofAmounts 0x1a60ffcbaf2bc3 ⟨0x1a60ffcbaf2bc3, 0x1a7549a04e1ec6⟩ ⟨1000000000000000000, 0⟩ =
      .ok 31245331 :=
  have hstored := SqrtRange.isStored_iff.mpr ⟨by decide, by decide, by decide⟩
  ⟨by decide, by decide, by decide,
    (isLargest_iff hstored).mpr ⟨by decide +kernel, by decide⟩, by decide +kernel⟩

/-- Whatever the formulas give is covered, and the largest liquidity is above it by at most the
amount of token 0 over the width of its part of the range, but for the rounding. -/
theorem ofAmounts_shortfall (h : r.IsStored) (hm : IsLargest current r given m)
    (hl : ofAmounts current r given = .ok l) :
    l ≤ m ∧ m.toNat ≤ l.toNat +
      given.amount0.toNat / (r.upper.toNat - max r.lower.toNat current.toNat) + 1 := by
  have hmost := ((isLargest_iff h).mp hm).1
  rw [ofAmounts_eq_ok_iff h] at hl
  rw [most] at hmost
  rw [BitVec.le_def]
  split_ifs at hmost hl with hlow hhigh
  · have hle := found0_le_most0 h given.amount0
    have hloss := most0_le_found0_add h given.amount0
    rw [SqrtRange.span] at hloss
    rw [max_eq_left (BitVec.le_def.mp hlow)]
    omega
  · have habove := h.above (BitVec.not_le.mp hlow) hhigh
    have hle := found0_le_most0 habove given.amount0
    have hloss := most0_le_found0_add habove given.amount0
    rw [SqrtRange.span] at hloss
    rw [max_eq_right (BitVec.lt_def.mp (BitVec.not_le.mp hlow)).le]
    dsimp only at hloss
    omega
  · rw [hmost, hl, Nat.add_assoc]
    exact ⟨le_rfl, Nat.le_add_right _ _⟩

end

end LiquidityBand.Liquidity
