import LiquidityBand.Proofs.Liquidity.TwoSided

/-!
# What a deposit pays for

A deposit pays for a liquidity if the liquidity times the width of the range, in whole units, does
not exceed it. The liquidity of a deposit is the greatest one that it pays for, and while the price
moves over the range, what the position holds of the deposited token never exceeds what it needs.

* `Liquidity.required_le_iff` says when a deposit pays for a liquidity;
* `Liquidity.le_ofDeposit_iff` says that this is up to the liquidity of the deposit;
* `Liquidity.ofDeposit_le_ofDeposit` compares the liquidities of two deposits over two ranges;
* `Liquidity.required_adjoint_ofDeposit` joins the two directions, at every boundary of 128 bits;
* `Liquidity.amounts_le_of_mul_le` bounds what the position holds at any price.
-/

namespace LiquidityBand.Liquidity

section
variable {r : SqrtRange} {amount : Amount} {l m : Liquidity}

theorem ofDeposit_eq (h : r.IsStored) (amount : Amount) : ofDeposit amount r =
    fit 128 .liquidityTooWide (amount.toNat * 2 ^ 96 / r.span) := ofAmount1_eq h amount

/-- A deposit pays for a liquidity if and only if it does so before the last rounding. -/
theorem required_le_iff (h : r.IsStored) :
    (∃ a, required l r = .ok a ∧ a ≤ amount) ↔ l.toNat * r.span ≤ amount.toNat * 2 ^ 96 :=
  amount1_le_iff h

/-- A deposit pays for a liquidity if and only if its own liquidity is not less. -/
theorem le_ofDeposit_iff (h : r.IsStored) (hm : ofDeposit amount r = .ok m) :
    l ≤ m ↔ ∃ a, required l r = .ok a ∧ a ≤ amount := by
  rw [required_le_iff h, BitVec.le_def, (ofAmount1_eq_ok_iff h).mp hm, le_found1_iff h]

/-- Over a range that is no wider, a deposit that is no smaller gives at least as much liquidity: it
pays for all that the smaller deposit pays for over the wider range. -/
theorem ofDeposit_le_ofDeposit {r' : SqrtRange} {amount' : Amount} (h : r.IsStored)
    (h' : r'.IsStored) (hspan : r.span ≤ r'.span) (hamount : amount' ≤ amount)
    (hl : ofDeposit amount r = .ok l) (hm : ofDeposit amount' r' = .ok m) : m ≤ l := by
  have hpaid := (required_le_iff h').mp ((le_ofDeposit_iff h' hm).mp (BitVec.le_refl m))
  rw [le_ofDeposit_iff h hl, required_le_iff h]
  calc m.toNat * r.span ≤ m.toNat * r'.span := Nat.mul_le_mul_left _ hspan
    _ ≤ amount'.toNat * 2 ^ 96 := hpaid
    _ ≤ amount.toNat * 2 ^ 96 := Nat.mul_le_mul_right _ (BitVec.le_def.mp hamount)

/-- A deposit whose own liquidity leaves 128 bits pays for every liquidity. -/
theorem required_le_of_ofDeposit_error (h : r.IsStored) {e : Error}
    (he : ofDeposit amount r = .error e) : ∃ a, required l r = .ok a ∧ a ≤ amount := by
  rw [ofDeposit_eq h, fit_eq_error_iff] at he
  rw [required_le_iff h, ← Nat.le_div_iff_mul_le h.span_pos]
  exact (lt_of_lt_of_le l.isLt he.1).le

/-- Turning deposits into liquidity, with an overflow standing above all liquidities, is adjoint to
turning liquidity into deposits. So a liquidity turned back is worth no more than its deposit. -/
theorem required_adjoint_ofDeposit (r : SqrtRange) (amount : Amount) (l : Liquidity)
    (hpos : 0 < r.lower) (hlt : r.lower < r.upper) (hmax : r.upper ≤ maxStoredSqrtPrice) :
    ((∃ a, required l r = .ok a ∧ a ≤ amount) ↔
      (∃ d, ofDeposit amount r = .ok d ∧ l ≤ d) ∨
        ofDeposit amount r = .error .liquidityTooWide) ∧
    ∀ d, ofDeposit amount r = .ok d → ∃ a, required d r = .ok a ∧ a ≤ amount := by
  have h : r.IsStored := SqrtRange.isStored_iff.mpr ⟨hpos, hlt, hmax⟩
  refine ⟨⟨?_, ?_⟩, ?_⟩
  · intro hpays
    rcases Nat.lt_or_ge (amount.toNat * 2 ^ 96 / r.span) (2 ^ 128) with hfit | hwide
    · have hd : ofDeposit amount r = .ok _ := (ofDeposit_eq h amount).trans (fit_eq_ok hfit)
      exact .inl ⟨_, hd, (le_ofDeposit_iff h hd).mpr hpays⟩
    · exact .inr ((ofDeposit_eq h amount).trans (fit_eq_error hwide))
  · rintro (⟨d, hd, hle⟩ | he)
    · exact (le_ofDeposit_iff h hd).mp hle
    · exact required_le_of_ofDeposit_error h he
  · intro d hd
    exact (le_ofDeposit_iff h hd).mp (BitVec.le_refl d)

/-- Between the ticks -1 and 1, 1000001 units pay for a liquidity of 10000509988 and for no more. -/
theorem required_adjoint_at_one :
    (0 : SqrtPrice) < 0xfffcb933bd6fad37aa2d162e ∧
    (0xfffcb933bd6fad37aa2d162e : SqrtPrice) < 0x1000346d6ff11672ae55ad010 ∧
    0x1000346d6ff11672ae55ad010 ≤ maxStoredSqrtPrice ∧
    ofDeposit 1000001 ⟨0xfffcb933bd6fad37aa2d162e, 0x1000346d6ff11672ae55ad010⟩ =
      .ok 10000509988 ∧
    required 10000509988 ⟨0xfffcb933bd6fad37aa2d162e, 0x1000346d6ff11672ae55ad010⟩ =
      .ok 1000001 ∧
    required 10000509989 ⟨0xfffcb933bd6fad37aa2d162e, 0x1000346d6ff11672ae55ad010⟩ =
      .ok 1000002 ∧
    ((∃ a, required 10000509988 ⟨0xfffcb933bd6fad37aa2d162e, 0x1000346d6ff11672ae55ad010⟩ = .ok a ∧
        a ≤ 1000001) ↔
      (∃ d, ofDeposit 1000001 ⟨0xfffcb933bd6fad37aa2d162e, 0x1000346d6ff11672ae55ad010⟩ = .ok d ∧
        10000509988 ≤ d) ∨
      ofDeposit 1000001 ⟨0xfffcb933bd6fad37aa2d162e, 0x1000346d6ff11672ae55ad010⟩ =
        .error .liquidityTooWide) ∧
    ∀ d, ofDeposit 1000001 ⟨0xfffcb933bd6fad37aa2d162e, 0x1000346d6ff11672ae55ad010⟩ = .ok d →
      ∃ a, required d ⟨0xfffcb933bd6fad37aa2d162e, 0x1000346d6ff11672ae55ad010⟩ = .ok a ∧
        a ≤ 1000001 :=
  ⟨by decide, by decide, by decide, by decide +kernel, by decide +kernel, by decide +kernel,
    required_adjoint_ofDeposit _ _ _ (by decide) (by decide) (by decide)⟩

theorem amount1_le_of_mul_le (h : r.IsStored) (hl : l.toNat * r.span ≤ amount.toNat * 2 ^ 96)
    {a : Amount} (ha : amount1 r l true = .ok a) : a ≤ amount := by
  obtain ⟨b, hb, hle⟩ := (amount1_le_iff h).mpr hl
  rwa [eq_of_eq_ok ha hb]

/-- What a deposit pays for over a range, it pays for at every price in the range. -/
theorem amounts_le_of_mul_le (h : r.IsStored) (hl : l.toNat * r.span ≤ amount.toNat * 2 ^ 96)
    {current : SqrtPrice} {held : AmountPair} (hheld : amounts current r l true = .ok held) :
    held.amount1 ≤ amount := by
  rcases amounts_cases h hheld with ⟨-, -, hzero⟩ | ⟨hlow, hhigh, -, hpart⟩ | ⟨-, -, hwhole⟩
  · rw [hzero]
    exact BitVec.le_def.mpr (Nat.zero_le _)
  · refine amount1_le_of_mul_le (h.below hlow hhigh) (le_trans ?_ hl) hpart
    -- the part below the price is no wider than the range
    exact Nat.mul_le_mul_left _ (Nat.sub_le_sub_right (BitVec.lt_def.mp hhigh).le _)
  · exact amount1_le_of_mul_le h hl hwhole

end

end LiquidityBand.Liquidity
