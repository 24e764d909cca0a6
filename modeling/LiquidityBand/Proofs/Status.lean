import LiquidityBand.Proofs.Liquidity.TwoSided
import LiquidityBand.Proofs.Tick.Logarithm
import LiquidityBand.Proofs.Tick.Range
import LiquidityBand.Status

/-!
# What the status of a position says

The status compares the current price with the prices of the two ticks. So do the amounts that a
positive liquidity needs, of which none is rounded down to zero, and so does the current tick, which
is the greatest one whose price is not above the current one.

* `Status.Needs` says which tokens a position of a status needs;
* `Status.ofTicks_eq_iff_needs` compares the status with the amounts, and says which ticks bound no
  position;
* `Status.ofTicks_of_currentTick` compares the status with the current tick.
-/

namespace LiquidityBand.Status

/-! ### Two prices -/

section
variable {current lower upper : SqrtPrice}

theorem ofSqrtPrices_eq_below_iff :
    ofSqrtPrices current lower upper = .below ↔ current ≤ lower := by
  unfold ofSqrtPrices
  split_ifs with hlow <;> simp [hlow]

theorem ofSqrtPrices_eq_inRange_iff :
    ofSqrtPrices current lower upper = .inRange ↔ lower < current ∧ current < upper := by
  unfold ofSqrtPrices
  rw [← BitVec.not_le, ← BitVec.not_le]
  split_ifs with hlow hhigh <;> simp [*]

theorem ofSqrtPrices_eq_above_iff (h : lower < upper) :
    ofSqrtPrices current lower upper = .above ↔ upper ≤ current := by
  unfold ofSqrtPrices
  split_ifs with hlow hhigh
  · have hlt : ¬upper ≤ current := by
      rw [BitVec.le_def] at hlow ⊢
      exact Nat.not_le.mpr (lt_of_le_of_lt hlow (BitVec.lt_def.mp h))
    simp [hlt]
  · simp [hhigh]
  · simp [hhigh]

theorem ofSqrtPrices_ne_invalid : ofSqrtPrices current lower upper ≠ .invalid := by
  unfold ofSqrtPrices
  split_ifs <;> simp

end

/-! ### The tokens of a status -/

/-- The amounts are of the tokens that a position of the status needs. -/
def Needs : Status → AmountPair → Prop
  | inRange, held => 0 < held.amount0 ∧ 0 < held.amount1
  | below, held => 0 < held.amount0 ∧ held.amount1 = 0
  | above, held => held.amount0 = 0 ∧ 0 < held.amount1
  | invalid, _ => False

/-- Amounts are needed by a position of one status at most. -/
theorem Needs.unique {s s' : Status} {held : AmountPair} (h : s.Needs held)
    (h' : s'.Needs held) : s = s' := by
  cases s <;> cases s' <;> simp_all [Needs]

section
variable {current : SqrtPrice} {r : SqrtRange} {l : Liquidity} {held : AmountPair}

/-- A positive liquidity needs the tokens of its status, and no others. -/
theorem ofSqrtPrices_needs (hr : r.IsStored) (hl : 0 < l)
    (h : Liquidity.amounts current r l true = .ok held) :
    (ofSqrtPrices current r.lower r.upper).Needs held := by
  rcases Liquidity.amounts_cases hr h with ⟨hlow, h0, h1⟩ | ⟨hlow, hhigh, h0, h1⟩ | ⟨hhigh, h0, h1⟩
  · rw [ofSqrtPrices_eq_below_iff.mpr hlow]
    exact ⟨Liquidity.amount0_pos hr hl h0, h1⟩
  · rw [ofSqrtPrices_eq_inRange_iff.mpr ⟨hlow, hhigh⟩]
    exact ⟨Liquidity.amount0_pos (hr.above hlow hhigh) hl h0,
      Liquidity.amount1_pos (hr.below hlow hhigh) hl h1⟩
  · rw [(ofSqrtPrices_eq_above_iff (BitVec.lt_def.mpr hr.lt)).mpr hhigh]
    exact ⟨h0, Liquidity.amount1_pos hr hl h1⟩

end

/-! ### Two ticks -/

section
variable {current : SqrtPrice} {a b : Tick}

theorem ofTicks_of_sqrtPrice {r : SqrtRange} (hne : a ≠ b)
    (hlower : (min a b).sqrtPrice = .ok r.lower) (hupper : (max a b).sqrtPrice = .ok r.upper) :
    ofTicks current a b = ofSqrtPrices current r.lower r.upper := by
  rw [ofTicks, if_neg hne, TickBand.ordered_eq]
  dsimp only
  rw [hlower, hupper]

theorem ofTicks_of_not_inBounds (h : ¬(a.inBounds ∧ b.inBounds)) :
    ofTicks current a b = .invalid := by
  unfold ofTicks
  split_ifs with heq
  · rfl
  rw [TickBand.ordered_eq]
  dsimp only
  by_cases hmin : (min a b).inBounds
  · have hmax : ¬(max a b).inBounds := fun hmax => h (Tick.min_max_inBounds_iff.mp ⟨hmin, hmax⟩)
    rw [Tick.sqrtPrice_eq_error hmax]
    cases (min a b).sqrtPrice with
    | error e => rfl
    | ok lower => rfl
  · rw [Tick.sqrtPrice_eq_error hmin]

theorem ofTicks_eq_invalid_iff :
    ofTicks current a b = .invalid ↔ a = b ∨ ¬a.inBounds ∨ ¬b.inBounds := by
  rw [← not_and_or]
  constructor
  · intro h
    by_contra hvalid
    obtain ⟨hne, hin⟩ := not_or.mp hvalid
    obtain ⟨hmin, hmax⟩ := Tick.min_max_inBounds_iff.mpr (not_not.mp hin)
    obtain ⟨r, hlower, hupper⟩ := exists_sqrtRange hmin hmax
    rw [ofTicks_of_sqrtPrice hne hlower hupper] at h
    exact ofSqrtPrices_ne_invalid h
  · rintro (heq | hout)
    · exact if_pos heq
    · exact ofTicks_of_not_inBounds hout

end

/-- The status of a position between two ticks of the grid, in either order, is the one whose tokens
a positive liquidity needs at the current price. The other pairs of ticks, and only those, bound no
position. -/
theorem ofTicks_eq_iff_needs :
    (∀ (current : SqrtPrice) (a b : Tick), a ≠ b → a.inBounds → b.inBounds →
      ∃ r : SqrtRange, (min a b).sqrtPrice = .ok r.lower ∧ (max a b).sqrtPrice = .ok r.upper ∧
        ∀ (l : Liquidity) (held : AmountPair), 0 < l →
          Liquidity.amounts current r l true = .ok held →
            ∀ status, ofTicks current a b = status ↔ status.Needs held) ∧
    (∀ (current : SqrtPrice) (a b : Tick),
      ofTicks current a b = .invalid ↔ a = b ∨ ¬a.inBounds ∨ ¬b.inBounds) ∧
    ∀ (current : SqrtPrice) (a b : Tick), ofTicks current a b = ofTicks current b a := by
  refine ⟨?_, fun _ _ _ => ofTicks_eq_invalid_iff, ofTicks_comm⟩
  intro current a b hne ha hb
  obtain ⟨hmin, hmax⟩ := Tick.min_max_inBounds_iff.mpr ⟨ha, hb⟩
  obtain ⟨r, hlower, hupper⟩ := exists_sqrtRange hmin hmax
  refine ⟨r, hlower, hupper, ?_⟩
  intro l held hl hheld status
  have hr : r.IsStored := isStored_of_sqrtPrice hlower hupper (Tick.min_lt_max hne)
  have hneeds := ofSqrtPrices_needs hr hl hheld
  rw [ofTicks_of_sqrtPrice hne hlower hupper]
  constructor
  · rintro rfl
    exact hneeds
  · exact hneeds.unique

/-- The least liquidity, one unit above the lower price, needs one unit of either token. -/
theorem ofTicks_eq_iff_needs_above_lower :
    (100 : Tick) ≠ -100 ∧ Tick.inBounds 100 ∧ Tick.inBounds (-100) ∧ (0 : Liquidity) < 1 ∧
      Liquidity.amounts 78833030112140176575862854580
        ⟨78833030112140176575862854579, 79625275426524748796330556128⟩ 1 true = .ok ⟨1, 1⟩ ∧
      ∀ status, ofTicks 78833030112140176575862854580 100 (-100) = status ↔
        status.Needs ⟨1, 1⟩ := by
  obtain ⟨⟨lower, upper⟩, hl, hu, hstatus⟩ := ofTicks_eq_iff_needs.1
    78833030112140176575862854580 100 (-100) (by decide) (by decide) (by decide)
  obtain rfl : lower = 78833030112140176575862854579 :=
    eq_of_eq_ok hl (by decide +kernel)
  obtain rfl : upper = 79625275426524748796330556128 :=
    eq_of_eq_ok hu (by decide +kernel)
  have hheld : Liquidity.amounts 78833030112140176575862854580
      ⟨78833030112140176575862854579, 79625275426524748796330556128⟩ 1 true = .ok ⟨1, 1⟩ := by
    decide +kernel
  exact ⟨by decide, by decide, by decide, by decide, hheld, hstatus 1 ⟨1, 1⟩ (by decide) hheld⟩

/-! ### The current tick -/

section
variable {x : SqrtPrice} {lo hi : Tick} {r : SqrtRange}

theorem ofTicks_of_lt (hlt : lo < hi) (hlower : lo.sqrtPrice = .ok r.lower)
    (hupper : hi.sqrtPrice = .ok r.upper) : ofTicks x lo hi = ofSqrtPrices x r.lower r.upper := by
  rcases Tick.min_max_cases lo hi with ⟨hmin, hmax, -⟩ | ⟨-, -, hge⟩
  · refine ofTicks_of_sqrtPrice (Int32.ne_of_lt hlt) ?_ ?_
    · rw [hmin, hlower]
    · rw [hmax, hupper]
  · exact absurd hlt (Int32.not_lt.mpr hge)

end

/-- The status of a position and the current tick: above the range from its upper tick on, below it
before its lower tick and at the very price of the lower tick. -/
theorem ofTicks_of_currentTick (x : SqrtPrice) (lo hi : Tick) (hmin : minTick ≤ lo)
    (hlt : lo < hi) (hmax : hi ≤ maxTick) (hlow : minSqrtPrice ≤ x) (hhigh : x < maxSqrtPrice) :
    ∃ t, Tick.ofSqrtPrice x = .ok t ∧
      (ofTicks x lo hi = .above ↔ hi ≤ t) ∧
      (ofTicks x lo hi = .below ↔ t < lo ∨ lo.sqrtPrice = .ok x) ∧
      (ofTicks x lo hi = .inRange ↔ lo ≤ t ∧ t < hi ∧ lo.sqrtPrice ≠ .ok x) := by
  obtain ⟨t, ht, htick⟩ := Tick.exists_ofSqrtPrice hlow hhigh
  have hle := Int32.le_of_lt hlt
  obtain ⟨r, hlower, hupper⟩ := exists_sqrtRange
    (Tick.inBounds_iff_le.mpr ⟨hmin, Int32.le_trans hle hmax⟩)
    (Tick.inBounds_iff_le.mpr ⟨Int32.le_trans hmin hle, hmax⟩)
  refine ⟨t, ht, ?_⟩
  rw [ofTicks_of_lt hlt hlower hupper]
  refine ⟨?_, ?_, ?_⟩
  · rw [ofSqrtPrices_eq_above_iff (Tick.sqrtPrice_lt_sqrtPrice hlower hupper hlt),
      htick.price_le_iff hupper]
  · rw [ofSqrtPrices_eq_below_iff, htick.le_price_iff hlower]
  · rw [ofSqrtPrices_eq_inRange_iff, ← BitVec.not_le, htick.le_price_iff hlower, ← BitVec.not_le,
      htick.price_le_iff hupper, not_or, Int32.not_lt, Int32.not_le, and_right_comm, and_assoc]

/-- At the price of the lower tick itself, where the tick is in the range and the price is not. -/
theorem ofTicks_of_currentTick_at_lower :
    minTick ≤ -100 ∧ (-100 : Tick) < 100 ∧ 100 ≤ maxTick ∧
      minSqrtPrice ≤ 78833030112140176575862854579 ∧
      (78833030112140176575862854579 : SqrtPrice) < maxSqrtPrice ∧
      Tick.ofSqrtPrice 78833030112140176575862854579 = .ok (-100) ∧
      Tick.sqrtPrice (-100) = .ok 78833030112140176575862854579 ∧
      ofTicks 78833030112140176575862854579 (-100) 100 = .below ∧
      (ofTicks 78833030112140176575862854579 (-100) 100 = .above ↔ (100 : Tick) ≤ -100) ∧
      (ofTicks 78833030112140176575862854579 (-100) 100 = .below ↔
        (-100 : Tick) < -100 ∨ Tick.sqrtPrice (-100) = .ok 78833030112140176575862854579) ∧
      (ofTicks 78833030112140176575862854579 (-100) 100 = .inRange ↔
        (-100 : Tick) ≤ -100 ∧ (-100 : Tick) < 100 ∧
          Tick.sqrtPrice (-100) ≠ .ok 78833030112140176575862854579) := by
  obtain ⟨t, ht, habove, hbelow, hinRange⟩ := ofTicks_of_currentTick
    78833030112140176575862854579 (-100) 100 (by decide) (by decide) (by decide) (by decide)
    (by decide)
  obtain rfl : t = -100 := eq_of_eq_ok ht (by decide +kernel)
  have hlower : Tick.sqrtPrice (-100) = .ok 78833030112140176575862854579 := by decide +kernel
  exact ⟨by decide, by decide, by decide, by decide, by decide, ht, hlower,
    hbelow.mpr (.inr hlower), habove, hbelow, hinRange⟩

end LiquidityBand.Status
