import LiquidityBand.Proofs.Liquidity.OneSided
import LiquidityBand.Proofs.Tick.SqrtPrice

/-!
# The range between two ticks

The square-root prices of two ascending ticks are a range that a pool can store, so the formulas of
one token hold for every position between ticks of the grid.
-/

namespace LiquidityBand

section
variable {a b : Tick}

/-- Two ticks of the grid have their prices. -/
theorem exists_sqrtRange (ha : a.inBounds) (hb : b.inBounds) :
    ∃ r : SqrtRange, a.sqrtPrice = .ok r.lower ∧ b.sqrtPrice = .ok r.upper := by
  obtain ⟨lower, -, hlower, -⟩ := Tick.exists_sqrtPrice ha
  obtain ⟨upper, -, hupper, -⟩ := Tick.exists_sqrtPrice hb
  exact ⟨⟨lower, upper⟩, hlower, hupper⟩

/-- The prices of two ascending ticks are a range that a pool can store. -/
theorem isStored_of_sqrtPrice {r : SqrtRange} (ha : a.sqrtPrice = .ok r.lower)
    (hb : b.sqrtPrice = .ok r.upper) (hab : a < b) : r.IsStored := by
  have hpos := Tick.toNat_pos_of_minSqrtPrice_le (Tick.sqrtPrice_bounds ha).1
  have hhigh := BitVec.le_def.mp (Tick.sqrtPrice_bounds hb).2
  exact ⟨hpos, BitVec.lt_def.mp (Tick.sqrtPrice_lt_sqrtPrice ha hb hab),
    lt_of_le_of_lt hhigh Tick.toNat_maxSqrtPrice_lt⟩

end

end LiquidityBand
