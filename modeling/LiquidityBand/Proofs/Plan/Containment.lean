import LiquidityBand.Proofs.Plan.Band
import LiquidityBand.Proofs.Tick.Enclosure

/-!
# Plans over bands inside one another

Every stage of planning keeps the order of bands. Of two bands, one inside the other, the narrowest
aligned bands lie inside one another as well, since what encloses the wider one encloses both; so do
the prices, since those of ticks ascend; and over the narrower prices a deposit pays for at least as
much liquidity. A larger deposit only adds to this.

* `TickBand.IsNarrowest.isWithin` and `SqrtRange.isWithin_of_sqrtPrice` carry the order from one
  stage to the next;
* `Plan.ofTicks_within` compares the plans.
-/

namespace LiquidityBand

theorem TickBand.IsWithin.trans {a b c : TickBand} (hab : a.IsWithin b) (hbc : b.IsWithin c) :
    a.IsWithin c :=
  ⟨Int32.le_trans hbc.1 hab.1, Int32.le_trans hab.2 hbc.2⟩

/-- The narrowest aligned band around a band lies inside the one around any wider band. -/
theorem TickBand.IsNarrowest.isWithin {narrow wide ticks ticks' : TickBand} {spacing : Tick}
    (h : narrow.IsNarrowest ticks spacing) (h' : wide.IsNarrowest ticks' spacing)
    (hin : narrow.IsWithin wide) : ticks.IsWithin ticks' := by
  obtain ⟨hlow, hhigh⟩ := hin.trans h'.encloses
  rw [Int32.le_iff_toInt_le] at hlow hhigh
  rw [IsWithin, Int32.le_iff_toInt_le, Int32.le_iff_toInt_le]
  exact h.narrowest _ _ h'.lower_multiple h'.upper_multiple hlow hhigh

namespace SqrtRange

/-- The first range lies inside the second one. -/
def IsWithin (r wide : SqrtRange) : Prop := wide.lower ≤ r.lower ∧ r.upper ≤ wide.upper

section
variable {r r' : SqrtRange}

theorem IsWithin.span_le (h : r.IsWithin r') : r.span ≤ r'.span :=
  tsub_le_tsub (BitVec.le_def.mp h.2) (BitVec.le_def.mp h.1)

/-- The prices of a band lie inside those of any wider band. -/
theorem isWithin_of_sqrtPrice {ticks ticks' : TickBand} (hl : ticks.lower.sqrtPrice = .ok r.lower)
    (hu : ticks.upper.sqrtPrice = .ok r.upper) (hl' : ticks'.lower.sqrtPrice = .ok r'.lower)
    (hu' : ticks'.upper.sqrtPrice = .ok r'.upper) (hin : ticks.IsWithin ticks') :
    r.IsWithin r' :=
  ⟨Tick.sqrtPrice_le_sqrtPrice hl' hl hin.1, Tick.sqrtPrice_le_sqrtPrice hu hu' hin.2⟩

end

end SqrtRange

namespace Plan

/-- Over a band inside another one, and for a deposit that is no smaller, a plan has at least as
much liquidity, and its ticks and prices lie inside those of the other plan. -/
theorem ofTicks_within (narrow wide : TickBand) (more less : Amount) (config : Config) (p q : Plan)
    (hin : narrow.IsWithin wide) (hle : less ≤ more)
    (hp : (ofTicks narrow more config).result = .ok p)
    (hq : (ofTicks wide less config).result = .ok q) :
    q.liquidity ≤ p.liquidity ∧ p.ticks.IsWithin q.ticks ∧ p.sqrtPrices.IsWithin q.sqrtPrices := by
  have hover := isOver_of_ofTicks hp
  have hover' := isOver_of_ofTicks hq
  have hticks : p.ticks.IsWithin q.ticks :=
    (hover.widened.isNarrowest hover.spacing_pos).isWithin
      (hover'.widened.isNarrowest hover'.spacing_pos) hin
  have hprices : p.sqrtPrices.IsWithin q.sqrtPrices :=
    SqrtRange.isWithin_of_sqrtPrice hover.made.lower hover.made.upper hover'.made.lower
      hover'.made.upper hticks
  refine ⟨?_, hticks, hprices⟩
  exact Liquidity.ofDeposit_le_ofDeposit hover.isStored hover'.isStored hprices.span_le hle
    hover.made.liquidity hover'.made.liquidity

/-- The second band is longer by one tick, which lies in another cell, and its deposit is smaller by
one unit. -/
theorem ofTicks_within_across_cells :
    TickBand.IsWithin ⟨-30, -1⟩ ⟨-31, -1⟩ ∧ (999999 : Amount) ≤ 1000000 ∧
      (ofTicks ⟨-30, -1⟩ 1000000 Config.default).result = .ok ⟨⟨-30, 0⟩,
        ⟨0xff9dc64c18f52ee954523a44, 0x1000000000000000000000000⟩, 1000000, 0x27c4aa7c⟩ ∧
      (ofTicks ⟨-31, -1⟩ 999999 Config.default).result = .ok ⟨⟨-60, 0⟩,
        ⟨0xff3bb2486ca8dd6a78c0e986, 0x1000000000000000000000000⟩, 999999, 0x13e6253b⟩ ∧
      (0x13e6253b : Liquidity) ≤ 0x27c4aa7c ∧ TickBand.IsWithin ⟨-30, 0⟩ ⟨-60, 0⟩ ∧
      SqrtRange.IsWithin ⟨0xff9dc64c18f52ee954523a44, 0x1000000000000000000000000⟩
        ⟨0xff3bb2486ca8dd6a78c0e986, 0x1000000000000000000000000⟩ :=
  ⟨⟨by decide, by decide⟩, by decide, rfl, rfl,
    ofTicks_within ⟨-30, -1⟩ ⟨-31, -1⟩ 1000000 999999 Config.default _ _ ⟨by decide, by decide⟩
      (by decide) rfl rfl⟩

end Plan

end LiquidityBand
