import LiquidityBand.Proofs.Tick.Alignment

/-!
# The narrowest aligned band around a band of ticks

The multiples of the tick spacing cut the grid into cells. Aligning two ascending ticks gives the
narrowest band of multiples around them, and only a single tick that is a multiple already has none.
The order of the ends is looked at after they are aligned, so inverted ticks are not refused as
such: if both of them lie strictly inside one cell, aligning turns them into that cell.

* `multipleBelow_eq` and `multipleAbove_eq` say what rounding gives inside a cell;
* `TickBand.IsNarrowest` says that no band of multiples around a band is narrower, and
  `TickBand.IsInCell` that both ends lie strictly inside one cell;
* `TickBand.IsWidened.lower_lt_upper_iff_isInCell` says which inverted ticks come out in order;
* `TickBand.align_align` says that aligning twice is aligning once;
* `TickBand.align_isEnclosure` puts together what aligning a band gives, for ends in either order.
-/

namespace LiquidityBand

section
variable {z d m : ℤ}

/-- A number between two neighbouring multiples is rounded down to the lower one. -/
theorem multipleBelow_eq (hd : 0 < d) (hm : d ∣ m) (hle : m ≤ z) (hlt : z < m + d) :
    multipleBelow z d = m := by
  refine le_antisymm ?_ ((le_multipleBelow_iff hd hm).mpr hle)
  by_contra hgt
  have hnext : d ≤ multipleBelow z d - m :=
    Int.le_of_dvd (by omega) (Int.dvd_sub (dvd_multipleBelow z d) hm)
  have hbelow := multipleBelow_le (z := z) hd
  omega

/-- A number between two neighbouring multiples is rounded up to the upper one. -/
theorem multipleAbove_eq (hd : 0 < d) (hm : d ∣ m) (hlt : m < z) (hle : z ≤ m + d) :
    multipleAbove z d = m + d := by
  have hdvd : d ∣ -(m + d) := Int.dvd_neg.mpr (Int.dvd_add hm (Int.dvd_refl d))
  rw [multipleAbove, multipleBelow_eq hd hdvd (by omega) (by omega), neg_neg]

end

namespace TickBand

/-- The ticks are multiples of the spacing around the band, and no multiples around the band are
nearer to it. -/
structure IsNarrowest (band ticks : TickBand) (spacing : Tick) : Prop where
  lower_multiple : spacing.toInt ∣ ticks.lower.toInt
  upper_multiple : spacing.toInt ∣ ticks.upper.toInt
  encloses : band.IsWithin ticks
  narrowest : ∀ a b : ℤ, spacing.toInt ∣ a → spacing.toInt ∣ b → a ≤ band.lower.toInt →
    band.upper.toInt ≤ b → a ≤ ticks.lower.toInt ∧ ticks.upper.toInt ≤ b

/-- Both ends of the band lie strictly between a multiple of the spacing and the next one. -/
structure IsInCell (band : TickBand) (spacing : Tick) (start : ℤ) : Prop where
  multiple : spacing.toInt ∣ start
  lower_inside : start < band.lower.toInt ∧ band.lower.toInt < start + spacing.toInt
  upper_inside : start < band.upper.toInt ∧ band.upper.toInt < start + spacing.toInt

/-- The band reaches from a multiple of the spacing to the next one. -/
structure IsCell (band : TickBand) (spacing : Tick) (start : ℤ) : Prop where
  lower : band.lower.toInt = start
  upper : band.upper.toInt = start + spacing.toInt

section
variable {band ticks : TickBand} {spacing : Tick} {start : ℤ}

/-! ### Ends in order -/

theorem IsWidened.isAligned (hw : band.IsWidened ticks spacing) (h : 0 < spacing) :
    ticks.lower.isAligned spacing ∧ ticks.upper.isAligned spacing := by
  rw [Tick.isAligned_iff h, Tick.isAligned_iff h, hw.lower, hw.upper]
  exact ⟨dvd_multipleBelow _ _, dvd_multipleAbove _ _⟩

theorem IsWidened.isNarrowest (hw : band.IsWidened ticks spacing) (h : 0 < spacing) :
    band.IsNarrowest ticks spacing := by
  have hd := Tick.toInt_pos h
  obtain ⟨hlower, hupper⟩ := hw.isAligned h
  constructor
  case lower_multiple => exact (Tick.isAligned_iff h).mp hlower
  case upper_multiple => exact (Tick.isAligned_iff h).mp hupper
  case encloses =>
    rw [IsWithin, Int32.le_iff_toInt_le, Int32.le_iff_toInt_le, hw.lower, hw.upper]
    exact ⟨multipleBelow_le hd, le_multipleAbove hd⟩
  case narrowest =>
    intro a b ha hb hlow hhigh
    rw [hw.lower, hw.upper]
    exact ⟨(le_multipleBelow_iff hd ha).mpr hlow, (multipleAbove_le_iff hd hb).mpr hhigh⟩

/-! ### Inverted ends -/

/-- What lies inside a cell is widened to that cell. -/
theorem IsWidened.isCell (hw : band.IsWidened ticks spacing) (h : 0 < spacing)
    (hcell : band.IsInCell spacing start) : ticks.IsCell spacing start := by
  have hd := Tick.toInt_pos h
  obtain ⟨hm, hlower, hupper⟩ := hcell
  constructor
  · rw [hw.lower, multipleBelow_eq hd hm hlower.1.le hlower.2]
  · rw [hw.upper, multipleAbove_eq hd hm hupper.1 hupper.2.le]

theorem IsCell.lower_lt_upper (hcell : band.IsCell spacing start) (h : 0 < spacing) :
    band.lower < band.upper := by
  rw [Int32.lt_iff_toInt_lt, hcell.lower, hcell.upper]
  exact lt_add_of_pos_right _ (Tick.toInt_pos h)

/-- Inverted ticks are put in order by widening if and only if one cell contains both. -/
theorem IsWidened.lower_lt_upper_iff_isInCell (hw : band.IsWidened ticks spacing)
    (h : 0 < spacing) (hinv : band.upper < band.lower) :
    ticks.lower < ticks.upper ↔ ∃ start, band.IsInCell spacing start := by
  have hd := Tick.toInt_pos h
  have hinv' := Int32.lt_iff_toInt_lt.mp hinv
  constructor
  · intro hlt
    rw [Int32.lt_iff_toInt_lt, hw.lower, hw.upper] at hlt
    have hnext := lt_multipleBelow_add (z := band.lower.toInt) hd
    -- an upper tick at or below the start of the cell would be rounded up to that start at most
    have hstart : multipleBelow band.lower.toInt spacing.toInt < band.upper.toInt := by
      by_contra hle
      have habove := (multipleAbove_le_iff hd (dvd_multipleBelow _ _)).mpr (not_lt.mp hle)
      exact absurd hlt (not_lt.mpr habove)
    exact ⟨_, dvd_multipleBelow _ _, ⟨hstart.trans hinv', hnext⟩, ⟨hstart, hinv'.trans hnext⟩⟩
  · rintro ⟨start, hcell⟩
    exact (hw.isCell h hcell).lower_lt_upper h

/-! ### Either order -/

/-- Aligning an aligned band changes nothing. -/
theorem align_align (h : band.align spacing = .ok ticks) : ticks.align spacing = .ok ticks := by
  obtain ⟨hs, hw, hlt⟩ := align_eq_ok_iff.mp h
  obtain ⟨hlower, hupper⟩ := hw.isAligned hs
  exact align_eq_ok_iff.mpr ⟨hs, isWidened_self hs hlower hupper, hlt⟩

/-- What aligning a band gives: for ends in order, the narrowest aligned band around it, unless it
is a single aligned tick; for inverted ends, the cell that contains both, if there is one. -/
structure IsEnclosure (band : TickBand) (spacing : Tick) (result : Except Error TickBand) :
    Prop where
  ordered_empty_iff : band.lower ≤ band.upper → (result = .error .emptyTickBand ↔
    band.lower = band.upper ∧ spacing.toInt ∣ band.lower.toInt)
  ordered_narrowest : band.lower ≤ band.upper →
    ¬(band.lower = band.upper ∧ spacing.toInt ∣ band.lower.toInt) →
    ∃ ticks, result = .ok ticks ∧ band.IsNarrowest ticks spacing
  inverted_ok_iff : band.upper < band.lower →
    ((∃ ticks, result = .ok ticks) ↔ ∃ start, band.IsInCell spacing start)
  inverted_cell : band.upper < band.lower → ∀ start, band.IsInCell spacing start →
    ∃ ticks, result = .ok ticks ∧ ticks.IsCell spacing start
  inverted_empty : band.upper < band.lower → (¬∃ start, band.IsInCell spacing start) →
    result = .error .emptyTickBand
  again : ∀ ticks, result = .ok ticks → ticks.align spacing = .ok ticks

/-- Aligning encloses every band whose aligned ends fit their registers. -/
theorem align_isEnclosure (band : TickBand) (spacing : Tick) (h : 0 < spacing)
    (hfits : band.Fits spacing) : band.IsEnclosure spacing (band.align spacing) := by
  obtain ⟨ticks, hw⟩ := exists_isWidened h hfits
  have halign := align_of_isWidened h hw
  have hok (hlt : ticks.lower < ticks.upper) : band.align spacing = .ok ticks := by
    rw [halign, if_neg (Int32.not_le.mpr hlt)]
  have hempty (hlt : ¬ticks.lower < ticks.upper) : band.align spacing = .error .emptyTickBand := by
    rw [halign, if_pos (Int32.not_lt.mp hlt)]
  constructor
  case ordered_empty_iff =>
    intro hle
    rw [← Tick.isAligned_iff h, ← not_iff_not, ← hw.lower_lt_upper_iff h hle]
    constructor
    · intro hne
      by_contra hlt
      exact hne (hempty hlt)
    · intro hlt
      rw [hok hlt]
      exact nofun
  case ordered_narrowest =>
    intro hle hne
    rw [← Tick.isAligned_iff h] at hne
    exact ⟨ticks, hok ((hw.lower_lt_upper_iff h hle).mpr hne), hw.isNarrowest h⟩
  case inverted_ok_iff =>
    intro hinv
    rw [← hw.lower_lt_upper_iff_isInCell h hinv]
    constructor
    · rintro ⟨ticks', hticks'⟩
      by_contra hlt
      rw [hempty hlt] at hticks'
      cases hticks'
    · intro hlt
      exact ⟨ticks, hok hlt⟩
  case inverted_cell =>
    intro hinv start hcell
    have hticks := hw.isCell h hcell
    exact ⟨ticks, hok (hticks.lower_lt_upper h), hticks⟩
  case inverted_empty =>
    intro hinv hnone
    exact hempty fun hlt => hnone ((hw.lower_lt_upper_iff_isInCell h hinv).mp hlt)
  case again =>
    intro ticks'
    exact align_align

/-- Two inverted ticks inside the lowest cell of width 3 that the register of a tick holds. -/
theorem align_isEnclosure_at_lowest_cell :
    (0 : Tick) < 3 ∧ Fits ⟨-2147483644, -2147483645⟩ 3 ∧
      align ⟨-2147483644, -2147483645⟩ 3 = .ok ⟨-2147483646, -2147483643⟩ ∧
      IsEnclosure ⟨-2147483644, -2147483645⟩ 3 (.ok ⟨-2147483646, -2147483643⟩) := by
  have halign : align ⟨-2147483644, -2147483645⟩ 3 = .ok ⟨-2147483646, -2147483643⟩ := by decide
  have h := align_isEnclosure ⟨-2147483644, -2147483645⟩ 3 (by decide) ⟨by decide, by decide⟩
  exact ⟨by decide, ⟨by decide, by decide⟩, halign, halign ▸ h⟩

end

end TickBand

end LiquidityBand
