import LiquidityBand.Proofs.Register
import LiquidityBand.Tick.Alignment
import Mathlib.Tactic.Linarith

/-!
# Multiples of the tick spacing

For a positive spacing, aligning is rounding to a multiple of it among the integers, refused if
the multiple leaves the register of a tick. A multiple lies above a number if and only if it lies
above the number rounded up, and below if and only if below the number rounded down; that is what
compares a widened band with the full one.

* `multipleBelow` and `multipleAbove` are the two roundings;
* `Tick.alignDown_eq` and `Tick.alignUp_eq` are the two alignments, `TickBand.exists_full` the full
  band;
* `TickBand.Fits` says that the aligned ends of a band fit their registers, `TickBand.IsWidened`
  that a band has these ends, and `TickBand.IsEmptyAt` that nothing lies between them;
* `TickBand.align_eq_ok_iff` and `TickBand.align_eq_overflow` are the outcomes of aligning a band;
* `TickBand.IsFull.isWithin_iff` compares a band with the full one.
-/

namespace LiquidityBand

/-- The greatest multiple of `d` that is at most `z`. -/
def multipleBelow (z d : ℤ) : ℤ := z / d * d

/-- The least multiple of `d` that is at least `z`. -/
def multipleAbove (z d : ℤ) : ℤ := -multipleBelow (-z) d

section
variable {z d m : ℤ}

theorem dvd_multipleBelow (z d : ℤ) : d ∣ multipleBelow z d := Dvd.intro_left _ rfl

theorem dvd_multipleAbove (z d : ℤ) : d ∣ multipleAbove z d :=
  Int.dvd_neg.mpr (dvd_multipleBelow _ _)

theorem multipleBelow_le (hd : 0 < d) : multipleBelow z d ≤ z := Int.ediv_mul_le z hd.ne'

theorem lt_multipleBelow_add (hd : 0 < d) : z < multipleBelow z d + d := by
  rw [multipleBelow, ← add_one_mul]
  exact Int.lt_ediv_add_one_mul_self z hd

theorem le_multipleAbove (hd : 0 < d) : z ≤ multipleAbove z d :=
  le_neg_of_le_neg (multipleBelow_le hd)

theorem multipleAbove_lt_add (hd : 0 < d) : multipleAbove z d < z + d := by
  have := lt_multipleBelow_add (z := -z) hd
  rw [multipleAbove]
  omega

theorem le_multipleBelow_iff (hd : 0 < d) (hm : d ∣ m) : m ≤ multipleBelow z d ↔ m ≤ z := by
  refine ⟨fun h => h.trans (multipleBelow_le hd), fun h => ?_⟩
  obtain ⟨k, rfl⟩ := hm
  rw [mul_comm] at h ⊢
  exact mul_le_mul_of_nonneg_right ((Int.le_ediv_iff_mul_le hd).mpr h) hd.le

theorem multipleAbove_le_iff (hd : 0 < d) (hm : d ∣ m) : multipleAbove z d ≤ m ↔ z ≤ m := by
  rw [multipleAbove, neg_le, le_multipleBelow_iff hd (Int.dvd_neg.mpr hm), neg_le_neg_iff]

theorem multipleBelow_eq_self (hd : 0 < d) (hz : d ∣ z) : multipleBelow z d = z :=
  le_antisymm (multipleBelow_le hd) ((le_multipleBelow_iff hd hz).mpr le_rfl)

theorem multipleAbove_eq_self (hd : 0 < d) (hz : d ∣ z) : multipleAbove z d = z :=
  le_antisymm ((multipleAbove_le_iff hd hz).mpr le_rfl) (le_multipleAbove hd)

/-- A number that is no multiple is rounded up to the multiple after the one below it. -/
theorem multipleAbove_of_not_dvd (hd : 0 < d) (hz : ¬d ∣ z) :
    multipleAbove z d = multipleBelow z d + d := by
  have hne : multipleBelow z d ≠ z := fun h => hz (h ▸ dvd_multipleBelow z d)
  have hlt : multipleBelow z d < multipleAbove z d :=
    lt_of_lt_of_le (lt_of_le_of_ne (multipleBelow_le hd) hne) (le_multipleAbove hd)
  refine le_antisymm ?_ ?_
  · rw [multipleAbove_le_iff hd (Int.dvd_add (dvd_multipleBelow z d) (Int.dvd_refl d))]
    exact (lt_multipleBelow_add hd).le
  · obtain ⟨k, hk⟩ := dvd_multipleAbove z d
    rw [hk, mul_comm, multipleBelow] at hlt
    rw [hk, mul_comm, multipleBelow, ← add_one_mul]
    exact mul_le_mul_of_nonneg_right (lt_of_mul_lt_mul_right hlt hd.le) hd.le

end

/-! ### Aligning a tick -/

namespace Tick

section
variable {t spacing : Tick}

theorem toInt_pos (h : 0 < spacing) : 0 < spacing.toInt := Int32.lt_iff_toInt_lt.mp h

theorem isAligned_iff (h : 0 < spacing) : t.isAligned spacing ↔ spacing.toInt ∣ t.toInt := by
  rw [isAligned, Bool.and_eq_true, decide_eq_true_iff, beq_iff_eq, Int.dvd_iff_tmod_eq_zero]
  exact and_iff_right h

theorem alignDown_eq (h : 0 < spacing) : t.alignDown spacing =
    fitInt32 .arithmeticOverflow (multipleBelow t.toInt spacing.toInt) :=
  if_neg (Int32.not_le.mpr h)

/-- The number of the multiple above a tick fits its register: only a spacing of 1 could push it
out, and then every tick is a multiple. -/
theorem exists_cell (h : 0 < spacing) :
    ∃ cell, fitInt32 .fault (if t.toInt % spacing.toInt = 0 then t.toInt / spacing.toInt
        else t.toInt / spacing.toInt + 1) = .ok cell ∧
      cell.toInt * spacing.toInt = multipleAbove t.toInt spacing.toInt := by
  have hd := toInt_pos h
  have hlow := Int32.le_toInt t
  have hhigh := Int32.toInt_lt t
  have hge : -2 ^ 31 ≤ t.toInt / spacing.toInt := (Int.le_ediv_iff_mul_le hd).mpr (by omega)
  split_ifs with hmod
  · have hlt : t.toInt / spacing.toInt < 2 ^ 31 := (Int.ediv_lt_iff_lt_mul hd).mpr (by omega)
    refine ⟨_, if_pos ⟨hge, hlt⟩, ?_⟩
    rw [Int32.toInt_ofInt_of_le hge hlt, Int.ediv_mul_cancel (Int.dvd_of_emod_eq_zero hmod),
      multipleAbove_eq_self hd (Int.dvd_of_emod_eq_zero hmod)]
  · have hone : spacing.toInt ≠ 1 := fun h1 => hmod (by rw [h1, Int.emod_one])
    have hlt : t.toInt / spacing.toInt < 2 ^ 31 - 1 :=
      (Int.ediv_lt_iff_lt_mul hd).mpr (by omega)
    have hlow' : -2 ^ 31 ≤ t.toInt / spacing.toInt + 1 := by omega
    have hhigh' : t.toInt / spacing.toInt + 1 < 2 ^ 31 := by omega
    refine ⟨_, if_pos ⟨hlow', hhigh'⟩, ?_⟩
    rw [Int32.toInt_ofInt_of_le hlow' hhigh', add_one_mul,
      multipleAbove_of_not_dvd hd (mt Int.emod_eq_zero_of_dvd hmod), multipleBelow]

theorem alignUp_eq (h : 0 < spacing) : t.alignUp spacing =
    fitInt32 .arithmeticOverflow (multipleAbove t.toInt spacing.toInt) := by
  obtain ⟨cell, hcell, hmul⟩ := exists_cell (t := t) h
  rw [alignUp, if_neg (Int32.not_le.mpr h), ← hmul]
  dsimp only
  rw [hcell, ok_bind]

end

end Tick

/-! ### Aligning a band -/

namespace TickBand

/-- The aligned ends of the band fit their registers. -/
def Fits (band : TickBand) (spacing : Tick) : Prop :=
  -2 ^ 31 ≤ multipleBelow band.lower.toInt spacing.toInt ∧
    multipleAbove band.upper.toInt spacing.toInt < 2 ^ 31

/-- The band is inverted, or it is one aligned tick, which aligning does not widen. -/
def IsEmptyAt (band : TickBand) (spacing : Tick) : Prop :=
  band.upper < band.lower ∨ band.lower = band.upper ∧ band.lower.isAligned spacing

/-- The first band lies inside the second one. -/
def IsWithin (band full : TickBand) : Prop := full.lower ≤ band.lower ∧ band.upper ≤ full.upper

/-- The ends of the second band are those of the first one, aligned outward. -/
structure IsWidened (band ticks : TickBand) (spacing : Tick) : Prop where
  lower : ticks.lower.toInt = multipleBelow band.lower.toInt spacing.toInt
  upper : ticks.upper.toInt = multipleAbove band.upper.toInt spacing.toInt

section
variable {band ticks : TickBand} {spacing : Tick}

theorem exists_isWidened (h : 0 < spacing) (hfits : band.Fits spacing) :
    ∃ ticks, band.IsWidened ticks spacing := by
  have hd := Tick.toInt_pos h
  have hbelow := multipleBelow_le (z := band.lower.toInt) hd
  have habove := le_multipleAbove (z := band.upper.toInt) hd
  have hlower := Int32.toInt_lt band.lower
  have hupper := Int32.le_toInt band.upper
  obtain ⟨hlow, hhigh⟩ := hfits
  exact ⟨⟨Int32.ofInt _, Int32.ofInt _⟩, Int32.toInt_ofInt_of_le hlow (by omega),
    Int32.toInt_ofInt_of_le (by omega) hhigh⟩

/-- Two aligned ticks are a band that aligning leaves as it is. -/
theorem isWidened_self (h : 0 < spacing) (hlower : band.lower.isAligned spacing)
    (hupper : band.upper.isAligned spacing) : band.IsWidened band spacing := by
  have hd := Tick.toInt_pos h
  constructor
  · exact (multipleBelow_eq_self hd ((Tick.isAligned_iff h).mp hlower)).symm
  · exact (multipleAbove_eq_self hd ((Tick.isAligned_iff h).mp hupper)).symm

theorem align_of_isWidened (h : 0 < spacing) (hw : band.IsWidened ticks spacing) :
    band.align spacing =
      if ticks.upper ≤ ticks.lower then .error .emptyTickBand else .ok ticks := by
  rw [align, alignBy, Tick.alignDown_eq h, Tick.alignUp_eq h, fitInt32_eq_ok_iff.mpr hw.lower,
    ok_bind, fitInt32_eq_ok_iff.mpr hw.upper, ok_bind]
  split_ifs <;> rfl

theorem align_eq_overflow (h : 0 < spacing) (hfits : ¬band.Fits spacing) :
    band.align spacing = .error .arithmeticOverflow := by
  have hd := Tick.toInt_pos h
  have hbelow := multipleBelow_le (z := band.lower.toInt) hd
  have hlower := Int32.toInt_lt band.lower
  rw [align, alignBy, Tick.alignDown_eq h, Tick.alignUp_eq h]
  by_cases hlow : -2 ^ 31 ≤ multipleBelow band.lower.toInt spacing.toInt
  · have hhigh : ¬multipleAbove band.upper.toInt spacing.toInt < 2 ^ 31 := fun hh =>
      hfits ⟨hlow, hh⟩
    rw [fitInt32, if_pos ⟨hlow, by omega⟩, ok_bind, fitInt32, if_neg fun hh => hhigh hh.2,
      error_bind]
  · rw [fitInt32, if_neg fun hh => hlow hh.1, error_bind]

theorem align_eq_ok_iff : band.align spacing = .ok ticks ↔
    0 < spacing ∧ band.IsWidened ticks spacing ∧ ticks.lower < ticks.upper := by
  constructor
  · intro h
    have hs : 0 < spacing := by
      by_contra hs
      rw [align, alignBy, Tick.alignDown, if_pos (Int32.not_lt.mp hs), error_bind] at h
      cases h
    have hfits : band.Fits spacing := by
      by_contra hfits
      rw [align_eq_overflow hs hfits] at h
      cases h
    obtain ⟨ticks', hw⟩ := exists_isWidened hs hfits
    rw [align_of_isWidened hs hw] at h
    split_ifs at h with hle
    obtain rfl := Except.ok.inj h
    exact ⟨hs, hw, Int32.not_le.mp hle⟩
  · rintro ⟨hs, hw, hlt⟩
    rw [align_of_isWidened hs hw, if_neg (Int32.not_le.mpr hlt)]

/-- Aligning leaves no band of two ascending ticks empty, and of one tick only if it is aligned. -/
theorem IsWidened.lower_lt_upper_iff (hw : band.IsWidened ticks spacing) (h : 0 < spacing)
    (hle : band.lower ≤ band.upper) :
    ticks.lower < ticks.upper ↔ ¬(band.lower = band.upper ∧ band.lower.isAligned spacing) := by
  have hd := Tick.toInt_pos h
  rw [Int32.lt_iff_toInt_lt, hw.lower, hw.upper, Tick.isAligned_iff h]
  constructor
  · rintro hlt ⟨heq, hdvd⟩
    rw [← heq, multipleBelow_eq_self hd hdvd, multipleAbove_eq_self hd hdvd] at hlt
    exact lt_irrefl _ hlt
  · intro hne
    have hbelow := multipleBelow_le (z := band.lower.toInt) hd
    have habove := le_multipleAbove (z := band.upper.toInt) hd
    rcases eq_or_ne band.lower band.upper with heq | hlt
    · have hndvd : ¬spacing.toInt ∣ band.upper.toInt := fun hdvd => hne ⟨heq, heq ▸ hdvd⟩
      rw [heq, multipleAbove_of_not_dvd hd hndvd]
      exact lt_add_of_pos_right _ hd
    · have := Int32.lt_iff_toInt_lt.mp (Int32.lt_of_le_of_ne hle hlt)
      omega

/-! ### The full band -/

/-- The ends of the band are those of the grid, aligned inward. -/
structure IsFull (full : TickBand) (spacing : Tick) : Prop where
  lower : full.lower.toInt = multipleAbove minTick.toInt spacing.toInt
  upper : full.upper.toInt = multipleBelow maxTick.toInt spacing.toInt

/-- There is always a full band, since tick 0 is aligned to every spacing. -/
theorem exists_full (h : 0 < spacing) : ∃ full, TickBand.full spacing = .ok full ∧
    full.IsFull spacing := by
  have hd := Tick.toInt_pos h
  have hmin := toInt_minTick
  have hmax := toInt_maxTick
  have habove := le_multipleAbove (z := minTick.toInt) hd
  have hbelow := multipleBelow_le (z := maxTick.toInt) hd
  have hlower : multipleAbove minTick.toInt spacing.toInt ≤ 0 :=
    (multipleAbove_le_iff hd (Int.dvd_zero _)).mpr (by omega)
  have hupper : 0 ≤ multipleBelow maxTick.toInt spacing.toInt :=
    (le_multipleBelow_iff hd (Int.dvd_zero _)).mpr (by omega)
  refine ⟨⟨Int32.ofInt _, Int32.ofInt _⟩, ?_, Int32.toInt_ofInt_of_le ?_ ?_,
    Int32.toInt_ofInt_of_le ?_ ?_⟩
  · rw [full, fullBy, Tick.alignUp_eq h, Tick.alignDown_eq h, fitInt32, if_pos ⟨by omega, by omega⟩,
      ok_bind, fitInt32, if_pos ⟨by omega, by omega⟩, ok_bind]
    rfl
  all_goals omega

/-- A band lies inside the full one if and only if its aligned ends are on the grid. -/
theorem IsFull.isWithin_iff {full : TickBand} (hf : full.IsFull spacing) (h : 0 < spacing) :
    band.IsWithin full ↔
      minTick.toInt ≤ multipleBelow band.lower.toInt spacing.toInt ∧
        multipleAbove band.upper.toInt spacing.toInt ≤ maxTick.toInt := by
  have hd := Tick.toInt_pos h
  rw [IsWithin, Int32.le_iff_toInt_le, Int32.le_iff_toInt_le, hf.lower, hf.upper]
  refine and_congr ?_ ?_
  · rw [← le_multipleBelow_iff hd (dvd_multipleAbove _ _),
      multipleAbove_le_iff hd (dvd_multipleBelow _ _)]
  · rw [← multipleAbove_le_iff hd (dvd_multipleBelow _ _),
      le_multipleBelow_iff hd (dvd_multipleAbove _ _)]

theorem IsFull.fits {full : TickBand} (hf : full.IsFull spacing) (h : 0 < spacing)
    (hin : band.IsWithin full) : band.Fits spacing := by
  obtain ⟨hlower, hupper⟩ := (hf.isWithin_iff h).mp hin
  have hmin := toInt_minTick
  have hmax := toInt_maxTick
  exact ⟨by omega, by omega⟩

theorem IsWidened.inBounds_iff (hw : band.IsWidened ticks spacing) {full : TickBand}
    (hf : full.IsFull spacing) (h : 0 < spacing) (hlt : ticks.lower < ticks.upper) :
    ticks.lower.inBounds ∧ ticks.upper.inBounds ↔ band.IsWithin full := by
  have hmin : minTick.toInt = -(tickBound : ℤ) := rfl
  have hmax : maxTick.toInt = tickBound := rfl
  have hlt' := Int32.lt_iff_toInt_lt.mp hlt
  rw [hf.isWithin_iff h, Tick.inBounds_iff, Tick.inBounds_iff, ← hw.lower, ← hw.upper, hmin, hmax]
  constructor
  · rintro ⟨hlower, hupper⟩
    exact ⟨hlower.1, hupper.2⟩
  · rintro ⟨hlower, hupper⟩
    exact ⟨⟨hlower, by omega⟩, ⟨by omega, hupper⟩⟩

end

end TickBand

end LiquidityBand
