import LiquidityBand.Proofs.Guarded.Tick
import Mathlib.Order.Bounds.Basic

/-!
# The nearest multiples of the tick spacing

Aligning a tick finds the greatest multiple of the spacing at or below it, and the least one at or
above it, among all integers. Only the register of a tick stands in the way: the multiple below can
leave it at the low end, and the one above at the high end.

* `isGreatest_multipleBelow` and `isLeast_multipleAbove` say which multiples the two roundings are;
* `Tick.IsBetween` is what aligning a tick between two multiples gives;
* `Tick.align_nearest` says that every tick lies between the nearest ones, for every positive
  spacing, that no step on the way leaves its register, and which ticks alignment does not move.
-/

namespace LiquidityBand

section
variable {z d : ℤ} {cause : Error}

theorem isGreatest_multipleBelow (hd : 0 < d) :
    IsGreatest {m | d ∣ m ∧ m ≤ z} (multipleBelow z d) :=
  ⟨⟨dvd_multipleBelow z d, multipleBelow_le hd⟩,
    fun _ hm => (le_multipleBelow_iff hd hm.1).mpr hm.2⟩

theorem isLeast_multipleAbove (hd : 0 < d) : IsLeast {m | d ∣ m ∧ z ≤ m} (multipleAbove z d) :=
  ⟨⟨dvd_multipleAbove z d, le_multipleAbove hd⟩,
    fun _ hm => (multipleAbove_le_iff hd hm.1).mpr hm.2⟩

theorem exists_fitInt32 (hlow : -2 ^ 31 ≤ z) (hhigh : z < 2 ^ 31) :
    ∃ t, fitInt32 cause z = .ok t ∧ t.toInt = z :=
  ⟨_, if_pos ⟨hlow, hhigh⟩, Int32.toInt_ofInt_of_le hlow hhigh⟩

theorem fitInt32_ne_error {e : Error} (h : e ≠ cause) : fitInt32 cause z ≠ .error e := by
  unfold fitInt32
  split_ifs
  · exact nofun
  · exact fun he => h (Except.error.inj he).symm

end

namespace Tick

/-- The tick lies between two neighbouring multiples of the spacing, and aligning it gives the one
on either side, unless that one has left the register of a tick. -/
structure IsBetween (t spacing : Tick) (below above : ℤ) : Prop where
  greatest : IsGreatest {m : ℤ | spacing.toInt ∣ m ∧ m ≤ t.toInt} below
  least : IsLeast {m : ℤ | spacing.toInt ∣ m ∧ t.toInt ≤ m} above
  down_ok : -2 ^ 31 ≤ below → ∃ r, t.alignDown spacing = .ok r ∧ r.toInt = below
  down_overflow : below < -2 ^ 31 → t.alignDown spacing = .error .arithmeticOverflow
  up_ok : above ≤ 2 ^ 31 - 1 → ∃ r, t.alignUp spacing = .ok r ∧ r.toInt = above
  up_overflow : 2 ^ 31 - 1 < above → t.alignUp spacing = .error .arithmeticOverflow

section
variable {t spacing : Tick}

theorem isBetween (h : 0 < spacing) : t.IsBetween spacing
    (multipleBelow t.toInt spacing.toInt) (multipleAbove t.toInt spacing.toInt) := by
  have hd := toInt_pos h
  have hbelow := multipleBelow_le (z := t.toInt) hd
  have habove := le_multipleAbove (z := t.toInt) hd
  have hlow := Int32.le_toInt t
  have hhigh := Int32.toInt_lt t
  constructor
  case greatest => exact isGreatest_multipleBelow hd
  case least => exact isLeast_multipleAbove hd
  case down_ok =>
    intro hfits
    rw [alignDown_eq h]
    exact exists_fitInt32 hfits (by omega)
  case down_overflow =>
    intro hleaves
    rw [alignDown_eq h, fitInt32, if_neg (by omega)]
  case up_ok =>
    intro hfits
    rw [alignUp_eq h]
    exact exists_fitInt32 (by omega) (by omega)
  case up_overflow =>
    intro hleaves
    rw [alignUp_eq h, fitInt32, if_neg (by omega)]

theorem align_eq_nonpositiveSpacing_iff (rounding : Rounding) :
    t.align spacing rounding = .error .nonpositiveSpacing ↔ spacing ≤ 0 := by
  constructor
  · intro h
    by_contra hpos
    cases rounding with
    | down =>
      rw [align, alignBy, alignDown_eq (Int32.not_le.mp hpos)] at h
      exact fitInt32_ne_error (by decide) h
    | up =>
      rw [align, alignBy, alignUp_eq (Int32.not_le.mp hpos)] at h
      exact fitInt32_ne_error (by decide) h
  · intro h
    cases rounding <;> exact if_pos h

theorem spacing_pos_of_alignDown {r : Tick} (h : t.alignDown spacing = .ok r) : 0 < spacing := by
  by_contra hpos
  have hrefused := (align_eq_nonpositiveSpacing_iff (t := t) .down).mpr (Int32.not_lt.mp hpos)
  rw [align, alignBy, h] at hrefused
  cases hrefused

theorem spacing_pos_of_isAligned (h : t.isAligned spacing) : 0 < spacing :=
  decide_eq_true_iff.mp (Bool.and_eq_true_iff.mp h).1

/-- Aligning in either direction keeps a tick where it is if and only if it is aligned. -/
theorem align_eq_self_iff : t.alignDown spacing = .ok t ∧ t.alignUp spacing = .ok t ↔
    t.isAligned spacing := by
  constructor
  · rintro ⟨hdown, -⟩
    have h := spacing_pos_of_alignDown hdown
    rw [alignDown_eq h, fitInt32_eq_ok_iff] at hdown
    rw [isAligned_iff h, hdown]
    exact dvd_multipleBelow _ _
  · intro haligned
    have h := spacing_pos_of_isAligned haligned
    have hd := toInt_pos h
    rw [isAligned_iff h] at haligned
    rw [alignDown_eq h, alignUp_eq h, fitInt32_eq_ok_iff, fitInt32_eq_ok_iff,
      multipleBelow_eq_self hd haligned, multipleAbove_eq_self hd haligned]
    exact ⟨rfl, rfl⟩

/-- Alignment refuses a spacing if and only if it is not positive, and otherwise gives the nearest
multiples among the integers, or an overflow where they leave the register. Of its steps none can
do so but the last. -/
theorem align_nearest (t spacing : Tick) :
    (t.alignDown spacing = .error .nonpositiveSpacing ↔ spacing ≤ 0) ∧
    (t.alignUp spacing = .error .nonpositiveSpacing ↔ spacing ≤ 0) ∧
    (0 < spacing → ∃ below above, t.IsBetween spacing below above) ∧
    Guarded.IsSafe (Guarded.alignDown t spacing) (t.alignDown spacing) ∧
    Guarded.IsSafe (Guarded.alignUp t spacing) (t.alignUp spacing) ∧
    (t.alignDown spacing = .ok t ∧ t.alignUp spacing = .ok t ↔ t.isAligned spacing) :=
  ⟨align_eq_nonpositiveSpacing_iff .down, align_eq_nonpositiveSpacing_iff .up,
    fun h => ⟨_, _, isBetween h⟩, Guarded.alignDown_isSafe t spacing,
    Guarded.alignUp_isSafe t spacing, align_eq_self_iff⟩

/-- The least tick of the register, at a spacing that does not divide it. -/
theorem align_nearest_at_minValue :
    (0 : Tick) < 3 ∧ IsBetween Int32.minValue 3 (-2147483649) (-2147483646) := by
  obtain ⟨below, above, h⟩ := (align_nearest Int32.minValue 3).2.2.1 (by decide)
  obtain rfl := h.greatest.unique (isGreatest_multipleBelow (by decide))
  obtain rfl := h.least.unique (isLeast_multipleAbove (by decide))
  exact ⟨by decide, h⟩

end

end Tick

end LiquidityBand
