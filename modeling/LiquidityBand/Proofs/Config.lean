import LiquidityBand.Config
import LiquidityBand.Proofs.Register
import Mathlib.Tactic.SplitIfs

/-!
# Usable parameters

* `Config.IsUsable` collects what the checks of the parameters establish, and
  `Config.validate_eq_ok_iff` says that they pass exactly then.
-/

namespace LiquidityBand.Config

/-- Positions can be planned with the parameters: the spacing is positive, the decimals are not too
many, and the default range consists of two ascending aligned ticks of the grid. -/
structure IsUsable (c : Config) : Prop where
  spacing_pos : 0 < c.tickSpacing
  deposit_le : c.depositDecimals ≤ Amount.maxDecimals
  margin_le : c.marginDecimals ≤ Amount.maxDecimals
  ordered : c.defaultRange.lower < c.defaultRange.upper
  lower_inBounds : c.defaultRange.lower.inBounds
  upper_inBounds : c.defaultRange.upper.inBounds
  lower_aligned : c.defaultRange.lower.isAligned c.tickSpacing
  upper_aligned : c.defaultRange.upper.isAligned c.tickSpacing

section
variable {c : Config}

/-- The checks pass if and only if the parameters are usable. -/
theorem validate_eq_ok_iff : c.validate = .ok () ↔ c.IsUsable := by
  simp only [validate, validateBy, throw_eq_error, pure_eq_ok, ok_bind, id]
  constructor
  · intro h
    split_ifs at h with hspacing hdecimals hrange hbounds haligned
    obtain ⟨hdeposit, hmargin⟩ := not_or.mp hdecimals
    simp only [Bool.not_eq_true', not_or, Bool.not_eq_false] at hbounds haligned
    exact ⟨Int32.not_le.mp hspacing, UInt8.not_lt.mp hdeposit, UInt8.not_lt.mp hmargin,
      Int32.not_le.mp hrange, hbounds.1, hbounds.2, haligned.1, haligned.2⟩
  · intro h
    rw [if_neg (Int32.not_le.mpr h.spacing_pos), if_neg, if_neg (Int32.not_le.mpr h.ordered),
      if_neg, if_neg]
    · simp [h.lower_aligned, h.upper_aligned]
    · simp [h.lower_inBounds, h.upper_inBounds]
    · rintro (hdeposit | hmargin)
      · exact UInt8.not_lt.mpr h.deposit_le hdeposit
      · exact UInt8.not_lt.mpr h.margin_le hmargin

/-- The kind of failure plays no part in the checks. -/
theorem mapError_validateBy {ε δ : Type} (f : ε → δ) (failure : ConfigProblem → ε)
    (isAligned : Tick → Tick → Bool) (c : Config) :
    (c.validateBy failure fun t spacing => .ok (isAligned t spacing)).mapError f =
      c.validateBy (fun problem => f (failure problem))
        fun t spacing => .ok (isAligned t spacing) := by
  simp only [validateBy, ok_bind]
  split_ifs <;> rfl

/-- Counting a margin as a deposit never adds too many decimals. -/
theorem IsUsable.deposit_le_add (h : c.IsUsable) :
    c.depositDecimals.toNat ≤ c.marginDecimals.toNat + Amount.maxDecimals.toNat :=
  Nat.le_trans (UInt8.le_iff_toNat_le.mp h.deposit_le) (Nat.le_add_left _ _)

/-- Neither does counting a deposit as a margin. -/
theorem IsUsable.margin_le_add (h : c.IsUsable) :
    c.marginDecimals.toNat ≤ c.depositDecimals.toNat + Amount.maxDecimals.toNat :=
  Nat.le_trans (UInt8.le_iff_toNat_le.mp h.margin_le) (Nat.le_add_left _ _)

theorem tickSpacing_pos (h : c.validate = .ok ()) : 0 < c.tickSpacing :=
  (validate_eq_ok_iff.mp h).spacing_pos

end

end LiquidityBand.Config
