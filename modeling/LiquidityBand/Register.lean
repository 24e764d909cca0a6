import LiquidityBand.Error

/-!
# Registers

Amounts and liquidities are held in 128 bits, square-root prices in 256, ticks in 32 signed bits.
Formulas are computed over the unbounded numbers, one step at a time, and each step says what
happens if its result does not fit its register.

* `fit` stores a natural number in an unsigned register, or reports the given cause, of whatever
  kind it is.
* `fitInt32` does the same for the signed register of a tick.
* `difference` and `quotient` are the two operations of a register that have no result at all on
  some operands; there they report a fault.
-/

-- powers of whole numbers are those of the core library, whatever else is imported
attribute [default_instance (high + 1), instance (high)] instPowNat

namespace LiquidityBand

/-- The width of an amount or a liquidity. -/
abbrev UInt128 := BitVec 128

/-- The width of a square-root price. -/
abbrev UInt256 := BitVec 256

/-- The number `n` in `w` unsigned bits, or `cause` if it does not fit. -/
def fit {ε : Type} (w : Nat) (cause : ε) (n : Nat) : Except ε (BitVec w) :=
  if n < 2 ^ w then .ok (BitVec.ofNat w n) else .error cause

/-- The number `z` in 32 signed bits, or `cause` if it does not fit. -/
def fitInt32 (cause : Error) (z : Int) : Except Error Int32 :=
  if -2 ^ 31 ≤ z ∧ z < 2 ^ 31 then .ok (Int32.ofInt z) else .error cause

/-- The difference of two unsigned values; a fault if it is negative. -/
def difference (a b : Nat) : Except Error Nat :=
  if b ≤ a then .ok (a - b) else .error .fault

/-- The whole part of a quotient; a fault if the divisor is zero. -/
def quotient (a b : Nat) : Except Error Nat :=
  if b = 0 then .error .fault else .ok (a / b)

/-- A shift amount for a register of `w` bits; a fault if it reaches the width. -/
def shiftAmount (w n : Nat) : Except Error Nat :=
  if n < w then .ok n else .error .fault

section
variable {ε : Type} {w n : Nat} {cause : ε}

theorem fit_eq_ok (h : n < 2 ^ w) : fit w cause n = .ok (BitVec.ofNat w n) := if_pos h

theorem fit_eq_error (h : 2 ^ w ≤ n) : fit w cause n = .error cause :=
  if_neg (Nat.not_lt.mpr h)

/-- A register holds the number that was stored in it. -/
theorem fit_eq_ok_iff {x : BitVec w} : fit w cause n = .ok x ↔ x.toNat = n := by
  by_cases h : n < 2 ^ w
  · rw [fit_eq_ok h, Except.ok.injEq, ← BitVec.toNat_inj, BitVec.toNat_ofNat, Nat.mod_eq_of_lt h]
    exact eq_comm
  · rw [fit_eq_error (Nat.not_lt.mp h)]
    exact ⟨nofun, fun hx => absurd (hx ▸ x.isLt) h⟩

theorem fit_eq_error_iff {e : ε} : fit w cause n = .error e ↔ 2 ^ w ≤ n ∧ e = cause := by
  by_cases h : n < 2 ^ w
  · rw [fit_eq_ok h]
    exact ⟨nofun, fun he => absurd he.1 (Nat.not_le.mpr h)⟩
  · rw [fit_eq_error (Nat.not_lt.mp h), Except.error.injEq]
    exact ⟨fun he => ⟨Nat.not_lt.mp h, he.symm⟩, fun he => he.2.symm⟩

end

theorem difference_eq_ok {a b : Nat} (h : b ≤ a) : difference a b = .ok (a - b) := if_pos h

theorem quotient_eq_ok {a b : Nat} (h : b ≠ 0) : quotient a b = .ok (a / b) := if_neg h

theorem shiftAmount_eq_ok {w n : Nat} (h : n < w) : shiftAmount w n = .ok n := if_pos h

/-- A tick register holds the integer that was stored in it. -/
theorem fitInt32_eq_ok_iff {cause : Error} {z : Int} {x : Int32} :
    fitInt32 cause z = .ok x ↔ x.toInt = z := by
  rw [fitInt32]
  by_cases h : -2 ^ 31 ≤ z ∧ z < 2 ^ 31
  · rw [if_pos h, Except.ok.injEq, ← Int32.toInt_inj, Int32.toInt_ofInt_of_le h.1 h.2]
    exact eq_comm
  · rw [if_neg h]
    refine ⟨nofun, fun hx => absurd ⟨?_, ?_⟩ h⟩
    · have := Int32.le_toInt x; omega
    · have := Int32.toInt_lt x; omega

end LiquidityBand
