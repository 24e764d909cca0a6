import LiquidityBand.Proofs.Liquidity.Splitting

/-!
# What the formulas of one token refuse

The four formulas begin with the width of the range, so what is no range of stored prices is refused
by all of them, and for the same first reason. On a range of stored prices each is a quotient of
unbounded numbers, and it is refused exactly where 128 bits do not hold the quotient: no other step
leaves its register before the quotient does, and no divisor is zero.

* `SqrtRange.width_cases` are the reasons why a range has no width, in their order;
* `Liquidity.Formula` are the four formulas, with `Formula.value` the number that each computes, and
  `Liquidity.formulaOverflows` the causes for which they refuse it;
* `Liquidity.Formula.IsVerdict` says what a formula gives on any two prices, and
  `Liquidity.Formula.apply_isVerdict` that it does.
-/

namespace LiquidityBand

theorem SqrtRange.width_cases (r : SqrtRange) :
    (r.upper ≤ r.lower ∧ r.width = .error .emptySqrtPriceRange) ∨
    (r.lower < r.upper ∧ r.lower = 0 ∧ r.width = .error .zeroSqrtPrice) ∨
    (r.lower < r.upper ∧ r.lower ≠ 0 ∧ 2 ^ 160 ≤ r.upper.toNat ∧
      r.width = .error .sqrtPriceTooWide) ∨
    r.IsStored := by
  have hmax : maxStoredSqrtPrice.toNat = 2 ^ 160 - 1 := rfl
  unfold width
  split_ifs with hle hzero hwide
  · exact .inl ⟨hle, rfl⟩
  · exact .inr (.inl ⟨BitVec.not_le.mp hle, hzero, rfl⟩)
  · rw [BitVec.lt_def, hmax] at hwide
    exact .inr (.inr (.inl ⟨BitVec.not_le.mp hle, hzero, by omega, rfl⟩))
  · have hpos := Nat.pos_of_ne_zero fun h => hzero (BitVec.toNat_inj.mp h)
    exact .inr (.inr (.inr (isStored_iff.mpr
      ⟨BitVec.lt_def.mpr hpos, BitVec.not_le.mp hle, BitVec.not_lt.mp hwide⟩)))

namespace Liquidity

/-- A formula of one token: the liquidity of an amount, or the amount of a liquidity. -/
inductive Formula where
  | ofAmount0
  | ofAmount1
  | amount0 (roundUp : Bool)
  | amount1 (roundUp : Bool)

namespace Formula

/-- What the formula gives. -/
def apply : Formula → SqrtRange → UInt128 → Except Error UInt128
  | .ofAmount0, r, x => Liquidity.ofAmount0 r x
  | .ofAmount1, r, x => Liquidity.ofAmount1 r x
  | .amount0 up, r, x => Liquidity.amount0 r x up
  | .amount1 up, r, x => Liquidity.amount1 r x up

/-- The number that the formula computes, without any bound on it. -/
def value : Formula → SqrtRange → UInt128 → ℕ
  | .ofAmount0, r, x => x.toNat * (r.lower.toNat * r.upper.toNat / 2 ^ 96) / r.span
  | .ofAmount1, r, x => x.toNat * 2 ^ 96 / r.span
  | .amount0 up, r, x =>
      roundedDiv up (x.toNat * 2 ^ 96 * r.span) (r.upper.toNat * r.lower.toNat)
  | .amount1 up, r, x => roundedDiv up (x.toNat * r.span) (2 ^ 96)

end Formula

/-- The causes for which a number is refused that 128 bits do not hold. -/
def formulaOverflows : List Error := [.arithmeticOverflow, .liquidityTooWide, .amountTooWide]

section
variable {f : Formula} {r : SqrtRange} {x : UInt128} {e : Error}

theorem kind_of_mem_formulaOverflows (h : e ∈ formulaOverflows) : e.kind = some .overflow := by
  cases e <;> first | rfl | exact absurd h (by decide)

theorem Formula.apply_of_width_error (f : Formula) (x : UInt128) (h : r.width = .error e) :
    f.apply r x = .error e := by
  cases f
  case ofAmount0 => rw [apply, Liquidity.ofAmount0, ofAmount0By, h, error_bind]
  case ofAmount1 => rw [apply, Liquidity.ofAmount1, h, error_bind]
  case amount0 => rw [apply, Liquidity.amount0, h, error_bind]
  case amount1 => rw [apply, Liquidity.amount1, amount1By, h, error_bind]

theorem Formula.stores_apply (h : r.IsStored) (f : Formula) (x : UInt128) :
    Stores (f.apply r x) (f.value r x) := by
  cases f
  case ofAmount0 => exact fun _ => ofAmount0_eq_ok_iff h
  case ofAmount1 => exact fun _ => ofAmount1_eq_ok_iff h
  case amount0 up => exact stores_amount0 h x up
  case amount1 up => exact stores_amount1 h x up

/-- On a range of stored prices the only refusal is that of a register, and only the liquidity of an
amount of token 0 can leave the register of 256 bits. -/
theorem Formula.mem_formulaOverflows_of_apply (h : r.IsStored) (he : f.apply r x = .error e) :
    e ∈ formulaOverflows := by
  cases f
  case ofAmount0 =>
    rw [apply, ofAmount0_eq h, bind_eq_error_iff] at he
    simp only [fit_eq_error_iff] at he
    obtain ⟨-, rfl⟩ | ⟨y, -, -, rfl⟩ := he <;> simp [formulaOverflows]
  case ofAmount1 =>
    rw [apply, ofAmount1_eq h, fit_eq_error_iff] at he
    simp [formulaOverflows, he.2]
  case amount0 =>
    rw [apply, amount0_eq h, fit_eq_error_iff] at he
    simp [formulaOverflows, he.2]
  case amount1 =>
    rw [apply, amount1_eq h, fit_eq_error_iff] at he
    simp [formulaOverflows, he.2]

end

/-- What a formula gives on two prices: the first reason why they are no range of stored prices,
else the number that it computes, refused as an overflow where 128 bits do not hold it. -/
structure Formula.IsVerdict (f : Formula) (r : SqrtRange) (x : UInt128)
    (result : Except Error UInt128) : Prop where
  empty_iff : result = .error .emptySqrtPriceRange ↔ r.upper ≤ r.lower
  zero_iff : result = .error .zeroSqrtPrice ↔ r.lower < r.upper ∧ r.lower = 0
  tooWide_iff : result = .error .sqrtPriceTooWide ↔
    r.lower < r.upper ∧ r.lower ≠ 0 ∧ 2 ^ 160 ≤ r.upper.toNat
  stores : r.IsStored → ∀ y, result = .ok y ↔ y.toNat = f.value r x
  overflow : r.IsStored → 2 ^ 128 ≤ f.value r x → ∃ e, result = .error e ∧ e.kind = some .overflow
  ne_divisionByZero : result ≠ .error .divisionByZero

/-- Each formula refuses two prices that descend or are equal, else a price of zero, else a price of
more than 160 bits; and nothing else but numbers of more than 128 bits. -/
theorem Formula.apply_isVerdict (f : Formula) (r : SqrtRange) (x : UInt128) :
    f.IsVerdict r x (f.apply r x) := by
  rcases r.width_cases with ⟨hle, hw⟩ | ⟨hlt, hzero, hw⟩ | ⟨hlt, hne, hwide, hw⟩ | h
  · have hnot : ¬r.IsStored := fun h => absurd hle (BitVec.not_le.mpr (BitVec.lt_def.mpr h.lt))
    rw [f.apply_of_width_error x hw]
    constructor <;> simp [hle, hnot, BitVec.not_lt.mpr hle]
  · have hnot : ¬r.IsStored := fun h => h.pos.ne' (by rw [hzero]; rfl)
    rw [f.apply_of_width_error x hw]
    change r.lower = 0#256 at hzero
    constructor <;> simp [hlt, eq_true hzero, hnot, BitVec.not_le.mpr hlt]
  · have hnot : ¬r.IsStored := fun h => absurd h.stored (Nat.not_lt.mpr hwide)
    rw [f.apply_of_width_error x hw]
    change r.lower ≠ 0#256 at hne
    constructor <;> simp [hlt, hne, hwide, hnot, BitVec.not_le.mpr hlt]
  · have hlt : r.lower < r.upper := BitVec.lt_def.mpr h.lt
    have hrefused {e : Error} (he : e ∉ formulaOverflows) : f.apply r x ≠ .error e :=
      fun heq => he (mem_formulaOverflows_of_apply h heq)
    constructor
    case empty_iff => exact iff_of_false (hrefused (by decide)) (BitVec.not_le.mpr hlt)
    case zero_iff =>
      exact iff_of_false (hrefused (by decide)) fun hzero => h.pos.ne' (by rw [hzero.2]; rfl)
    case tooWide_iff =>
      exact iff_of_false (hrefused (by decide)) fun hwide =>
        absurd h.stored (Nat.not_lt.mpr hwide.2.2)
    case stores => exact fun _ => stores_apply h f x
    case overflow =>
      intro _ hvalue
      cases hresult : f.apply r x with
      | ok y => exact absurd y.isLt (Nat.not_lt.mpr ((stores_apply h f x y).mp hresult ▸ hvalue))
      | error e =>
        have hmem := mem_formulaOverflows_of_apply h hresult
        exact ⟨e, rfl, kind_of_mem_formulaOverflows hmem⟩
    case ne_divisionByZero => exact hrefused (by decide)

end Liquidity

end LiquidityBand
