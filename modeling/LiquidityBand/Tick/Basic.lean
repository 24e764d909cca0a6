import LiquidityBand.Register

/-!
# Ticks

Prices are held on a geometric grid: tick `t` is the price `1.0001 ^ t`. Square-root prices are
fixed-point numbers with 96 fractional bits.

* `Tick.inBounds` says that a tick has a square-root price, which then lies between
  `minSqrtPrice` and `maxSqrtPrice`;
* `TickBand` is a pair of ticks, and `TickBand.ordered` the pair in ascending order;
* `Tick.invert` is the tick of the inverted price.
-/

namespace LiquidityBand

/-- The index of a price on the grid. -/
abbrev Tick := Int32

/-- A square-root price, times `2 ^ 96`. -/
abbrev SqrtPrice := UInt256

/-- The greatest tick, by absolute value. -/
def tickBound : Nat := 887272

/-- The least tick. -/
def minTick : Tick := Int32.ofInt (-tickBound)

/-- The greatest tick. -/
def maxTick : Tick := Int32.ofInt tickBound

/-- The square-root price of the least tick. -/
def minSqrtPrice : SqrtPrice := 4295128739

/-- The square-root price of the greatest tick. -/
def maxSqrtPrice : SqrtPrice := 1461446703485210103287273052203988822378723970342

/-- The greatest square-root price that a pool can store: 160 bits. -/
def maxStoredSqrtPrice : SqrtPrice := BitVec.ofNat 256 (2 ^ 160 - 1)

/-- The tick has a square-root price. -/
def Tick.inBounds (t : Tick) : Bool := minTick ≤ t && t ≤ maxTick

/-- The tick of the inverted price; a fault if the register has no such tick. -/
def Tick.invert (t : Tick) : Except Error Tick := fitInt32 .fault (-t.toInt)

/-- A pair of ticks. -/
structure TickBand where
  lower : Tick
  upper : Tick
  deriving DecidableEq, Repr

/-- Two ticks in ascending order. -/
def TickBand.ordered (a b : Tick) : TickBand := if a < b then ⟨a, b⟩ else ⟨b, a⟩

theorem toInt_minTick : minTick.toInt = -887272 := rfl

theorem toInt_maxTick : maxTick.toInt = 887272 := rfl

theorem Tick.inBounds_iff (t : Tick) :
    t.inBounds ↔ -(tickBound : Int) ≤ t.toInt ∧ t.toInt ≤ tickBound := by
  rw [inBounds, Bool.and_eq_true, decide_eq_true_iff, decide_eq_true_iff, Int32.le_iff_toInt_le,
    Int32.le_iff_toInt_le]
  exact Iff.rfl

theorem Tick.min_max_cases (a b : Tick) :
    min a b = a ∧ max a b = b ∧ a ≤ b ∨ min a b = b ∧ max a b = a ∧ b ≤ a := by
  change (if a ≤ b then a else b) = a ∧ (if a ≤ b then b else a) = b ∧ a ≤ b ∨
    (if a ≤ b then a else b) = b ∧ (if a ≤ b then b else a) = a ∧ b ≤ a
  by_cases hle : a ≤ b
  · simp [hle]
  · have hge : b ≤ a := Int32.le_of_lt (Int32.not_le.mp hle)
    simp [hle, hge]

theorem Tick.min_lt_max {a b : Tick} (hne : a ≠ b) : min a b < max a b := by
  rcases min_max_cases a b with ⟨hmin, hmax, hle⟩ | ⟨hmin, hmax, hle⟩
  · rw [hmin, hmax]
    exact Int32.lt_of_le_of_ne hle hne
  · rw [hmin, hmax]
    exact Int32.lt_of_le_of_ne hle hne.symm

theorem Tick.min_max_inBounds_iff {a b : Tick} :
    (min a b).inBounds ∧ (max a b).inBounds ↔ a.inBounds ∧ b.inBounds := by
  rcases min_max_cases a b with ⟨hmin, hmax, -⟩ | ⟨hmin, hmax, -⟩
  · rw [hmin, hmax]
  · rw [hmin, hmax]
    exact and_comm

/-- The ends of the pair are the lesser and the greater tick. -/
theorem TickBand.ordered_eq (a b : Tick) : ordered a b = ⟨min a b, max a b⟩ := by
  unfold ordered
  rcases Tick.min_max_cases a b with ⟨hmin, hmax, hle⟩ | ⟨hmin, hmax, hle⟩
  · rw [hmin, hmax]
    by_cases hlt : a < b
    · rw [if_pos hlt]
    · rw [if_neg hlt, Int32.le_antisymm hle (Int32.not_lt.mp hlt)]
  · rw [hmin, hmax, if_neg (Int32.not_lt.mpr hle)]

/-- The order of the two ticks does not matter. -/
theorem TickBand.ordered_comm (a b : Tick) : ordered a b = ordered b a := by
  unfold ordered
  by_cases hab : a < b
  · rw [if_pos hab, if_neg (Int32.lt_asymm hab)]
  by_cases hba : b < a
  · rw [if_neg hab, if_pos hba]
  · rw [if_neg hab, if_neg hba, Int32.le_antisymm (Int32.not_lt.mp hba) (Int32.not_lt.mp hab)]

end LiquidityBand
