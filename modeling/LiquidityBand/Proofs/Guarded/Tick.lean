import LiquidityBand.Proofs.Guarded.Register
import LiquidityBand.Proofs.Tick.Alignment
import LiquidityBand.Proofs.Tick.SqrtPrice
import LiquidityBand.Status
import Mathlib.Data.Nat.Bitwise

/-!
# Ticks with guards

The square-root price of a tick, the status of a position and the alignment to the tick spacing,
each step with its guard. The partial products of a price fit 256 bits because no factor exceeds
one, and the divisor of a reciprocal is not zero because the least tick still has a ratio of 64
bits. Rounding up to a multiple leaves its register only for a spacing of one, at which nothing is
rounded.

* `sqrtPrice` is the square-root price, with `sqrtPrice_isSafe`; `status` is the status of a
  position, with `status_isSafe`;
* `isAligned`, `alignDown` and `alignUp` are the three operations on a tick, `alignBand` and
  `fullBand` those on a band, each with its `_isSafe`;
* `invert` is the tick of the inverted price, which one tick does not have: by
  `invert_eq_fault_iff` that tick, and no other, leads to a fault.
-/

namespace LiquidityBand.Guarded

/-! ### Square-root prices -/

/-- One binary place of the exponent. -/
def ratioStep (n ratio : Nat) (place : Nat × Nat) : Except Error Nat := do
  let mask ← shiftUp 32 1 place.2
  if n &&& mask = 0 then return ratio
  else do shiftDown 256 (← store 256 (ratio * place.1)) 128

/-- The power `1.0001 ^ (-n / 2)`, times `2 ^ 128`. -/
def fallingRatio (n : Nat) : Except Error Nat :=
  Tick.halvingFactors.zipIdx.foldlM (ratioStep n) (2 ^ 128)

/-- A number with 32 of its fractional bits dropped, rounded up. -/
def drop32 (ratio : Nat) : Except Error Nat := do
  let whole ← shiftDown 256 ratio 32
  store 256 (whole + if ratio &&& (2 ^ 32 - 1) = 0 then 0 else 1)

/-- The square-root price of a tick. -/
def sqrtPrice (t : Tick) : Except Error SqrtPrice :=
  if t.inBounds then do
    let falling ← fallingRatio t.toInt.natAbs
    let ratio ← if 0 < t then quotient (2 ^ 256 - 1) falling else pure falling
    return BitVec.ofNat 256 (← drop32 ratio)
  else throw .tickOutOfBounds

section
variable {α β : Type} {w n : ℕ}

/-- A number is kept as it is, whether as a number or as a register. -/
theorem store_bind_eq {f : ℕ → Except Error α} {g : BitVec w → Except Error α}
    (h : ∀ x : BitVec w, f x.toNat = g x) : (store w n >>= f) = (fit w .fault n >>= g) := by
  by_cases hn : n < 2 ^ w
  · rw [store_eq hn, fit_eq_ok hn, ok_bind, ok_bind, ← h, toNat_ofNat_of_lt hn]
  · rw [store, if_neg hn, fit, if_neg hn, error_bind, error_bind]

theorem ratioStep_eq {place : ℕ × ℕ} (h : place.2 < 20) (n ratio : ℕ) :
    ratioStep n ratio place = Tick.ratioStep n ratio place := by
  have hmask : 1 * 2 ^ place.2 < 2 ^ 32 := by
    rw [Nat.one_mul]
    exact Nat.pow_lt_pow_right (by decide) (by omega)
  rw [ratioStep, Tick.ratioStep, shiftUp_eq (by omega) hmask, ok_bind, Nat.one_mul,
    Nat.and_two_pow]
  cases n.testBit place.2 with
  | false => simp
  | true =>
    simp only [Bool.toNat_true, Nat.one_mul, (Nat.two_pow_pos place.2).ne', if_true, if_false]
    exact store_bind_eq fun x => shiftDown_eq (by decide) x.toNat

/-- Loops agree if their steps do. -/
theorem foldlM_eq {f g : β → α → Except Error β} {l : List α} (h : ∀ a ∈ l, ∀ b, f b a = g b a)
    (b : β) : l.foldlM f b = l.foldlM g b := by
  induction l generalizing b with
  | nil => rfl
  | cons a l ih =>
    rw [List.forall_mem_cons] at h
    rw [List.foldlM_cons, List.foldlM_cons, h.1]
    cases g b a with
    | ok c => exact ih h.2 c
    | error e => rfl

theorem fallingRatio_eq (n : ℕ) : fallingRatio n = Tick.fallingRatio n := by
  refine foldlM_eq (fun place hplace ratio => ratioStep_eq ?_ n ratio) _
  obtain ⟨-, hlt, -⟩ := List.mem_zipIdx hplace
  exact hlt

theorem drop32_eq (ratio : ℕ) : drop32 ratio = store 256 (Tick.drop32 ratio) := by
  rw [drop32, shiftDown_eq (by decide), ok_bind, Tick.drop32, Nat.and_two_pow_sub_one_eq_mod]

theorem drop32_bind_eq (ratio : ℕ) :
    (do return BitVec.ofNat 256 (← drop32 ratio)) = fit 256 .fault (Tick.drop32 ratio) := by
  rw [drop32_eq]
  by_cases h : Tick.drop32 ratio < 2 ^ 256
  · rw [store_eq h, fit_eq_ok h]
    rfl
  · rw [store, if_neg h, fit, if_neg h]
    rfl

theorem sqrtPrice_isSafe (t : Tick) : IsSafe (sqrtPrice t) t.sqrtPrice := by
  have heq : sqrtPrice t = t.sqrtPrice := by
    rw [sqrtPrice, Tick.sqrtPrice, fallingRatio_eq]
    simp only [drop32_bind_eq]
    rfl
  rw [heq]
  by_cases h : t.inBounds
  · obtain ⟨s, -, hs, -⟩ := Tick.exists_sqrtPrice h
    exact isSafe_of_eq_ok hs hs
  · rw [Tick.sqrtPrice_eq_error h]
    exact isSafe_refusal (by decide)

end

/-! ### Positions -/

/-- The value of a step that may refuse; a fault goes on. -/
def settled {α : Type} : Except Error α → Except Error (Option α)
  | .ok a => .ok (some a)
  | .error .fault => .error .fault
  | .error _ => .ok none

/-- The status of a position between two ticks. -/
def status (current : SqrtPrice) (a b : Tick) : Except Error Status :=
  if a = b then return .invalid
  else do
    let r := TickBand.ordered a b
    match ← settled (sqrtPrice r.lower), ← settled (sqrtPrice r.upper) with
    | some lower, some upper => return Status.ofSqrtPrices current lower upper
    | _, _ => return .invalid

/-- The price is inside the range of the position. -/
def isInRange (current : SqrtPrice) (a b : Tick) : Except Error Bool := do
  return (← status current a b) == .inRange

theorem IsSafe.settled_eq {α : Type} {x y : Except Error α} (h : IsSafe x y) :
    settled x = .ok y.toOption := by
  obtain ⟨rfl, hfault⟩ := h
  cases x with
  | ok a => rfl
  | error e => cases e <;> first | rfl | exact absurd rfl (hfault _ rfl)

theorem status_isSafe (current : SqrtPrice) (a b : Tick) :
    IsSafe (status current a b) (.ok (Status.ofTicks current a b)) := by
  refine isSafe_of_eq_ok ?_ rfl
  rw [status, Status.ofTicks]
  split
  · rfl
  · simp only [(sqrtPrice_isSafe _).settled_eq, ok_bind]
    cases (TickBand.ordered a b).lower.sqrtPrice <;>
      cases (TickBand.ordered a b).upper.sqrtPrice <;> rfl

theorem isInRange_isSafe (current : SqrtPrice) (a b : Tick) :
    IsSafe (isInRange current a b) (.ok (Status.isInRange current a b)) := by
  refine isSafe_of_eq_ok ?_ rfl
  rw [isInRange, (status_isSafe current a b).eq]
  rfl

/-! ### Alignment -/

/-- The quotient in 32 signed bits, rounded toward zero. -/
def truncatedQuotient (a b : Int) : Except Error Int :=
  if b = 0 then throw .fault else storeSigned 32 (a.tdiv b)

/-- The quotient in 32 signed bits, rounded so that no remainder is negative. -/
def euclideanQuotient (a b : Int) : Except Error Int :=
  if b = 0 then throw .fault else storeSigned 32 (a / b)

/-- The tick is a multiple of a positive spacing; there is a remainder only where the quotient fits
its register. -/
def isAligned (t spacing : Tick) : Except Error Bool :=
  if 0 < spacing then do
    let _ ← truncatedQuotient t.toInt spacing.toInt
    return t.toInt.tmod spacing.toInt == 0
  else return false

/-- The greatest multiple of the spacing that is at most the tick. -/
def alignDown (t spacing : Tick) : Except Error Tick :=
  if spacing ≤ 0 then throw .nonpositiveSpacing
  else do
    let cell ← euclideanQuotient t.toInt spacing.toInt
    fitInt32 .arithmeticOverflow (cell * spacing.toInt)

/-- The least multiple of the spacing that is at least the tick. -/
def alignUp (t spacing : Tick) : Except Error Tick :=
  if spacing ≤ 0 then throw .nonpositiveSpacing
  else do
    let below ← euclideanQuotient t.toInt spacing.toInt
    let cell ← if t.toInt % spacing.toInt = 0 then pure below else storeSigned 32 (below + 1)
    fitInt32 .arithmeticOverflow (cell * spacing.toInt)

/-- The tick aligned in the given direction. -/
def align (t spacing : Tick) (rounding : Rounding) : Except Error Tick :=
  t.alignBy alignDown alignUp spacing rounding

/-- The band with its lower tick aligned down and its upper tick aligned up. -/
def alignBand (r : TickBand) (spacing : Tick) : Except Error TickBand :=
  r.alignBy alignDown alignUp spacing

/-- The least and the greatest tick that a position can have. -/
def fullBand (spacing : Tick) : Except Error TickBand :=
  TickBand.fullBy alignDown alignUp spacing

section
variable {t spacing : Tick}

theorem euclideanQuotient_eq (h : 0 < spacing) :
    euclideanQuotient t.toInt spacing.toInt = .ok (t.toInt / spacing.toInt) := by
  have hd := Tick.toInt_pos h
  have hlow := Int32.le_toInt t
  have hhigh := Int32.toInt_lt t
  rw [euclideanQuotient, if_neg hd.ne']
  refine storeSigned_eq ?_ ?_
  · exact (Int.le_ediv_iff_mul_le hd).mpr (by omega)
  · exact (Int.ediv_lt_iff_lt_mul hd).mpr (by omega)

theorem truncatedQuotient_eq (h : 0 < spacing) :
    truncatedQuotient t.toInt spacing.toInt = .ok (t.toInt.tdiv spacing.toInt) := by
  have hd := Tick.toInt_pos h
  have hlow := Int32.le_toInt t
  have hhigh := Int32.toInt_lt t
  have hle := Int.natAbs_tdiv_le_natAbs t.toInt spacing.toInt
  rw [truncatedQuotient, if_neg hd.ne']
  -- only the least tick is as large as 2 ^ 31, and its quotient is not positive
  rcases Int.le_total 0 t.toInt with hnonneg | hnonpos
  · exact storeSigned_eq (by omega) (by omega)
  · have hquotient := Int.tdiv_nonneg (Int.neg_nonneg.mpr hnonpos) hd.le
    rw [Int.neg_tdiv] at hquotient
    exact storeSigned_eq (by omega) (by omega)

end

section
variable (t spacing : Tick)

theorem isAligned_isSafe : IsSafe (isAligned t spacing) (.ok (t.isAligned spacing)) := by
  refine isSafe_of_eq_ok ?_ rfl
  rw [isAligned, Tick.isAligned]
  split_ifs with h
  · rw [truncatedQuotient_eq h, decide_eq_true h]
    rfl
  · rw [decide_eq_false h]
    rfl

theorem alignDown_isSafe : IsSafe (alignDown t spacing) (t.alignDown spacing) := by
  rw [alignDown, Tick.alignDown]
  refine .ite (fun _ => isSafe_refusal (by decide)) fun h => ?_
  rw [euclideanQuotient_eq (Int32.not_le.mp h)]
  exact isSafe_fitInt32 (by decide)

theorem alignUp_isSafe : IsSafe (alignUp t spacing) (t.alignUp spacing) := by
  rw [alignUp, Tick.alignUp]
  refine .ite (fun _ => isSafe_refusal (by decide)) fun h => ?_
  have hpos := Int32.not_le.mp h
  obtain ⟨cell, hcell, -⟩ := Tick.exists_cell (t := t) hpos
  have hint := fitInt32_eq_ok_iff.mp hcell
  have hstored := storeSigned_of_fitInt32 hcell
  rw [euclideanQuotient_eq hpos, ok_bind]
  dsimp only
  rw [hcell, ok_bind, hint]
  split_ifs with hmod
  · exact isSafe_fitInt32 (by decide)
  · rw [if_neg hmod] at hstored
    rw [hstored]
    exact isSafe_fitInt32 (by decide)

theorem align_isSafe (rounding : Rounding) :
    IsSafe (align t spacing rounding) (t.align spacing rounding) := by
  cases rounding with
  | down => exact alignDown_isSafe t spacing
  | up => exact alignUp_isSafe t spacing

theorem alignBand_isSafe (r : TickBand) : IsSafe (alignBand r spacing) (r.align spacing) := by
  refine (alignDown_isSafe r.lower spacing).bind fun lower _ =>
    (alignUp_isSafe r.upper spacing).bind fun upper _ => ?_
  split_ifs
  · exact isSafe_refusal (by decide)
  · exact isSafe_ok _

theorem fullBand_isSafe : IsSafe (fullBand spacing) (TickBand.full spacing) :=
  (alignUp_isSafe minTick spacing).bind fun _ _ =>
    (alignDown_isSafe maxTick spacing).bind fun _ _ => isSafe_ok _

end

/-! ### Inversion -/

/-- The tick of the inverted price. -/
def invert (t : Tick) : Except Error Tick := do
  return Int32.ofInt (← storeSigned 32 (-t.toInt))

theorem invert_eq (t : Tick) : invert t = t.invert := by
  rw [invert, Tick.invert, storeSigned, fitInt32]
  split_ifs <;> rfl

/-- Only the least number of the register has no negative in it. -/
theorem invert_eq_fault_iff (t : Tick) : t.invert = .error .fault ↔ t = Int32.minValue := by
  have hlow := Int32.le_toInt t
  have hhigh := Int32.toInt_lt t
  rw [Tick.invert, fitInt32, ← Int32.toInt_inj, Int32.toInt_minValue]
  split_ifs with h
  · exact iff_of_false (by simp) (by omega)
  · exact iff_of_true rfl (by omega)

theorem invert_isSafe {t : Tick} (h : t ≠ Int32.minValue) : IsSafe (invert t) t.invert := by
  refine ⟨invert_eq t, fun e he hfault => h ((invert_eq_fault_iff t).mp ?_)⟩
  rw [he, show e = .fault from hfault]

end LiquidityBand.Guarded
