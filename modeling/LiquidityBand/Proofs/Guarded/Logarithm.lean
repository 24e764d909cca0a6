import LiquidityBand.Proofs.Guarded.Tick
import LiquidityBand.Proofs.Tick.Logarithm

/-!
# The tick of a square-root price with guards

The search for a tick, each step with its guard. A price that has a tick is not zero, so it has a
top bit; the mantissa stays between 1 and 2, so its square fits 256 bits and the bit found is 0 or
1; and the logarithm of such a price is less than 65 in size, which leaves room in every signed
register that follows.

* `logStep` is one bit of the logarithm, and `IsLog` the invariant of the row of fourteen;
* `ofSqrtPrice` is the search, and `ofSqrtPrice_isSafe` says that it is safe.
-/

namespace LiquidityBand.Guarded

/-! ### The binary logarithm -/

/-- One squaring of a number between 1 and 2, with 127 fractional bits. -/
def squaringStep (r : Nat) : Except Error (Nat × Nat) := do
  let doubled ← shiftDown 256 (← store 256 (r * r)) 127
  let bit ← store 32 (← shiftDown 256 doubled 128)
  return (← shiftDown 256 doubled bit, bit)

/-- The `i`-th bit behind the point: the number that is left, and the logarithm so far. -/
def logStep (i : Nat) (s : Nat × Int) : Except Error (Nat × Int) := do
  let (next, bit) ← squaringStep s.1
  let part ← shiftUp 127 bit (← difference 63 i)
  return (next, ← storeSigned 128 (s.2 + part))

/-- The ratio with its top bit at the place of one. -/
def mantissa (ratio top : Nat) : Except Error Nat :=
  if 128 ≤ top then do shiftDown 256 ratio (← difference top 127)
  else do shiftUp 256 ratio (← difference 127 top)

/-- The binary logarithm of `ratio / 2 ^ 128`, times `2 ^ 64`. -/
def binaryLog (ratio : Nat) : Except Error Int := do
  let top ← difference 255 (leadingZeros 256 ratio)
  let r ← mantissa ratio top
  let exponent ← storeSigned 128 ((top : Int) - 128)
  let whole ← storeSigned 128 (exponent * 2 ^ (← shiftAmount 128 64))
  let s ← ascending logStep Tick.logPlaces (r, whole)
  return s.2

/-- The least and the greatest tick that the square-root price can have. -/
def candidates (x : SqrtPrice) : Except Error (Tick × Tick) := do
  let log ← binaryLog (← shiftUp 256 x.toNat 32)
  let scaled ← storeSigned 256 (log * Tick.logScale)
  let places ← shiftAmount 256 128
  let low ← storeSigned 32 ((← storeSigned 256 (scaled - Tick.lowMargin)) / 2 ^ places)
  let below ← storeSigned 32 ((← storeSigned 256 (scaled - Tick.highMargin)) / 2 ^ places)
  let high ← storeSigned 32 (below + 1)
  return (Int32.ofInt low, Int32.ofInt high)

/-- The greatest tick whose square-root price is not above the given one. -/
def ofSqrtPrice (x : SqrtPrice) : Except Error Tick :=
  if x < minSqrtPrice ∨ maxSqrtPrice ≤ x then throw .sqrtPriceOutOfBounds
  else do
    let (low, high) ← candidates x
    if low = high then return low
    let above ← sqrtPrice high
    return if above ≤ x then high else low

section
variable {r next bit ratio : ℕ}

theorem squaringStep_eq (r : ℕ) : squaringStep r = Tick.squaringStep r := by
  rw [squaringStep, Tick.squaringStep]
  refine store_bind_eq fun x => ?_
  have hx := x.isLt
  have hbit : x.toNat / 2 ^ 127 / 2 ^ 128 ≤ 1 := by omega
  rw [shiftDown_eq (by decide), ok_bind, shiftDown_eq (by decide), ok_bind, store_eq (by omega),
    ok_bind, shiftDown_eq (by omega)]
  dsimp only
  rw [shiftAmount_eq_ok (by omega)]
  rfl

theorem bit_le_one (h : Tick.squaringStep r = .ok (next, bit)) : bit ≤ 1 := by
  rw [Tick.squaringStep, bind_eq_ok_iff] at h
  obtain ⟨square, -, h⟩ := h
  rw [bind_eq_ok_iff] at h
  obtain ⟨k, hk, h⟩ := h
  have hsquare := square.isLt
  rw [shiftAmount] at hk
  split_ifs at hk
  cases hk
  cases h
  omega

/-- The bits found so far, in front of the row that is left. -/
structure IsLog (start : ℕ) (whole : ℤ) (i : ℕ) (s : ℕ × ℤ) (bits : ℕ) : Prop where
  isMantissa : Tick.IsMantissa s.1
  log_eq : s.2 = whole + bits
  bits_le : bits ≤ i * 2 ^ 63
  row : Tick.fractionBitsOfLog Tick.logPlaces 63 start = (do
    let rest ← Tick.fractionBitsOfLog (Tick.logPlaces - i) (63 - i) s.1
    return bits + rest)

theorem exists_logStep {start i bits : ℕ} {whole : ℤ} {s : ℕ × ℤ} (hi : i < Tick.logPlaces)
    (hlow : -2 ^ 71 ≤ whole) (hhigh : whole ≤ 2 ^ 71) (h : IsLog start whole i s bits) :
    ∃ t, logStep i s = .ok t ∧ ∃ bits', IsLog start whole (i + 1) t bits' := by
  obtain ⟨hmantissa, hlog, hbits, hrow⟩ := h
  obtain ⟨next, bit, hstep, hnext, -⟩ := Tick.squaringStep_spec hmantissa
  have hbit := bit_le_one hstep
  have hi14 : i < 14 := hi
  have hpow : 2 ^ (63 - i) ≤ 2 ^ 63 := Nat.pow_le_pow_right (by decide) (by omega)
  have hpart : bit * 2 ^ (63 - i) ≤ 2 ^ 63 :=
    (Nat.mul_le_mul hbit hpow).trans_eq (Nat.one_mul _)
  have hsum : i * 2 ^ 63 ≤ 14 * 2 ^ 63 := Nat.mul_le_mul_right _ hi14.le
  refine ⟨(next, whole + (bits + bit * 2 ^ (63 - i) : ℕ)), ?_, bits + bit * 2 ^ (63 - i), hnext,
    rfl, ?_, ?_⟩
  · rw [logStep, squaringStep_eq, hstep, ok_bind]
    dsimp only
    rw [difference_eq_ok (by omega), ok_bind, shiftUp_eq (by omega) (by omega), ok_bind, hlog,
      Int.add_assoc, ← Int.natCast_add, storeSigned_eq (by omega) (by omega)]
    rfl
  · rw [Nat.add_mul, Nat.one_mul]
    exact Nat.add_le_add hbits hpart
  · rw [hrow, show Tick.logPlaces - i = Tick.logPlaces - (i + 1) + 1 by omega,
      Tick.fractionBitsOfLog, hstep, ok_bind]
    simp only [bind_assoc, pure_eq_ok, ok_bind, Nat.sub_sub, Nat.add_assoc]

/-- The loop finds the row of bits. -/
theorem exists_ascending_logStep (h : Tick.IsMantissa r) (whole : ℤ) (hlow : -2 ^ 71 ≤ whole)
    (hhigh : whole ≤ 2 ^ 71) :
    ∃ last bits : ℕ, ascending logStep Tick.logPlaces (r, whole) = .ok (last, whole + bits) ∧
      Tick.fractionBitsOfLog Tick.logPlaces 63 r = .ok bits := by
  have hstart : IsLog r whole 0 (r, whole) 0 := by
    refine ⟨h, by simp, by simp, ?_⟩
    simp only [Nat.zero_add, Nat.sub_zero]
    exact (bind_pure _).symm
  obtain ⟨⟨last, log⟩, hs, bits, -, hlog, -, hrow⟩ :=
    exists_ascending (P := fun i t => ∃ bits, IsLog r whole i t bits) ⟨0, hstart⟩
      fun i hi t ⟨bits, ht⟩ => exists_logStep hi hlow hhigh ht
  refine ⟨last, bits, by rw [hs, ← hlog], ?_⟩
  rw [hrow, Nat.sub_self]
  rfl

/-- The zeros in front of a number leave the place of its top bit. -/
theorem top_eq (h0 : 0 < ratio) (hlt : ratio < 2 ^ 256) :
    difference 255 (leadingZeros 256 ratio) = .ok ratio.log2 := by
  have hsize : ratio.size = ratio.log2 + 1 := by
    refine eq_of_forall_ge_iff fun k => ?_
    rw [Nat.size_le, Nat.succ_le_iff, Nat.log2_lt h0.ne']
  have htop := (Nat.log2_lt h0.ne').mpr hlt
  have hzeros : leadingZeros 256 ratio = 255 - ratio.log2 := by
    rw [leadingZeros, hsize, Nat.add_comm, Nat.sub_add_eq]
  rw [hzeros, difference_eq_ok (Nat.sub_le _ _), Nat.sub_sub_self (by omega)]

theorem mantissa_eq (h0 : 0 < ratio) (hlt : ratio < 2 ^ 256) :
    mantissa ratio ratio.log2 = Tick.mantissa ratio := by
  have htop := (Nat.log2_lt h0.ne').mpr hlt
  rw [mantissa, Tick.mantissa]
  split_ifs with h
  · rw [difference_eq_ok (by omega), ok_bind]
    rfl
  · have hhigh : ratio * 2 ^ (127 - ratio.log2) < 2 ^ 128 := by
      calc ratio * 2 ^ (127 - ratio.log2)
          < 2 ^ (ratio.log2 + 1) * 2 ^ (127 - ratio.log2) :=
            Nat.mul_lt_mul_of_pos_right Nat.lt_log2_self (Nat.two_pow_pos _)
        _ = 2 ^ 128 := by
            rw [← Nat.pow_add]
            congr 1
            omega
    have hfit : ratio * 2 ^ (127 - ratio.log2) < 2 ^ 256 := by omega
    rw [difference_eq_ok (by omega), ok_bind, ok_bind, shiftUp_eq (by omega) hfit,
      Nat.mod_eq_of_lt hfit]
    rfl

theorem binaryLog_eq (h0 : 0 < ratio) (hlt : ratio < 2 ^ 256) :
    binaryLog ratio = Tick.binaryLog ratio := by
  have htop := (Nat.log2_lt h0.ne').mpr hlt
  obtain ⟨r, hr, hmantissa⟩ := Tick.mantissa_spec h0 hlt
  obtain ⟨last, bits, hloop, hbits⟩ :=
    exists_ascending_logStep hmantissa.toIsMantissa (((ratio.log2 : ℤ) - 128) * 2 ^ 64)
      (by omega) (by omega)
  rw [binaryLog, top_eq h0 hlt, ok_bind, mantissa_eq h0 hlt, Tick.binaryLog_eq, hr, ok_bind,
    ok_bind, hbits, ok_bind, storeSigned_eq (by omega) (by omega), ok_bind,
    shiftAmount_eq_ok (by decide), ok_bind, storeSigned_eq (by omega) (by omega), ok_bind, hloop]
  rfl

end

/-! ### The search -/

section
variable {x : SqrtPrice}

theorem candidates_eq (hlow : minSqrtPrice ≤ x) (hhigh : x < maxSqrtPrice) :
    candidates x = Tick.candidates x := by
  have hpos := Tick.toNat_pos_of_minSqrtPrice_le hlow
  have hx : x.toNat * 2 ^ 32 < 2 ^ 256 := by
    have := BitVec.lt_def.mp hhigh
    have := Tick.toNat_maxSqrtPrice_lt
    omega
  obtain ⟨log, hlog, hllow, hlhigh⟩ := Tick.binaryLog_spec (by omega) hx
  rw [Tick.logRatio_scaled] at hllow hlhigh
  have hsize := Tick.abs_le_of_logPrice hllow hlhigh (Tick.logPrice_bounds hlow hhigh)
  have hb := Tick.brackets_of_log hllow hlhigh hsize
  obtain ⟨hmin, hmax⟩ := hb.bounds hlow hhigh
  have hle := hb.low_le_high
  have hsucc := hb.high_le_succ
  have hlogSize : |log| ≤ 65 * 2 ^ 64 := by exact_mod_cast hsize
  rw [abs_le] at hlogSize
  -- all that is kept on the way stays far from the top bit of its register
  have hscaled : -2 ^ 149 ≤ log * Tick.logScale ∧ log * Tick.logScale ≤ 2 ^ 149 := by
    unfold Tick.logScale
    omega
  have hlowFit : -2 ^ 150 ≤ log * Tick.logScale - Tick.lowMargin ∧
      log * Tick.logScale - Tick.lowMargin ≤ 2 ^ 150 := by
    unfold Tick.lowMargin
    omega
  have hhighFit : -2 ^ 150 ≤ log * Tick.logScale - Tick.highMargin ∧
      log * Tick.logScale - Tick.highMargin ≤ 2 ^ 150 := by
    unfold Tick.highMargin
    omega
  rw [candidates, shiftUp_eq (by decide) hx, ok_bind, binaryLog_eq (by omega) hx, hlog, ok_bind,
    storeSigned_eq (by omega) (by omega), ok_bind, shiftAmount_eq_ok (by decide), ok_bind,
    storeSigned_eq (by omega) (by omega), ok_bind, storeSigned_eq (by omega) (by omega), ok_bind,
    storeSigned_eq (by omega) (by omega), ok_bind, storeSigned_eq (by omega) (by omega), ok_bind,
    storeSigned_eq (by omega) (by omega), ok_bind, Tick.candidates, Nat.mod_eq_of_lt hx, hlog,
    ok_bind]
  dsimp only
  rw [Tick.toInt_ofInt_of_small (by omega) (by omega), fitInt32,
    if_pos ⟨by omega, by omega⟩]
  rfl

theorem ofSqrtPrice_isSafe (x : SqrtPrice) : IsSafe (ofSqrtPrice x) (Tick.ofSqrtPrice x) := by
  rw [ofSqrtPrice, Tick.ofSqrtPrice]
  refine .ite (fun _ => isSafe_refusal (by decide)) fun h => ?_
  rw [not_or, BitVec.not_lt, BitVec.not_le] at h
  obtain ⟨low, high, hcandidates, -⟩ := Tick.candidates_brackets h.1 h.2
  rw [candidates_eq h.1 h.2, hcandidates, ok_bind, ok_bind]
  dsimp only
  split_ifs with heq
  · exact isSafe_ok low
  · exact (sqrtPrice_isSafe high).bind fun _ _ => isSafe_ok _

end

end LiquidityBand.Guarded
