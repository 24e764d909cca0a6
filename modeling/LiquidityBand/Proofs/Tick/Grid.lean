import LiquidityBand.Proofs.Register
import LiquidityBand.Tick.SqrtPrice
import Mathlib.Analysis.Complex.ExponentialBounds
import Mathlib.Analysis.SpecialFunctions.Log.Deriv
import Mathlib.Data.List.Chain

/-!
# The ratios of the grid

On a logarithmic scale the grid is even: two neighbouring square-root prices are `gridStep` apart.
The factors of the table lie on that scale at the powers of two, up to an error that their own
rounding makes, and a product of factors, rounded down at each of its steps, at the number whose
binary places they are. The error stays far below a step, because no ratio of a tick in bounds
falls below `2 ^ (-64)`.

* `gridStep` is the distance of two ticks, and `gridStep_bounds` its first eleven digits;
* `logRatio`, `logPrice` and `logMantissa` put a fixed-point number on the scale, by the number of
  its fractional bits;
* `IsFactor` says where a factor of the table lies, and `isFactor_of_mem` that all of them do;
* `IsFalling` says the same of a product, `isFalling_step` is one binary place of the exponent and
  `fallingRatio_isFalling` the whole product.
-/

namespace LiquidityBand.Tick

/-! ### Logarithmic scales -/

/-- The distance of two ticks on a logarithmic scale: the logarithm of the root of 1.0001. -/
noncomputable def gridStep : ℝ := Real.log (10001 / 10000) / 2

/-- The most by which a ratio is off its place on the grid. -/
noncomputable def gridError : ℝ := 1 / 2 ^ 59

/-- A ratio with 128 fractional bits on a logarithmic scale. -/
noncomputable def logRatio (r : ℝ) : ℝ := Real.log (r / 2 ^ 128)

/-- A number with 96 fractional bits on a logarithmic scale. -/
noncomputable def logPrice (x : ℕ) : ℝ := Real.log (x / 2 ^ 96)

/-- A number with 127 fractional bits on a logarithmic scale. -/
noncomputable def logMantissa (r : ℕ) : ℝ := Real.log r - 127 * Real.log 2

/-! ### Estimates of logarithms -/

theorem gridStep_bounds :
    (4.9997500166e-5 : ℝ) < gridStep ∧ gridStep < 4.9997500167e-5 := by
  have h := Real.abs_log_sub_add_sum_range_le (x := -(1 / 10000)) (by norm_num [abs_of_pos]) 3
  rw [Finset.sum_range_succ, Finset.sum_range_succ, Finset.sum_range_one, abs_le] at h
  norm_num [abs_of_pos] at h
  unfold gridStep
  constructor <;> linarith [h.1, h.2]

theorem gridStep_pos : 0 < gridStep := lt_trans (by norm_num) gridStep_bounds.1

/-- A number near one has a logarithm near zero. -/
theorem abs_log_le {x ε : ℝ} (hε : ε ≤ 1 / 2) (h : |x - 1| ≤ ε) : |Real.log x| ≤ 2 * ε := by
  obtain ⟨hlow, hhigh⟩ := abs_le.mp h
  have hx : 1 / 2 ≤ x := by linarith
  have hpos : 0 < x := by linarith
  have hupper := Real.log_le_sub_one_of_pos hpos
  have hlower := Real.one_sub_inv_le_log_of_pos hpos
  have hinv : x⁻¹ ≤ 1 + 2 * ε := by
    rw [inv_le_iff_one_le_mul₀ hpos]
    nlinarith
  rw [abs_le]
  constructor <;> linarith

theorem abs_div_sub_one_le {p q m : ℝ} (hq : 0 < q) (hm : 0 < m) (hle : p * m ≤ q * (m + 1))
    (hge : q * m ≤ p * m + q) : |p / q - 1| ≤ 1 / m := by
  have hscale : |p - q| * m = |(p - q) * m| := by rw [abs_mul, abs_of_pos hm]
  rw [div_sub_one hq.ne', abs_div, abs_of_pos hq, div_le_div_iff₀ hq hm, one_mul, hscale, abs_le,
    sub_mul]
  constructor <;> linarith

/-- Rounding a quotient down to a number of at least `b` takes at most `1 / b` off its
logarithm. -/
theorem log_floor {m d b : ℕ} (hd : 0 < d) (hb : 0 < b) (h : b ≤ m / d) :
    Real.log (m / d : ℕ) ≤ Real.log (m / d) ∧
      Real.log (m / d) ≤ Real.log (m / d : ℕ) + 1 / b := by
  have hdR : (0 : ℝ) < d := by exact_mod_cast hd
  have hbR : (0 : ℝ) < b := by exact_mod_cast hb
  have hq : (b : ℝ) ≤ (m / d : ℕ) := by exact_mod_cast h
  have hqpos : (0 : ℝ) < (m / d : ℕ) := lt_of_lt_of_le hbR hq
  have hle : ((m / d : ℕ) : ℝ) ≤ m / d := Nat.cast_div_le
  have hpos : (0 : ℝ) < m / d := lt_of_lt_of_le hqpos hle
  have hlt : (m / d : ℝ) ≤ (m / d : ℕ) + 1 := by
    rw [div_le_iff₀ hdR]
    exact_mod_cast (Nat.mul_comm d _ ▸ Nat.lt_mul_div_succ m hd).le
  refine ⟨Real.log_le_log hqpos hle, ?_⟩
  have hlog := Real.log_le_sub_one_of_pos (div_pos hpos hqpos)
  have hsmall : (m / d : ℝ) / (m / d : ℕ) - 1 ≤ 1 / b := by
    rw [div_sub_one hqpos.ne']
    exact div_le_div₀ (by norm_num) (by linarith) hbR hq
  rw [Real.log_div hpos.ne' hqpos.ne'] at hlog
  linarith

theorem logRatio_eq {r : ℝ} (hr : 0 < r) : logRatio r = Real.log r - 128 * Real.log 2 := by
  rw [logRatio, Real.log_div hr.ne' (by positivity), Real.log_pow]
  norm_num

/-- Rounding a quotient down to a number of 64 bits or more hardly moves it. -/
theorem logRatio_floor {m d : ℕ} (hd : 0 < d) (h : 2 ^ 64 ≤ m / d) :
    logRatio (m / d : ℕ) ≤ logRatio (m / d) ∧
      logRatio (m / d) ≤ logRatio (m / d : ℕ) + 1 / 2 ^ 64 := by
  have hq : (0 : ℝ) < (m / d : ℕ) := by exact_mod_cast lt_of_lt_of_le (by norm_num) h
  have hfloor := log_floor hd (by positivity) h
  rw [logRatio_eq hq, logRatio_eq (lt_of_lt_of_le hq Nat.cast_div_le)]
  push_cast at hfloor
  constructor <;> linarith [hfloor.1, hfloor.2]

/-! ### The factors -/

/-- The second factor is the square of the first one, up to rounding. -/
def Squares (a b : ℕ) : Prop :=
  a * a * 2 ^ 92 ≤ b * 2 ^ 128 * (2 ^ 92 + 1) ∧ b * 2 ^ 128 * 2 ^ 92 ≤ a * a * 2 ^ 92 + b * 2 ^ 128

instance : DecidableRel Squares := fun _ _ => inferInstanceAs (Decidable (_ ∧ _))

/-- The factor of the binary place `i`: it lowers a ratio by `2 ^ i` ticks, up to rounding. -/
structure IsFactor (k i : ℕ) : Prop where
  pos : 0 < k
  lt : k < 2 ^ 128
  near : |logRatio k + 2 ^ i * gridStep| ≤ (2 ^ (i + 1) - 1) / 2 ^ 91

theorem logRatio_mul {r k : ℝ} (hr : 0 < r) (hk : 0 < k) :
    logRatio (r * k / 2 ^ 128) = logRatio r + logRatio k := by
  rw [logRatio, logRatio, logRatio, ← Real.log_mul (by positivity) (by positivity)]
  congr 1
  ring

/-- The error of a factor at most doubles from one place to the next, but for its own rounding. -/
theorem IsFactor.next {a b i : ℕ} (h : IsFactor a i) (hb : 0 < b) (hlt : b < 2 ^ 128)
    (hs : Squares a b) : IsFactor b (i + 1) := by
  have ha := h.pos
  have hbR : (0 : ℝ) < b := by exact_mod_cast hb
  have haR : (0 : ℝ) < a := by exact_mod_cast ha
  have hclose : |(a : ℝ) * a / 2 ^ 128 / b - 1| ≤ 1 / 2 ^ 92 := by
    rw [div_div, mul_comm (2 ^ 128 : ℝ)]
    refine abs_div_sub_one_le (by positivity) (by positivity) ?_ ?_
    · exact_mod_cast hs.1
    · exact_mod_cast hs.2
  have hsquare : logRatio (a * a / 2 ^ 128) = 2 * logRatio a := by
    rw [logRatio_mul haR haR, two_mul]
  have hratio : Real.log (a * a / 2 ^ 128 / b) = 2 * logRatio a - logRatio b := by
    rw [← hsquare, logRatio, logRatio, ← Real.log_div (by positivity) (by positivity)]
    congr 1
    field_simp
  have herror := abs_log_le (by norm_num) hclose
  rw [hratio] at herror
  refine ⟨hb, hlt, ?_⟩
  have hnear := h.near
  rw [abs_le] at hnear herror ⊢
  rw [pow_succ 2 (i + 1), pow_succ (2 : ℝ) i] at *
  constructor <;> linarith [hnear.1, hnear.2, herror.1, herror.2]

/-- The factor of the lowest place is the root of 10000 / 10001. -/
theorem isFactor_first {k : ℕ} (hpos : 0 < k) (hlt : k < 2 ^ 128)
    (h1 : k * k * 10001 * 2 ^ 92 ≤ 2 ^ 256 * 10000 * (2 ^ 92 + 1))
    (h2 : 2 ^ 256 * 10000 * 2 ^ 92 ≤ k * k * 10001 * 2 ^ 92 + 2 ^ 256 * 10000) : IsFactor k 0 := by
  have hk : (0 : ℝ) < k := by exact_mod_cast hpos
  have hclose : |(k : ℝ) * k / 2 ^ 256 * (10001 / 10000) - 1| ≤ 1 / 2 ^ 92 := by
    rw [div_mul_div_comm]
    refine abs_div_sub_one_le (by positivity) (by positivity) ?_ ?_
    · exact_mod_cast h1
    · exact_mod_cast h2
  have hlog : Real.log (k * k / 2 ^ 256 * (10001 / 10000)) = 2 * (logRatio k + gridStep) := by
    rw [Real.log_mul (by positivity) (by norm_num), gridStep, logRatio,
      show (k : ℝ) * k / 2 ^ 256 = k / 2 ^ 128 * (k / 2 ^ 128) by ring,
      Real.log_mul (by positivity) (by positivity)]
    ring
  have herror := abs_log_le (by norm_num) hclose
  rw [hlog, abs_le] at herror
  refine ⟨hpos, hlt, ?_⟩
  rw [abs_le]
  constructor <;> linarith [herror.1, herror.2]

/-- A table in which each factor squares the one before it is right if its first one is. -/
theorem isFactor_of_mem_zipIdx {ks : List ℕ} {i : ℕ} (hchain : ks.IsChain Squares)
    (hbounds : ∀ k ∈ ks, 0 < k ∧ k < 2 ^ 128) (hhead : ∀ k ∈ ks.head?, IsFactor k i) :
    ∀ place ∈ ks.zipIdx i, IsFactor place.1 place.2 := by
  induction ks generalizing i with
  | nil => simp
  | cons a ks ih =>
    have ha := hhead a rfl
    have htail : ∀ b ∈ ks.head?, IsFactor b (i + 1) := fun b hb => by
      have hmem := List.mem_of_mem_head? hb
      obtain ⟨hpos, hlt⟩ := hbounds b (List.mem_cons_of_mem a hmem)
      exact ha.next hpos hlt ((List.isChain_cons.mp hchain).1 b hb)
    rintro place hplace
    rw [List.zipIdx_cons, List.mem_cons] at hplace
    obtain rfl | hplace := hplace
    · exact ha
    · exact ih (List.isChain_cons.mp hchain).2
        (fun k hk => hbounds k (List.mem_cons_of_mem a hk)) htail place hplace

/-- Every factor of the table lies where it belongs. -/
theorem isFactor_of_mem {place : ℕ × ℕ} (h : place ∈ halvingFactors.zipIdx) :
    IsFactor place.1 place.2 := by
  refine isFactor_of_mem_zipIdx (by decide +kernel) (by decide +kernel) (fun k hk => ?_) place h
  obtain rfl : 0xfffcb933bd6fad37aa2d162d1a594001 = k := Option.some.inj hk
  exact isFactor_first (by decide) (by decide) (by decide +kernel) (by decide +kernel)

/-! ### The product -/

/-- The product of the factors of the binary places of `n`, rounded down `steps` times. -/
structure IsFalling (n steps r : ℕ) : Prop where
  pos : 0 < r
  le : r ≤ 2 ^ 128
  near : |logRatio r + n * gridStep| ≤ n / 2 ^ 90 + steps / 2 ^ 64

/-- A ratio near that of a tick in bounds does not fall below `2 ^ (-64)`. -/
theorem two_pow_le_of_near {y : ℝ} (hy : 0 < y) {n : ℕ} (hn : n ≤ tickBound)
    (h : |logRatio y + n * gridStep| ≤ 1 / 10 ^ 6) : (2 : ℝ) ^ 64 ≤ y := by
  have hn : (n : ℝ) ≤ 887272 := by exact_mod_cast hn
  have hstep := gridStep_bounds
  have hfall : (n : ℝ) * gridStep ≤ 887272 * 4.9997500167e-5 :=
    mul_le_mul hn hstep.2.le gridStep_pos.le (by norm_num)
  have htwo := Real.log_two_gt_d9
  -- even the greatest tick lowers a ratio by just under 64 binary places
  have hlog : Real.log (2 ^ 64 / 2 ^ 128) ≤ logRatio y := by
    rw [show (2 : ℝ) ^ 64 / 2 ^ 128 = (2 ^ 64)⁻¹ by norm_num, Real.log_inv, Real.log_pow]
    have := (abs_le.mp h).1
    norm_num at *
    linarith
  have hle := (Real.log_le_log_iff (by positivity) (by positivity)).mp hlog
  rwa [div_le_div_iff_of_pos_right (by positivity)] at hle

section
variable {n i r : ℕ}

theorem IsFalling.near_le (h : IsFalling n i r) (hn : n ≤ tickBound) (hi : i ≤ 20) :
    |logRatio r + n * gridStep| ≤ 1 / 2 ^ 59 - 1 / 2 ^ 62 := by
  have hn : (n : ℝ) ≤ 887272 := by exact_mod_cast hn
  have hi : (i : ℝ) ≤ 20 := by exact_mod_cast hi
  refine h.near.trans ?_
  linarith

/-- Before it is rounded down, a product is off by the errors of its two factors. -/
theorem IsFalling.near_mul {k : ℕ} (h : IsFalling n i r) (hk : IsFactor k i) :
    |logRatio (r * k / 2 ^ 128) + (n + 2 ^ i) * gridStep| ≤ (n + 2 ^ i) / 2 ^ 90 + i / 2 ^ 64 := by
  have hr : (0 : ℝ) < r := by exact_mod_cast h.pos
  have hkR : (0 : ℝ) < k := by exact_mod_cast hk.pos
  have hsum := abs_add_le (logRatio r + n * gridStep) (logRatio k + 2 ^ i * gridStep)
  have hfactor := hk.near
  rw [pow_succ] at hfactor
  rw [logRatio_mul hr hkR, show logRatio r + logRatio k + (n + 2 ^ i) * gridStep =
    logRatio r + n * gridStep + (logRatio k + 2 ^ i * gridStep) by ring]
  linarith [h.near]

/-- One binary place of the exponent. -/
theorem isFalling_step {k : ℕ} (h : IsFalling (n % 2 ^ i) i r) (hk : IsFactor k i)
    (hn : n ≤ tickBound) (hi : i < 20) :
    ∃ r', ratioStep n r (k, i) = .ok r' ∧ IsFalling (n % 2 ^ (i + 1)) (i + 1) r' := by
  have hsplit : n % 2 ^ (i + 1) = n % 2 ^ i + 2 ^ i * (n.testBit i).toNat := by
    rw [Nat.mod_pow_succ, Nat.toNat_testBit]
  unfold ratioStep
  cases hbit : n.testBit i with
  | false =>
    rw [hbit, Bool.toNat_false, Nat.mul_zero, Nat.add_zero] at hsplit
    refine ⟨r, rfl, h.pos, h.le, ?_⟩
    rw [hsplit]
    refine h.near.trans ?_
    push_cast
    linarith
  | true =>
    rw [hbit, Bool.toNat_true, Nat.mul_one] at hsplit
    have hr : (0 : ℝ) < r := by exact_mod_cast h.pos
    have hkR : (0 : ℝ) < k := by exact_mod_cast hk.pos
    have hproduct : r * k < 2 ^ 256 := by
      calc r * k ≤ 2 ^ 128 * k := Nat.mul_le_mul_right k h.le
        _ < 2 ^ 128 * 2 ^ 128 := Nat.mul_lt_mul_of_pos_left hk.lt (by decide)
        _ = 2 ^ 256 := by norm_num
    have hmod : n % 2 ^ (i + 1) ≤ tickBound := (Nat.mod_le _ _).trans hn
    have hnear := h.near_mul hk
    have hcast : ((n % 2 ^ (i + 1) : ℕ) : ℝ) = (n % 2 ^ i : ℕ) + 2 ^ i := by
      rw [hsplit, Nat.cast_add, Nat.cast_pow, Nat.cast_two]
    rw [← hcast] at hnear
    have hmodR : ((n % 2 ^ (i + 1) : ℕ) : ℝ) ≤ 887272 := by exact_mod_cast hmod
    have hiR : (i : ℝ) ≤ 20 := by exact_mod_cast hi.le
    have hlarge : (2 : ℝ) ^ 64 ≤ r * k / 2 ^ 128 :=
      two_pow_le_of_near (by positivity) hmod (hnear.trans (by linarith))
    have hfloor : 2 ^ 64 ≤ r * k / 2 ^ 128 := by
      rw [Nat.le_div_iff_mul_le (by positivity)]
      rw [le_div_iff₀ (by positivity)] at hlarge
      exact_mod_cast hlarge
    have herror := logRatio_floor (by positivity) hfloor
    push_cast at herror
    refine ⟨r * k / 2 ^ 128, ?_, lt_of_lt_of_le (by norm_num) hfloor, ?_, ?_⟩
    · rw [if_pos rfl, fit_eq_ok hproduct, ok_bind, toNat_ofNat_of_lt hproduct]
      rfl
    · exact Nat.div_le_of_le_mul hproduct.le
    · rw [abs_le] at hnear ⊢
      push_cast
      constructor <;> linarith [hnear.1, hnear.2, herror.1, herror.2]

theorem isFalling_foldlM {ks : List ℕ} (h : IsFalling (n % 2 ^ i) i r)
    (hks : ∀ place ∈ ks.zipIdx i, IsFactor place.1 place.2) (hn : n ≤ tickBound)
    (hi : i + ks.length ≤ 20) :
    ∃ r', (ks.zipIdx i).foldlM (ratioStep n) r = .ok r' ∧
      IsFalling (n % 2 ^ (i + ks.length)) (i + ks.length) r' := by
  induction ks generalizing i r with
  | nil => exact ⟨r, rfl, h⟩
  | cons k ks ih =>
    rw [List.length_cons] at hi
    rw [List.zipIdx_cons] at hks ⊢
    obtain ⟨r₁, hr₁, h₁⟩ := isFalling_step h (hks _ List.mem_cons_self) hn (by omega)
    obtain ⟨r₂, hr₂, h₂⟩ := ih h₁ (fun p hp => hks p (List.mem_cons_of_mem _ hp)) (by omega)
    refine ⟨r₂, ?_, ?_⟩
    · rw [List.foldlM_cons, hr₁, ok_bind, hr₂]
    · rw [List.length_cons, show i + (ks.length + 1) = i + 1 + ks.length by omega]
      exact h₂

/-- The product over all places exists and lies where it belongs. -/
theorem fallingRatio_isFalling (hn : n ≤ tickBound) :
    ∃ r, fallingRatio n = .ok r ∧ IsFalling n 20 r := by
  have hone : IsFalling (n % 2 ^ 0) 0 (2 ^ 128) := by
    refine ⟨by positivity, le_rfl, ?_⟩
    norm_num [logRatio, Nat.mod_one]
  obtain ⟨r, hr, h⟩ := isFalling_foldlM hone (fun p hp => isFactor_of_mem hp) hn (by decide)
  have hlength : 0 + halvingFactors.length = 20 := rfl
  have hlt : n < 2 ^ 20 := lt_of_le_of_lt hn (by decide)
  rw [hlength, Nat.mod_eq_of_lt hlt] at h
  exact ⟨r, hr, h⟩

theorem IsFalling.ge (h : IsFalling n i r) (hn : n ≤ tickBound) (hi : i ≤ 20) : 2 ^ 64 ≤ r := by
  have hr : (0 : ℝ) < r := by exact_mod_cast h.pos
  have hge := two_pow_le_of_near hr hn ((h.near_le hn hi).trans (by norm_num))
  exact_mod_cast hge

end

end LiquidityBand.Tick
