import LiquidityBand.Amount.Rescale
import LiquidityBand.Proofs.Register
import Mathlib.Tactic.NormNum
import Mathlib.Tactic.Positivity

/-!
# Amounts at another precision

Counting an amount at another precision is one floored quotient of natural numbers: the amount
times the units of a token at the target precision, divided by those at the source precision. More
than 38 additional decimals are refused, whatever the amount; fewer are refused only if the quotient
does not fit its register. With fewer decimals than before nothing is refused, even if the power of
ten between the two precisions fits no register.

* `ten_pow_lt_iff` says which powers of ten fit;
* `rescaled_eq` is the quotient and `rescaled_tooManyDecimals` the refusal;
* `rescale_eq_ok_iff` and `rescale_eq_error_iff` are the outcomes, `tooLarge` the refusal with the
  amount written out;
* `two_pow_le_rescaled_iff` says that only more decimals can make an amount too large;
* `exists_rescale_le` bounds the amount at one precision by an amount at the other;
* `rescale_exact` is the whole of it: the quotient, unless it does not fit, and the refusals, among
  them that of zero;
* `rescale_path_independent` says that rescaling may go by way of another precision.
-/

namespace LiquidityBand.Amount

section
variable {n s m t : ℕ}

/-- Between a precision and a higher one there is a whole factor. -/
theorem mul_pow_div_pow_of_le (h : s ≤ t) : n * 10 ^ t / 10 ^ s = n * 10 ^ (t - s) := by
  rw [Nat.mul_div_assoc n (Nat.pow_dvd_pow 10 h), Nat.pow_div h (by norm_num)]

/-- Between a precision and a lower one there is a whole divisor. -/
theorem mul_pow_div_pow_of_ge (h : t ≤ s) : n * 10 ^ t / 10 ^ s = n / 10 ^ (s - t) := by
  have hsplit : 10 ^ s = 10 ^ (s - t) * 10 ^ t := by
    rw [← Nat.pow_add, Nat.sub_add_cancel h]
  rw [hsplit, Nat.mul_div_mul_right _ _ (by positivity)]

/-- A number counted at one precision after another is the one counted at the last, unless the
precision between them is below both of the others. -/
theorem mul_pow_div_pow_trans (h : min s t ≤ m) :
    n * 10 ^ m / 10 ^ s * 10 ^ t / 10 ^ m = n * 10 ^ t / 10 ^ s := by
  rcases le_total s m with hsm | hms
  · -- on the way up nothing is lost
    have hsplit : 10 ^ m = 10 ^ (m - s) * 10 ^ s := by
      rw [← Nat.pow_add, Nat.sub_add_cancel hsm]
    rw [mul_pow_div_pow_of_le hsm, hsplit, Nat.mul_right_comm, Nat.mul_comm,
      Nat.mul_div_mul_left _ _ (by positivity)]
  · rcases le_total t m with htm | hmt
    · -- two divisions in a row are one
      have hsplit : 10 ^ (s - t) = 10 ^ (s - m) * 10 ^ (m - t) := by
        rw [← Nat.pow_add]
        congr 1
        omega
      rw [mul_pow_div_pow_of_ge hms, mul_pow_div_pow_of_ge htm,
        mul_pow_div_pow_of_ge (htm.trans hms), Nat.div_div_eq_div_mul, hsplit]
    · obtain rfl | rfl : m = s ∨ m = t := by omega
      · rw [Nat.mul_div_cancel _ (by positivity)]
      · rw [Nat.mul_div_cancel _ (by positivity)]

/-- The powers of ten that fit an amount. -/
theorem ten_pow_lt_iff (n : ℕ) : 10 ^ n < 2 ^ 128 ↔ n ≤ maxDecimals.toNat := by
  constructor
  · intro h
    by_contra hn
    have hle : 10 ^ 39 ≤ 10 ^ n := Nat.pow_le_pow_right (by norm_num) (Nat.lt_of_not_le hn)
    exact absurd (lt_of_le_of_lt hle h) (by norm_num)
  · intro h
    have hle : 10 ^ n ≤ 10 ^ 38 := Nat.pow_le_pow_right (by norm_num) h
    exact lt_of_le_of_lt hle (by norm_num)

theorem unitsPerToken_eq_ok (h : n ≤ maxDecimals.toNat) :
    ∃ units, unitsPerToken n = .ok units ∧ units.toNat = 10 ^ n := by
  have hfit := (ten_pow_lt_iff n).mpr h
  exact ⟨_, if_pos hfit, toNat_ofNat_of_lt hfit⟩

theorem unitsPerToken_eq_error (h : maxDecimals.toNat < n) :
    unitsPerToken n = .error .tooManyDecimals :=
  if_neg (mt (ten_pow_lt_iff n).mp (Nat.not_le.mpr h))

end

/-- The refusal of an amount for its size. -/
def tooLarge (amount : Amount) : AmountError :=
  ⟨String.ofList (Numeral.digits amount.toNat), .tooLarge⟩

section
variable {amount : Amount} {source target : UInt8}

/-- Without too many additional decimals, rescaling is one floored quotient. -/
theorem rescaled_eq (h : target.toNat ≤ source.toNat + maxDecimals.toNat) (amount : Amount) :
    rescaled amount source target =
      fit 128 .tooLarge (amount.toNat * 10 ^ target.toNat / 10 ^ source.toNat) := by
  unfold rescaled
  by_cases hle : source ≤ target
  · have hle' := UInt8.le_iff_toNat_le.mp hle
    obtain ⟨units, hunits, hvalue⟩ :=
      unitsPerToken_eq_ok (n := target.toNat - source.toNat) (by omega)
    rw [if_pos hle, hunits, ok_bind, hvalue, mul_pow_div_pow_of_le hle']
  · have hlt : target.toNat ≤ source.toNat :=
      Nat.le_of_not_le (mt UInt8.le_iff_toNat_le.mpr hle)
    have hfit : amount.toNat / 10 ^ (source.toNat - target.toNat) < 2 ^ 128 :=
      lt_of_le_of_lt (Nat.div_le_self _ _) amount.isLt
    rw [if_neg hle, mul_pow_div_pow_of_ge hlt]
    rcases Nat.lt_or_ge maxDecimals.toNat (source.toNat - target.toNat) with hmany | hfew
    · -- the divisor fits no register, so it is above every amount
      have hzero : amount.toNat / 10 ^ (source.toNat - target.toNat) = 0 := by
        refine Nat.div_eq_of_lt (lt_of_lt_of_le amount.isLt ?_)
        exact Nat.not_lt.mp (mt (ten_pow_lt_iff _).mp (Nat.not_le.mpr hmany))
      rw [unitsPerToken_eq_error hmany, hzero]
      rfl
    · obtain ⟨units, hunits, hvalue⟩ := unitsPerToken_eq_ok hfew
      rw [hunits]
      dsimp only
      rw [hvalue, fit, if_pos hfit, fit, if_pos hfit]

/-- Too many additional decimals are refused, whatever the amount. -/
theorem rescaled_tooManyDecimals (h : source.toNat + maxDecimals.toNat < target.toNat)
    (amount : Amount) : rescaled amount source target = .error .tooManyDecimals := by
  have hle : source ≤ target := UInt8.le_iff_toNat_le.mpr (by omega)
  rw [rescaled, if_pos hle, unitsPerToken_eq_error (by omega), error_bind]

theorem rescale_eq_ok_iff (h : target.toNat ≤ source.toNat + maxDecimals.toNat) {result : Amount} :
    rescale amount source target = .ok result ↔
      result.toNat = amount.toNat * 10 ^ target.toNat / 10 ^ source.toNat := by
  rw [rescale, mapError_eq_ok_iff, rescaled_eq h, fit_eq_ok_iff]

theorem rescale_eq_error_iff (h : target.toNat ≤ source.toNat + maxDecimals.toNat)
    {e : AmountError} : rescale amount source target = .error e ↔
      2 ^ 128 ≤ amount.toNat * 10 ^ target.toNat / 10 ^ source.toNat ∧ e = tooLarge amount := by
  rw [rescale, mapError_eq_error_iff, rescaled_eq h]
  simp only [fit_eq_error_iff]
  constructor
  · rintro ⟨reason, ⟨hwide, rfl⟩, rfl⟩
    exact ⟨hwide, rfl⟩
  · rintro ⟨hwide, rfl⟩
    exact ⟨_, ⟨hwide, rfl⟩, rfl⟩

/-- An amount can only grow too large if it is counted with more decimals. -/
theorem two_pow_le_rescaled_iff (amount : Amount) (s t : ℕ) :
    2 ^ 128 ≤ amount.toNat * 10 ^ t / 10 ^ s ↔ 2 ^ 128 ≤ amount.toNat * 10 ^ (t - s) := by
  rcases le_total s t with hle | hle
  · rw [mul_pow_div_pow_of_le hle]
  · have hdiv := Nat.div_le_self amount.toNat (10 ^ (s - t))
    have hlt := amount.isLt
    rw [mul_pow_div_pow_of_ge hle, Nat.sub_eq_zero_of_le hle]
    omega

/-- An amount that is worth no more than a bound at the other precision is rescaled, to no more
than the bound. -/
theorem exists_rescale_le (h : target.toNat ≤ source.toNat + maxDecimals.toNat) {bound : Amount}
    (hle : amount.toNat * 10 ^ target.toNat ≤ bound.toNat * 10 ^ source.toNat) :
    ∃ result, rescale amount source target = .ok result ∧ result ≤ bound := by
  have hquot : amount.toNat * 10 ^ target.toNat / 10 ^ source.toNat ≤ bound.toNat := by
    apply Nat.div_le_of_le_mul
    rwa [Nat.mul_comm (10 ^ source.toNat)]
  have hfit := lt_of_le_of_lt hquot bound.isLt
  refine ⟨BitVec.ofNat 128 _, (rescale_eq_ok_iff h).mpr (toNat_ofNat_of_lt hfit), ?_⟩
  rw [BitVec.le_def, toNat_ofNat_of_lt hfit]
  exact hquot

end

/-! ### Exactness -/

/-- The amount at another precision, as a natural number, rounded down. -/
def atPrecision (amount : Amount) (source target : UInt8) : ℕ :=
  amount.toNat * 10 ^ target.toNat / 10 ^ source.toNat

/-- So many decimals are added that the units between the two precisions fit no amount. -/
def AddsTooMany (source target : UInt8) : Prop :=
  source.toNat + maxDecimals.toNat < target.toNat

instance (source target : UInt8) : Decidable (AddsTooMany source target) :=
  inferInstanceAs (Decidable (_ < _))

/-- The refusal of an amount at another precision. -/
def refusal (amount : Amount) (source target : UInt8) : AmountError :=
  ⟨String.ofList (Numeral.digits amount.toNat),
    if AddsTooMany source target then .tooManyDecimals else .tooLarge⟩

section
variable {amount result direct : Amount} {source between target : UInt8}

theorem rescale_of_addsTooMany (h : AddsTooMany source target) (amount : Amount) :
    rescale amount source target = .error (refusal amount source target) := by
  rw [rescale, rescaled_tooManyDecimals h, mapError_error, refusal, if_pos h]

/-- So many decimals make every amount but zero too large. -/
theorem two_pow_le_atPrecision (h : AddsTooMany source target) (hne : amount ≠ 0) :
    2 ^ 128 ≤ amount.atPrecision source target := by
  have hpos : 0 < amount.toNat := Nat.pos_of_ne_zero fun h0 => hne (BitVec.toNat_inj.mp h0)
  have hmany : maxDecimals.toNat < target.toNat - source.toNat := by
    rw [AddsTooMany] at h
    omega
  have hpow : 2 ^ 128 ≤ 10 ^ (target.toNat - source.toNat) :=
    Nat.not_lt.mp (mt (ten_pow_lt_iff _).mp (Nat.not_le.mpr hmany))
  rw [atPrecision, two_pow_le_rescaled_iff]
  exact hpow.trans (Nat.le_mul_of_pos_left _ hpos)

/-- An amount is rescaled exactly, and refused if and only if the result fits no amount; the one
exception is zero, which is also refused if too many decimals are added. -/
theorem rescale_exact (amount : Amount) (source target : UInt8) :
    (∀ result, rescale amount source target = .ok result ↔
      result.toNat = amount.atPrecision source target ∧
        ¬(amount = 0 ∧ AddsTooMany source target)) ∧
    ∀ e, rescale amount source target = .error e ↔
      (2 ^ 128 ≤ amount.atPrecision source target ∨ amount = 0 ∧ AddsTooMany source target) ∧
        e = refusal amount source target := by
  by_cases hmany : AddsTooMany source target
  · have hwide : amount = 0 ∨ 2 ^ 128 ≤ amount.atPrecision source target :=
      or_iff_not_imp_left.mpr (two_pow_le_atPrecision hmany)
    rw [rescale_of_addsTooMany hmany]
    constructor
    · intro result
      refine iff_of_false nofun ?_
      rintro ⟨hresult, hzero⟩
      have hlt := result.isLt
      have hge := hwide.resolve_left fun h0 => hzero ⟨h0, hmany⟩
      omega
    · intro e
      rw [Except.error.injEq, eq_comm, iff_and_self]
      exact fun _ => hwide.symm.imp_right fun h0 => ⟨h0, hmany⟩
  · have hfew : target.toNat ≤ source.toNat + maxDecimals.toNat := Nat.not_lt.mp hmany
    constructor
    · intro result
      rw [rescale_eq_ok_iff hfew, atPrecision]
      exact (and_iff_left fun h => hmany h.2).symm
    · intro e
      rw [rescale_eq_error_iff hfew, atPrecision, refusal, if_neg hmany]
      exact and_congr_left' (or_iff_left fun h => hmany h.2).symm

/-- Zero fits at every precision, and is refused at some. -/
theorem rescale_zero_refused : (0 : Amount).atPrecision 0 39 = 0 ∧
    rescale 0 0 39 = .error ⟨"0", .tooManyDecimals⟩ :=
  ⟨by decide, by decide⟩

/-! ### One precision after another -/

theorem not_addsTooMany (h : rescale amount source target = .ok result) :
    ¬AddsTooMany source target := by
  intro hmany
  rw [rescale_of_addsTooMany hmany] at h
  cases h

theorem toNat_of_rescale (h : rescale amount source target = .ok result) :
    result.toNat = amount.atPrecision source target :=
  (rescale_eq_ok_iff (Nat.not_lt.mp (not_addsTooMany h))).mp h

/-- What a direct rescaling gives, one precision after another gives too. -/
theorem rescale_trans (hmin : min source.toNat target.toNat ≤ between.toNat)
    (h : rescale amount source between = .ok result)
    (hdirect : rescale amount source target = .ok direct) :
    rescale result between target = .ok direct := by
  have hfew : target.toNat ≤ source.toNat + maxDecimals.toNat :=
    Nat.not_lt.mp (not_addsTooMany hdirect)
  rw [rescale_eq_ok_iff (by omega), toNat_of_rescale hdirect, toNat_of_rescale h, atPrecision,
    atPrecision, mul_pow_div_pow_trans hmin]

theorem rescale_self (amount : Amount) (source : UInt8) :
    rescale amount source source = .ok amount := by
  rw [rescale_eq_ok_iff (Nat.le_add_right _ _), Nat.mul_div_cancel _ (by positivity)]

/-- The way over a precision between two others does not matter, if it is not below both: more
decimals and back give the amount again, and fewer decimals and back give less than one unit of
the lower precision away. -/
theorem rescale_path_independent (amount : Amount) (source between target : UInt8) :
    (min source.toNat target.toNat ≤ between.toNat → ∀ result last direct,
      rescale amount source between = .ok result → rescale result between target = .ok last →
        rescale amount source target = .ok direct → last = direct) ∧
    (source ≤ between → ∀ result, rescale amount source between = .ok result →
      rescale result between source = .ok amount) ∧
    (target ≤ source → ∀ result back, rescale amount source target = .ok result →
      rescale result target source = .ok back →
        back ≤ amount ∧ amount.toNat - back.toNat < 10 ^ (source.toNat - target.toNat)) := by
  refine ⟨fun hmin result last direct h hlast hdirect => ?_, fun hle result h => ?_,
    fun hle result back h hback => ?_⟩
  · rw [rescale_trans hmin h hdirect] at hlast
    exact (Except.ok.inj hlast).symm
  · have hle' := UInt8.le_iff_toNat_le.mp hle
    exact rescale_trans ((min_le_left _ _).trans hle') h (rescale_self amount source)
  · have hle' := UInt8.le_iff_toNat_le.mp hle
    have hresult := toNat_of_rescale h
    have hvalue := toNat_of_rescale hback
    rw [atPrecision, mul_pow_div_pow_of_ge hle'] at hresult
    rw [atPrecision, mul_pow_div_pow_of_le hle', hresult] at hvalue
    have hdiv := Nat.div_add_mod' amount.toNat (10 ^ (source.toNat - target.toNat))
    have hmod := Nat.mod_lt amount.toNat (y := 10 ^ (source.toNat - target.toNat)) (by positivity)
    rw [BitVec.le_def]
    omega

/-- An amount that 6 decimals cannot tell, with 18 decimals: by way of 20 decimals to 6, up to 20
and back, and down to 6 and back. -/
theorem rescale_path_independent_of_truncated :
    (rescale 1999999999999 18 20 = .ok 199999999999900 ∧ ∃ last direct,
      rescale 199999999999900 20 6 = .ok last ∧ rescale 1999999999999 18 6 = .ok direct ∧
        last = direct) ∧
    rescale 199999999999900 20 18 = .ok 1999999999999 ∧
    rescale 1 6 18 = .ok 1000000000000 ∧ (1000000000000 : Amount) ≤ 1999999999999 ∧
      (1999999999999 : Amount).toNat - (1000000000000 : Amount).toNat < 10 ^ (18 - 6) := by
  obtain ⟨hpath, hup, hdown⟩ := rescale_path_independent 1999999999999 18 20 6
  have h20 : rescale 1999999999999 18 20 = .ok 199999999999900 := by decide
  have h6 : rescale 1999999999999 18 6 = .ok 1 := by decide
  have hlast : rescale 199999999999900 20 6 = .ok 1 := by decide
  have hback : rescale 1 6 18 = .ok 1000000000000 := by decide
  exact ⟨⟨h20, _, _, hlast, h6, hpath (by decide) _ _ _ h20 hlast h6⟩, hup (by decide) _ h20,
    hback, hdown (by decide) _ _ h6 hback⟩

end

end LiquidityBand.Amount
