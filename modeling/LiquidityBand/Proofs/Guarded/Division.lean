import LiquidityBand.Proofs.Guarded.Shift
import LiquidityBand.Proofs.Wide.Division

/-!
# Division by index

Long division over the indices of the bits, from the first set one of the dividend down. The bit
that leaves the doubled remainder at the top is looked at before the shift, the next bit of the
dividend is set in the lowest word, and a bit of the quotient is set in place.

* `divideStep` is one bit and `divideWords` the division;
* `IsDividing` is the invariant: behind the bits from the `i`-th one on, remainder and quotient are
  those of the dividend without its lowest `i` bits;
* `divideWords_eq` says that the loop gives the words of quotient and remainder.
-/

namespace LiquidityBand.Guarded

open Words

/-- The remainder doubled, with a bit at its foot. -/
def pushBitWords (ws : List UInt64) (bit : Bool) : Except Error (List UInt64) := do
  let doubled ← shiftWordsUp ws 1
  if bit then do setEntry doubled 0 ((← entry doubled 0) ||| 1) else return doubled

/-- One more bit of the dividend: the quotient and the remainder. -/
def divideStep (ns divisor : List UInt64) (i : Nat) (s : List UInt64 × List UInt64) :
    Except Error (List UInt64 × List UInt64) := do
  let carry ← wordDown (← entry s.2 7) 63
  let remainder ← pushBitWords s.2 (← bitAt ns i)
  let order ← compareWords remainder divisor
  if carry == 1 || order != .lt then do
    let rest ← subtractWords remainder divisor
    return (← setBit s.1 i, rest)
  else return (s.1, remainder)

/-- Quotient and remainder of two numbers; the remainder is zero if it is not asked for. -/
def divideWords (ns divisor : List UInt64) (withRemainder : Bool) :
    Except Error (List UInt64 × List UInt64) := do
  let zero := List.replicate 8 0
  if (← wordCount divisor) = 0 then throw .divisionByZero
  else if (← compareWords ns divisor) = .lt then return (zero, if withRemainder then ns else zero)
  else do
    let s ← descending (divideStep ns divisor) (← bitCount ns) (zero, zero)
    return (s.1, if withRemainder then s.2 else zero)

/-! ### One bit -/

/-- What doubling leaves in a register, and what leaves it. -/
theorem eq_of_doubled {m n p : ℕ} {c b : Bool} (h : 2 * m * c.toNat + p = 2 * n + b.toNat)
    (hp : p < 2 * m) : p = 2 * n % (2 * m) + b.toNat ∧ c.toNat = n / m := by
  have hb := b.toNat_le
  rw [Nat.mul_mod_mul_left]
  cases c with
  | false =>
    rw [Bool.toNat_false] at h ⊢
    have hn : n < m := by omega
    rw [Nat.mod_eq_of_lt hn, Nat.div_eq_of_lt hn]
    omega
  | true =>
    rw [Bool.toNat_true] at h ⊢
    obtain ⟨r, rfl⟩ : ∃ r, n = m + r := Nat.exists_eq_add_of_le (by omega)
    have hr : r < m := by omega
    rw [Nat.add_mod_left, Nat.mod_eq_of_lt hr, Nat.add_div_left r (by omega),
      Nat.div_eq_of_lt hr]
    omega

theorem two_pow_eight_words : 2 ^ (64 * 8) = 2 * 2 ^ 511 := by
  rw [Wide.two_pow_eq_mul 1 511 rfl, Nat.pow_one 2]

section
variable (n : Wide) (bit : Bool)

theorem pushBit_eq : (n.pushBit bit).1.toNat = 2 * n.toNat % 2 ^ (64 * 8) + bit.toNat ∧
    (n.pushBit bit).2.toNat = n.toNat / 2 ^ 511 := by
  have hpush := Wide.toNat_pushBit n bit
  have hlt := (n.pushBit bit).1.toNat_lt
  rw [two_pow_eight_words] at *
  generalize 2 ^ 511 = m at *
  exact eq_of_doubled hpush hlt

theorem pushBitWords_eq : pushBitWords n.words bit = .ok (n.pushBit bit).1.words := by
  have hlen := (n.shiftLeft 1).length_words
  have hdoubled : value (n.shiftLeft 1).words = 2 * n.toNat % 2 ^ (64 * 8) := by
    rw [← Nat.mul_comm n.toNat]
    exact Wide.toNat_shiftLeft n 1
  have hpush := (pushBit_eq n bit).1
  rw [pushBitWords, shiftWordsUp_eq, ok_bind]
  cases bit with
  | false =>
    exact congrArg Except.ok (eq_words hlen (hdoubled.trans hpush.symm))
  | true =>
    have heven : 2 ∣ 2 ^ (64 * 8) := ⟨2 ^ 511, two_pow_eight_words⟩
    have hdvd : 2 ^ (0 + 1) ∣ value (n.shiftLeft 1).words :=
      hdoubled ▸ (Nat.dvd_mod_iff heven).mpr (Nat.dvd_mul_right 2 n.toNat)
    obtain ⟨zs, hzs, hzlen, hzvalue⟩ := exists_setBit (i := 0) (by rw [hlen]; decide) hdvd
    have hvalue : value zs = (n.pushBit true).1.toNat := by
      rw [hzvalue, hdoubled]
      exact hpush.symm
    rw [eq_words (hzlen.trans hlen) hvalue] at hzs
    exact hzs

/-- The bit that leaves at the top is the top bit of the last word. -/
theorem exists_carry : ∃ w, entry n.words 7 = .ok w ∧ (w >>> 63 == 1) = (n.pushBit bit).2 := by
  have hlen : 7 < n.words.length := by
    rw [n.length_words]
    decide
  have hcarry := (pushBit_eq n bit).2
  have hword : (n.words[7] >>> 63).toNat = n.toNat / 2 ^ 511 := by
    have htop : n.words[7].toNat = n.toNat / 2 ^ (64 * 7) := by
      have hdrop := value_drop n.words 7
      rw [List.drop_eq_getElem_cons hlen, List.drop_eq_nil_of_le n.length_words.le, value_cons,
        value_nil] at hdrop
      exact hdrop
    rw [UInt64.toNat_shiftRight, htop]
    change (n.toNat / 2 ^ (64 * 7)) >>> 63 = _
    rw [Nat.shiftRight_eq_div_pow, Nat.div_div_eq_div_mul, ← Nat.pow_add 2 (64 * 7) 63,
      show 64 * 7 + 63 = 511 from rfl]
  refine ⟨n.words[7], entry_eq hlen, ?_⟩
  rw [Bool.eq_iff_iff, beq_iff_eq, ← UInt64.toNat_inj, hword, ← hcarry, UInt64.toNat_one]
  exact Bool.toNat_eq_one

end

/-! ### All bits -/

/-- Quotient and remainder are those of the dividend without its lowest `i` bits; the quotient
stands in its place. -/
structure IsDividing (n divisor : Wide) (i : ℕ) (s : List UInt64 × List UInt64)
    (d : Wide.Division) : Prop where
  divides : divisor.Divides (n.toNat / 2 ^ i) d
  length_eq : s.1.length = 8
  quotient_eq : value s.1 = d.quotient.toNat * 2 ^ i
  remainder_eq : s.2 = d.remainder.words

section
variable {n divisor : Wide} {i : ℕ} {s : List UInt64 × List UInt64} {d : Wide.Division}

theorem compare_ne_lt_iff (a b : Wide) :
    (compare (value a.words) (value b.words) != .lt) = !a.less b := by
  rw [Wide.less, order_eq (a.length_words.trans b.length_words.symm)]
  rfl

/-- A bit of the quotient in its place: there is room for it above the bits that are still open. -/
theorem toNat_pushBit_quotient {q : Wide} {v : ℕ} (h : v = q.toNat * 2 ^ (i + 1))
    (hv : v < 2 ^ (64 * 8)) (b : Bool) :
    (q.pushBit b).1.toNat * 2 ^ i = v + b.toNat * 2 ^ i := by
  have hroom : 2 * q.toNat + b.toNat < 2 ^ (64 * 8) := by
    have hle : 2 * q.toNat ≤ v := by
      rw [h, Nat.pow_succ, Nat.mul_comm 2, Nat.mul_comm (2 ^ i), ← Nat.mul_assoc]
      exact Nat.le_mul_of_pos_right _ (Nat.two_pow_pos i)
    have hb := b.toNat_le
    rw [two_pow_eight_words] at hv ⊢
    omega
  rw [(Wide.pushBit_of_lt hroom).2, h, Nat.pow_succ]
  ring

theorem exists_divideStep (hi : i < 64 * 8) (h : IsDividing n divisor (i + 1) s d) :
    ∃ t, divideStep n.words divisor.words i s = .ok t ∧ ∃ e, IsDividing n divisor i t e := by
  obtain ⟨quotient, remainder⟩ := s
  obtain ⟨hdivides, hlen, hquotient, rfl⟩ := h
  have hbit : bitAt n.words i = .ok (n.toNat.testBit i) := bitAt_eq (by rwa [n.length_words])
  have htaken : 2 * (n.toNat / 2 ^ (i + 1)) + (n.toNat.testBit i).toNat = n.toNat / 2 ^ i := by
    rw [Nat.toNat_testBit, Nat.pow_succ, ← Nat.div_div_eq_div_mul]
    exact Nat.div_add_mod _ 2
  -- from here on the bit is any bit: what it stands for is in `htaken`
  generalize n.toNat.testBit i = bit at hbit htaken
  have hnext := Wide.divides_next hdivides bit
    (htaken ▸ lt_of_le_of_lt (Nat.div_le_self _ _) n.toNat_lt)
  rw [htaken] at hnext
  have hv := value_lt quotient
  rw [show quotient.length = 8 from hlen] at hv
  have hplace := toNat_pushBit_quotient hquotient hv
  obtain ⟨w, hw, hcarry⟩ := exists_carry d.remainder bit
  rw [divideStep, hw, ok_bind, wordDown_eq (by decide), ok_bind, hbit, ok_bind, pushBitWords_eq,
    ok_bind, compareWords_eq (by rw [Wide.length_words, Wide.length_words]), ok_bind,
    compare_ne_lt_iff]
  change ∃ t, (if (w >>> 63 == 1 || _) = true then _ else _) = _ ∧ _
  rw [hcarry]
  by_cases hfit : ((d.remainder.pushBit bit).2 || !(d.remainder.pushBit bit).1.less divisor) = true
  · have hdvd : 2 ^ (i + 1) ∣ value quotient := Dvd.intro_left _ hquotient.symm
    have hi' : i < 64 * quotient.length := by rwa [show quotient.length = 8 from hlen]
    obtain ⟨zs, hzs, hzlen, hzvalue⟩ := exists_setBit hi' hdvd
    have hd : d.next divisor bit =
        ⟨(d.quotient.pushBit true).1, (d.remainder.pushBit bit).1.sub divisor⟩ := by
      rw [Wide.next_eq, if_pos ((Wide.takes_off_iff _ _ _).mp hfit)]
    rw [if_pos hfit, subtractWords_eq (by rw [Wide.length_words, Wide.length_words]), ok_bind, hzs]
    refine ⟨_, rfl, d.next divisor bit, hnext, hzlen.trans hlen, ?_, ?_⟩
    · rw [hd, hplace, Bool.toNat_true, Nat.one_mul]
      exact hzvalue
    · rw [hd]
      rfl
  · have hd : d.next divisor bit =
        ⟨(d.quotient.pushBit false).1, (d.remainder.pushBit bit).1⟩ := by
      rw [Wide.next_eq, if_neg (mt (Wide.takes_off_iff _ _ _).mpr hfit)]
    rw [if_neg hfit]
    refine ⟨_, rfl, d.next divisor bit, hnext, hlen, ?_, ?_⟩
    · rw [hd, hplace, Bool.toNat_false, Nat.zero_mul]
      rfl
    · rw [hd]

end

/-! ### Divisions -/

/-- The loop over all bits of the dividend ends in the words of quotient and remainder. -/
theorem exists_descending_divideStep {n divisor : Wide} (h : divisor.toNat ≠ 0) {k : ℕ}
    (hk : k ≤ 64 * 8) (hn : n.toNat < 2 ^ k) :
    descending (divideStep n.words divisor.words) k
        (List.replicate 8 0, List.replicate 8 0) =
      .ok ((Wide.ofNat (n.toNat / divisor.toNat)).words,
        (Wide.ofNat (n.toNat % divisor.toNat)).words) := by
  have hzero : (Wide.ofNat 0).toNat = 0 := by decide
  have hdivides : divisor.Divides (n.toNat / 2 ^ k) ⟨Wide.ofNat 0, Wide.ofNat 0⟩ := by
    rw [Nat.div_eq_of_lt hn]
    exact ⟨by rw [hzero, Nat.zero_mul], by rw [hzero]; exact Nat.pos_of_ne_zero h⟩
  have hstart : IsDividing n divisor k (List.replicate 8 0, List.replicate 8 0)
      ⟨Wide.ofNat 0, Wide.ofNat 0⟩ :=
    ⟨hdivides, List.length_replicate, by rw [hzero, Nat.zero_mul]; decide, rfl⟩
  obtain ⟨⟨quotient, remainder⟩, hs, d, hend, hlen, hquotient, rfl⟩ :=
    exists_descending (P := fun i t => ∃ d, IsDividing n divisor i t d) ⟨_, hstart⟩
      fun i hi t ⟨d, hd⟩ => exists_divideStep (hi.trans_le hk) hd
  rw [Nat.pow_zero, Nat.div_one] at hend
  rw [Nat.pow_zero, Nat.mul_one] at hquotient
  have hwords : quotient = d.quotient.words := eq_words hlen hquotient
  rw [hs, hwords, Wide.eq_ofNat hend.quotient_eq, Wide.eq_ofNat hend.remainder_eq]

theorem divideWords_eq (n divisor : Wide) (withRemainder : Bool) :
    divideWords n.words divisor.words withRemainder = (do
      let d ← n.divide divisor withRemainder
      return (d.quotient.words, d.remainder.words)) := by
  have hzero : List.replicate 8 0 = (Wide.ofNat 0).words := by decide
  obtain ⟨m, hm, -, hcount⟩ := exists_wordCount divisor.words
  have hmzero : m = 0 ↔ divisor.toNat = 0 := count_eq_zero_iff hcount
  rw [divideWords, hm, ok_bind]
  by_cases h : divisor.toNat = 0
  · rw [if_pos (hmzero.mpr h), Wide.divide_eq_error h]
    rfl
  · rw [if_neg (mt hmzero.mp h), compareWords_eq (by rw [Wide.length_words, Wide.length_words]),
      ok_bind, Wide.divide_eq_ok h, ok_bind]
    by_cases hlt : value n.words < value divisor.words
    · have hquotient : n.toNat / divisor.toNat = 0 := Nat.div_eq_of_lt hlt
      have hremainder : n.toNat % divisor.toNat = n.toNat := Nat.mod_eq_of_lt hlt
      rw [if_pos (compare_lt_iff_lt.mpr hlt), hquotient, hremainder]
      cases withRemainder with
      | false => simp [hzero]
      | true => simp [hzero, ← Wide.eq_ofNat (n := n) rfl]
    · obtain ⟨k, hk, hk512, hn⟩ := exists_bitCount n.length_words
      rw [if_neg (mt compare_lt_iff_lt.mp hlt), hk, ok_bind,
        exists_descending_divideStep h hk512 hn, ok_bind]
      cases withRemainder <;> simp [hzero]

end LiquidityBand.Guarded
