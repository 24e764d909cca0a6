import LiquidityBand.Proofs.Wide.Product
import LiquidityBand.Wide.Division

/-!
# The value of a quotient

Long division keeps one invariant: the quotient times the divisor, plus the remainder, is the
number that the bits taken so far make up, and the remainder is below the divisor. The bit that
leaves a doubled remainder at the top belongs to its value, and the subtraction that follows gives
it back.

* `Words.value_sub`, `Words.value_double` and `Words.order_eq` read the steps of words as numbers;
* `Wide.Divides` is the invariant, `Wide.divides_next` one bit and `Wide.divides_foldl` all bits;
* `Wide.divide_eq_ok` and `Wide.divide_eq_error` are the division, and `Wide.divide_exact` says that
  it is Euclidean division, whatever the two numbers are.
-/

namespace LiquidityBand

namespace Words

/-- The words of one length are determined by their number. -/
theorem ofNat_value (ws : List UInt64) : ofNat ws.length (value ws) = ws := by
  induction ws with
  | nil => rfl
  | cons w ws ih =>
    have hdiv : (w.toNat + 2 ^ 64 * value ws) / 2 ^ 64 = value ws := by
      rw [Nat.add_mul_div_left _ _ (by decide), Nat.div_eq_of_lt (UInt64.toNat_lt w), Nat.zero_add]
    have hmod : UInt64.ofNat (w.toNat + 2 ^ 64 * value ws) = w := by
      rw [← UInt64.toNat_inj, UInt64.toNat_ofNat', Nat.add_mul_mod_self_left,
        Nat.mod_eq_of_lt (UInt64.toNat_lt w)]
    rw [List.length_cons, value_cons, ofNat, hmod, hdiv, ih]

theorem all_zero_iff (ws : List UInt64) : ws.all (· == 0) ↔ value ws = 0 := by
  induction ws with
  | nil => simp
  | cons w ws ih =>
    rw [List.all_cons, Bool.and_eq_true, ih, value_cons, beq_iff_eq, ← UInt64.toNat_inj,
      UInt64.toNat_zero]
    omega

/-! ### Subtraction, doubling and order -/

theorem toNat_sub_borrow (x y : UInt64) (b : Bool) :
    (x - y - b.toUInt64).toNat + y.toNat + b.toNat =
      x.toNat + 2 ^ 64 * (decide (x < y) || decide (x - y < b.toUInt64)).toNat := by
  have hx := x.toNat_lt
  have hy := y.toNat_lt
  have hb : b.toUInt64.toNat = b.toNat := by cases b <;> rfl
  have hb1 := b.toNat_le
  simp only [UInt64.lt_iff_toNat_lt, UInt64.toNat_sub, hb]
  by_cases hxy : x.toNat < y.toNat
  · simp only [hxy, decide_true, Bool.true_or, Bool.toNat_true]
    omega
  · by_cases ht : (2 ^ 64 - y.toNat + x.toNat) % 2 ^ 64 < b.toNat
    · simp only [hxy, ht, decide_true, Bool.or_true, Bool.toNat_true]
      omega
    · simp only [hxy, ht, decide_false, Bool.or_false, Bool.toNat_false]
      omega

/-- A borrow at the top is a whole capacity of the words. -/
theorem value_sub {xs ys : List UInt64} (h : xs.length = ys.length) (b : Bool) :
    ∃ c : Bool, value (sub xs ys b) + value ys + b.toNat =
      value xs + 2 ^ (64 * xs.length) * c.toNat := by
  induction xs generalizing ys b with
  | nil =>
    obtain rfl : ys = [] := List.eq_nil_of_length_eq_zero h.symm
    exact ⟨b, by simp [sub]⟩
  | cons x xs ih =>
    cases ys with
    | nil => simp at h
    | cons y ys =>
      have hstep := toNat_sub_borrow x y b
      obtain ⟨c, hc⟩ := ih (Nat.succ.inj h) (decide (x < y) || decide (x - y < b.toUInt64))
      refine ⟨c, ?_⟩
      rw [List.length_cons, two_pow_words_succ, sub, value_cons, value_cons, value_cons]
      generalize 2 ^ (64 * xs.length) = capacity at hc ⊢
      calc (x - y - b.toUInt64).toNat +
            2 ^ 64 * value (sub xs ys (decide (x < y) || decide (x - y < b.toUInt64))) +
            (y.toNat + 2 ^ 64 * value ys) + b.toNat
          = ((x - y - b.toUInt64).toNat + y.toNat + b.toNat) +
              2 ^ 64 * (value (sub xs ys (decide (x < y) || decide (x - y < b.toUInt64))) +
                value ys) := by ring
        _ = x.toNat + 2 ^ 64 *
              (value (sub xs ys (decide (x < y) || decide (x - y < b.toUInt64))) + value ys +
                (decide (x < y) || decide (x - y < b.toUInt64)).toNat) := by
            rw [hstep]
            ring
        _ = x.toNat + 2 ^ 64 * value xs + 2 ^ 64 * capacity * c.toNat := by
            rw [hc]
            ring

theorem toNat_double_word (w : UInt64) (c : Bool) :
    (w <<< 1 ||| c.toUInt64).toNat + 2 ^ 64 * (w >>> 63 == 1).toNat = 2 * w.toNat + c.toNat := by
  have hw := w.toNat_lt
  have hc : c.toUInt64.toNat = c.toNat := by cases c <;> rfl
  have hor : (w <<< 1 ||| c.toUInt64).toNat = 2 * w.toNat % 2 ^ 64 + c.toNat := by
    have heven : 2 * w.toNat % 2 ^ 64 = (w.toNat % 2 ^ 63) <<< 1 := by
      rw [Nat.shiftLeft_eq]
      omega
    rw [UInt64.toNat_or, UInt64.toNat_shiftLeft, hc, UInt64.toNat_one, Nat.shiftLeft_eq,
      Nat.mul_comm w.toNat, show 2 ^ (1 % 64) = 2 from rfl, heven,
      ← Nat.shiftLeft_add_eq_or_of_lt (b := c.toNat) (i := 1) (Bool.toNat_lt c)]
  have htop : (w >>> 63 == 1).toNat = w.toNat / 2 ^ 63 := by
    have hval : (w >>> 63).toNat = w.toNat / 2 ^ 63 := by
      rw [UInt64.toNat_shiftRight, Nat.shiftRight_eq_div_pow]
      rfl
    by_cases h : w >>> 63 = 1
    · rw [← hval, h]
      rfl
    · have hne : w.toNat / 2 ^ 63 ≠ 1 := fun he => h (by
        rw [← UInt64.toNat_inj, hval, he]
        rfl)
      rw [beq_false_of_ne h, Bool.toNat_false]
      omega
  rw [hor, htop]
  omega

theorem value_double (ws : List UInt64) (c : Bool) :
    value (double ws c).1 + 2 ^ (64 * ws.length) * (double ws c).2.toNat =
      2 * value ws + c.toNat := by
  induction ws generalizing c with
  | nil => simp [double]
  | cons w ws ih =>
    have hstep := toNat_double_word w c
    have hrest := ih (w >>> 63 == 1)
    rw [List.length_cons, two_pow_words_succ]
    change (w <<< 1 ||| c.toUInt64).toNat + 2 ^ 64 * value (double ws (w >>> 63 == 1)).1 +
      2 ^ 64 * 2 ^ (64 * ws.length) * (double ws (w >>> 63 == 1)).2.toNat = _
    rw [Nat.mul_assoc, Nat.add_assoc, ← Nat.mul_add, hrest, value_cons]
    omega

theorem compare_word (x y : UInt64) : compare x y = compare x.toNat y.toNat := by
  simp only [compare, compareOfLessAndEq, UInt64.lt_iff_toNat_lt, UInt64.toNat_inj]

/-- The most significant word that differs decides. -/
theorem order_eq {xs ys : List UInt64} (h : xs.length = ys.length) :
    order xs ys = compare (value xs) (value ys) := by
  induction xs generalizing ys with
  | nil =>
    obtain rfl : ys = [] := List.eq_nil_of_length_eq_zero h.symm
    rfl
  | cons x xs ih =>
    cases ys with
    | nil => simp at h
    | cons y ys =>
      have hx := x.toNat_lt
      have hy := y.toNat_lt
      rw [order, ih (Nat.succ.inj h), value_cons, value_cons, compare_word]
      simp only [Nat.compare_eq_ite_lt]
      split_ifs <;> first | rfl | omega

/-! ### Bits -/

/-- The number that bits make up, most significant bit first, behind the number `a`. -/
def ofBits (a : ℕ) (l : List Bool) : ℕ := l.foldl (fun n b => 2 * n + b.toNat) a

@[simp] theorem ofBits_nil (a : ℕ) : ofBits a [] = a := rfl

@[simp] theorem ofBits_cons (a : ℕ) (b : Bool) (l : List Bool) :
    ofBits a (b :: l) = ofBits (2 * a + b.toNat) l := rfl

theorem ofBits_append (a : ℕ) (l m : List Bool) : ofBits a (l ++ m) = ofBits (ofBits a l) m :=
  List.foldl_append

theorem le_ofBits (a : ℕ) (l : List Bool) : a ≤ ofBits a l := by
  induction l generalizing a with
  | nil => exact le_rfl
  | cons b l ih => exact le_trans (by omega) (ih (2 * a + b.toNat))

/-- Leading zeros do not count. -/
theorem ofBits_dropWhile (l : List Bool) : ofBits 0 (l.dropWhile (!·)) = ofBits 0 l := by
  induction l with
  | nil => rfl
  | cons b l ih => cases b <;> simp [ih]

theorem ofBits_testBit (a x k : ℕ) :
    ofBits a ((List.range k).reverse.map fun i => x.testBit i) = a * 2 ^ k + x % 2 ^ k := by
  induction k generalizing a with
  | zero => simp [Nat.mod_one]
  | succ k ih =>
    rw [List.range_succ, List.reverse_append, List.reverse_singleton, List.singleton_append,
      List.map_cons, ofBits_cons, ih, Nat.toNat_testBit, Nat.mod_pow_succ, Nat.pow_succ]
    ring

theorem ofBits_bits (ws : List UInt64) : ofBits 0 (bits ws) = value ws := by
  induction ws with
  | nil => rfl
  | cons w ws ih =>
    rw [bits, ofBits_append, ih, wordBits, ofBits_testBit, Nat.mod_eq_of_lt w.toNat_lt,
      value_cons]
    ring

end Words

namespace Wide

/-- A wide number is determined by the number it stands for. -/
theorem toNat_injective : Function.Injective toNat := by
  rintro ⟨xs, hx⟩ ⟨ys, hy⟩ (h : Words.value xs = Words.value ys)
  have hxs := Words.ofNat_value xs
  have hys := Words.ofNat_value ys
  rw [hx, h] at hxs
  rw [hy] at hys
  simp only [Wide.mk.injEq]
  exact hxs.symm.trans hys

theorem eq_ofNat {n : Wide} {x : ℕ} (h : n.toNat = x) : n = ofNat x := by
  refine toNat_injective ?_
  rw [toNat_ofNat, ← h, Nat.mod_eq_of_lt n.toNat_lt]

/-- No number below a wide one is cut. -/
theorem toNat_ofNat_of_le {n : Wide} {x : ℕ} (h : x ≤ n.toNat) : (ofNat x).toNat = x := by
  rw [toNat_ofNat, Nat.mod_eq_of_lt (lt_of_le_of_lt h n.toNat_lt)]

theorem isZero_iff (n : Wide) : n.isZero ↔ n.toNat = 0 := Words.all_zero_iff n.words

theorem less_iff (a b : Wide) : a.less b ↔ a.toNat < b.toNat := by
  rw [less, Words.order_eq (by rw [a.length_words, b.length_words]), beq_iff_eq,
    compare_lt_iff_lt]
  rfl

/-- Two numbers below `m` that a carry and a borrow make equal modulo `m` are equal. -/
theorem eq_sub_of_carry {m v a d n : ℕ} {c e : Bool} (h : v + d = a + m * e.toNat) (hv : v < m)
    (hn : m * c.toNat + a = n) (hle : d ≤ n) (hlt : n < m + d) : v = n - d := by
  cases c <;> cases e <;> simp only [Bool.toNat_false, Bool.toNat_true] at * <;> omega

/-- The difference takes the bit that left the first number at the top into account. -/
theorem toNat_sub {a b : Wide} {c : Bool} {n : ℕ} (hn : 2 ^ (64 * 8) * c.toNat + a.toNat = n)
    (hle : b.toNat ≤ n) (hlt : n < 2 ^ (64 * 8) + b.toNat) :
    (a.sub b).toNat = n - b.toNat := by
  obtain ⟨e, he⟩ := Words.value_sub (a.length_words.trans b.length_words.symm) false
  have hsub := (a.sub b).toNat_lt
  rw [a.length_words] at he
  generalize 2 ^ (64 * 8) = m at *
  exact eq_sub_of_carry he hsub hn hle hlt

theorem toNat_pushBit (n : Wide) (b : Bool) :
    2 ^ (64 * 8) * (n.pushBit b).2.toNat + (n.pushBit b).1.toNat = 2 * n.toNat + b.toNat := by
  have h := Words.value_double n.words b
  rw [n.length_words] at h
  generalize 2 ^ (64 * 8) = m at h ⊢
  rw [Nat.add_comm]
  exact h

/-- Doubling is exact as long as no bit leaves at the top. -/
theorem pushBit_of_lt {n : Wide} {b : Bool} (h : 2 * n.toNat + b.toNat < 2 ^ (64 * 8)) :
    (n.pushBit b).2 = false ∧ (n.pushBit b).1.toNat = 2 * n.toNat + b.toNat := by
  have hpush := toNat_pushBit n b
  generalize 2 ^ (64 * 8) = m at h hpush
  cases hc : (n.pushBit b).2 with
  | false => exact ⟨rfl, by rwa [hc, Bool.toNat_false, Nat.mul_zero, Nat.zero_add] at hpush⟩
  | true =>
    rw [hc, Bool.toNat_true, Nat.mul_one] at hpush
    exact absurd h (by rw [← hpush]; exact Nat.not_lt.mpr (Nat.le_add_right _ _))

/-! ### Division -/

/-- The quotient and the remainder of `n` by the divisor. -/
structure Divides (divisor : Wide) (n : ℕ) (d : Division) : Prop where
  eq : d.quotient.toNat * divisor.toNat + d.remainder.toNat = n
  lt : d.remainder.toNat < divisor.toNat

section
variable {divisor : Wide} {n : ℕ} {d : Division}

theorem Divides.quotient_eq (h : Divides divisor n d) :
    d.quotient.toNat = n / divisor.toNat := by
  rw [← h.eq, Nat.mul_comm, Nat.mul_add_div (Nat.zero_lt_of_lt h.lt), Nat.div_eq_of_lt h.lt,
    Nat.add_zero]

theorem Divides.remainder_eq (h : Divides divisor n d) :
    d.remainder.toNat = n % divisor.toNat := by
  rw [← h.eq, Nat.mul_comm, Nat.mul_add_mod, Nat.mod_eq_of_lt h.lt]

/-- The divisor is taken off exactly if it fits the doubled remainder, carry included. -/
theorem takes_off_iff (r divisor : Wide) (bit : Bool) :
    ((r.pushBit bit).2 || !(r.pushBit bit).1.less divisor) = true ↔
      divisor.toNat ≤ 2 * r.toNat + bit.toNat := by
  have hpush := toNat_pushBit r bit
  have hd := divisor.toNat_lt
  generalize 2 ^ (64 * 8) = m at hpush hd
  cases hc : (r.pushBit bit).2 with
  | false =>
    rw [hc, Bool.toNat_false, Nat.mul_zero, Nat.zero_add] at hpush
    rw [Bool.false_or, Bool.not_eq_true', ← Bool.not_eq_true, less_iff, hpush, Nat.not_lt]
  | true =>
    rw [hc, Bool.toNat_true, Nat.mul_one] at hpush
    rw [Bool.true_or, ← hpush]
    exact iff_of_true rfl (hd.le.trans (Nat.le_add_right _ _))

theorem next_eq (divisor : Wide) (d : Division) (bit : Bool) :
    d.next divisor bit =
      if divisor.toNat ≤ 2 * d.remainder.toNat + bit.toNat then
        ⟨(d.quotient.pushBit true).1, (d.remainder.pushBit bit).1.sub divisor⟩
      else ⟨(d.quotient.pushBit false).1, (d.remainder.pushBit bit).1⟩ := by
  simp only [← takes_off_iff]
  rfl

/-- One more bit of the dividend keeps the invariant. -/
theorem divides_next (h : Divides divisor n d) (bit : Bool)
    (hn : 2 * n + bit.toNat < 2 ^ (64 * 8)) :
    Divides divisor (2 * n + bit.toNat) (d.next divisor bit) := by
  obtain ⟨heq, hlt⟩ := h
  have hd := divisor.toNat_lt
  have hbit := bit.toNat_le
  -- the quotient does not exceed the dividend, so no bit of it leaves at the top
  have hq : d.quotient.toNat ≤ d.quotient.toNat * divisor.toNat :=
    Nat.le_mul_of_pos_right _ (Nat.zero_lt_of_lt hlt)
  have hpush := toNat_pushBit d.remainder bit
  by_cases hfit : divisor.toNat ≤ 2 * d.remainder.toNat + bit.toNat
  · have hquotient : (d.quotient.pushBit true).1.toNat = 2 * d.quotient.toNat + 1 := by
      refine (pushBit_of_lt (lt_of_le_of_lt ?_ hn)).2
      rw [Bool.toNat_true]
      omega
    have hremainder : ((d.remainder.pushBit bit).1.sub divisor).toNat =
        2 * d.remainder.toNat + bit.toNat - divisor.toNat :=
      toNat_sub (c := (d.remainder.pushBit bit).2) hpush hfit (by omega)
    rw [next_eq, if_pos hfit]
    refine ⟨?_, ?_⟩
    · rw [hquotient, hremainder, Nat.add_mul, Nat.mul_assoc]
      omega
    · rw [hremainder]
      omega
  · have hquotient : (d.quotient.pushBit false).1.toNat = 2 * d.quotient.toNat := by
      refine (pushBit_of_lt (lt_of_le_of_lt ?_ hn)).2
      rw [Bool.toNat_false]
      omega
    have hremainder : (d.remainder.pushBit bit).1.toNat = 2 * d.remainder.toNat + bit.toNat :=
      (pushBit_of_lt (by omega)).2
    rw [next_eq, if_neg hfit]
    refine ⟨?_, ?_⟩
    · rw [hquotient, hremainder, Nat.mul_assoc]
      omega
    · rw [hremainder]
      omega

/-- All bits of a dividend below `2 ^ 512`: no prefix of them makes up a greater number. -/
theorem divides_foldl (h : Divides divisor n d) (l : List Bool)
    (hl : Words.ofBits n l < 2 ^ (64 * 8)) :
    Divides divisor (Words.ofBits n l) (l.foldl (Division.next divisor) d) := by
  induction l generalizing n d with
  | nil => exact h
  | cons b l ih =>
    exact ih (divides_next h b (lt_of_le_of_lt (Words.le_ofBits _ l) hl)) hl

end

theorem divide_eq_error {n divisor : Wide} (h : divisor.toNat = 0) (withRemainder : Bool) :
    n.divide divisor withRemainder = .error .divisionByZero :=
  if_pos ((isZero_iff divisor).mpr h)

/-- Division by a number other than zero is exact; the remainder is zero if it is not asked for. -/
theorem divide_eq_ok {n divisor : Wide} (h : divisor.toNat ≠ 0) (withRemainder : Bool) :
    n.divide divisor withRemainder =
      .ok ⟨ofNat (n.toNat / divisor.toNat),
        ofNat (if withRemainder then n.toNat % divisor.toNat else 0)⟩ := by
  have hzero : (ofNat 0).toNat = 0 := by decide
  have hdivides : Divides divisor n.toNat (if n.less divisor then ⟨ofNat 0, n⟩
      else n.significantBits.foldl (Division.next divisor) ⟨ofNat 0, ofNat 0⟩) := by
    split_ifs with hless
    · exact ⟨by rw [hzero, Nat.zero_mul, Nat.zero_add], (less_iff n divisor).mp hless⟩
    · have hbits : Words.ofBits 0 n.significantBits = n.toNat := by
        rw [significantBits, Words.ofBits_dropWhile, Words.ofBits_bits, toNat]
      have hstart : Divides divisor 0 ⟨ofNat 0, ofNat 0⟩ :=
        ⟨by rw [hzero, Nat.zero_mul], by rw [hzero]; exact Nat.pos_of_ne_zero h⟩
      have hall := divides_foldl hstart n.significantBits (by rw [hbits]; exact n.toNat_lt)
      rwa [hbits] at hall
  rw [divide, if_neg (mt (isZero_iff divisor).mp h)]
  generalize (if n.less divisor then (⟨ofNat 0, n⟩ : Division)
    else n.significantBits.foldl (Division.next divisor) ⟨ofNat 0, ofNat 0⟩) = d at hdivides
  have hquotient := eq_ofNat hdivides.quotient_eq
  have hremainder := eq_ofNat hdivides.remainder_eq
  cases withRemainder with
  | false => exact congrArg Except.ok (congrArg (Division.mk · (ofNat 0)) hquotient)
  | true => exact congrArg Except.ok (congrArg₂ Division.mk hquotient hremainder)

/-- Only a divisor of zero is refused. By any other, up to the greatest, the quotient and the
remainder are those of the two numbers; without its remainder the quotient is the same. -/
theorem divide_exact (n divisor : Wide) :
    (∀ withRemainder,
      n.divide divisor withRemainder = .error .divisionByZero ↔ divisor.toNat = 0) ∧
    (divisor.toNat = 0 ∨ ∃ q r : Wide,
      n.toNat = q.toNat * divisor.toNat + r.toNat ∧ r.toNat < divisor.toNat ∧
      n.divide divisor true = .ok ⟨q, r⟩ ∧ n.divide divisor false = .ok ⟨q, ofNat 0⟩) := by
  by_cases h : divisor.toNat = 0
  · exact ⟨fun withRemainder => iff_of_true (divide_eq_error h withRemainder) h, .inl h⟩
  · refine ⟨fun withRemainder => iff_of_false ?_ h, .inr ?_⟩
    · rw [divide_eq_ok h]
      exact nofun
    · have hquotient := toNat_ofNat_of_le (Nat.div_le_self n.toNat divisor.toNat)
      have hremainder := toNat_ofNat_of_le (Nat.mod_le n.toNat divisor.toNat)
      refine ⟨ofNat (n.toNat / divisor.toNat), ofNat (n.toNat % divisor.toNat), ?_, ?_,
        divide_eq_ok h true, divide_eq_ok h false⟩
      · rw [hquotient, hremainder, Nat.mul_comm, Nat.div_add_mod]
      · rw [hremainder]
        exact Nat.mod_lt _ (Nat.pos_of_ne_zero h)

end Wide

end LiquidityBand
