import LiquidityBand.Proofs.Guarded.Register
import LiquidityBand.Proofs.Wide.Shift

/-!
# Words by index

The operations on wide numbers as loops over the indices of their words, each access and each step
with its guard. Every loop is read through `Words.value`, and as words of one length are determined
by their number (`eq_of_value_eq` and, for eight of them, `eq_words`), it ends in the same words as
the recursion over the list.

* `wordCount` finds the most significant word that is not zero, with `exists_wordCount`;
* `compareWords` and `subtractWords` are the loops for the order and the difference, and
  `compareWords_eq` and `subtractWords_eq` say what they give;
* `bitAt` and `setBit` look at and set one bit, with `bitAt_eq` and `exists_setBit`, and `bitCount`
  is the number of bits up to the top one that is set, with `exists_bitCount`.
-/

namespace LiquidityBand

namespace Words

section
variable {xs ys ws : List UInt64} {i : ℕ}

theorem eq_of_value_eq (h : xs.length = ys.length) (hv : value xs = value ys) : xs = ys := by
  rw [← ofNat_value xs, ← ofNat_value ys, h, hv]

/-- Eight words are those of the wide number that they stand for. -/
theorem eq_words {n : Wide} (h : ws.length = 8) (hv : value ws = n.toNat) : ws = n.words :=
  eq_of_value_eq (h.trans n.length_words.symm) hv

theorem value_take_succ (h : i < ws.length) :
    value (ws.take (i + 1)) = value (ws.take i) + 2 ^ (64 * i) * ws[i].toNat := by
  rw [List.take_succ_eq_append_getElem h, value_append, List.length_take_of_le h.le, value_cons,
    value_nil, Nat.mul_zero, Nat.add_zero]

theorem value_take_lt (ws : List UInt64) (i : ℕ) : value (ws.take i) < 2 ^ (64 * i) := by
  rw [value_take]
  exact Nat.mod_lt _ (Nat.two_pow_pos _)

/-- What a word counts for is exchanged. -/
theorem value_set (h : i < ws.length) (w : UInt64) :
    value (ws.set i w) + 2 ^ (64 * i) * ws[i].toNat = value ws + 2 ^ (64 * i) * w.toNat := by
  induction ws generalizing i with
  | nil => simp at h
  | cons v vs ih =>
    cases i with
    | zero =>
      simp only [List.set_cons_zero, List.getElem_cons_zero, value_cons]
      omega
    | succ i =>
      have hrest := ih (Nat.lt_of_succ_lt_succ h)
      simp only [List.set_cons_succ, List.getElem_cons_succ, value_cons, two_pow_words_succ,
        Nat.mul_assoc]
      omega

/-- The higher word decides first. -/
theorem compare_add_mul {a b m x y : ℕ} (ha : a < m) (hb : b < m) :
    compare (a + m * x) (b + m * y) = (compare x y).then (compare a b) := by
  rcases lt_trichotomy x y with hlt | rfl | hgt
  · have hmul : m * (x + 1) ≤ m * y := Nat.mul_le_mul_left m hlt
    have hsum : a + m * x < b + m * y := by
      rw [Nat.mul_succ] at hmul
      omega
    rw [Nat.compare_eq_lt.mpr hlt, Nat.compare_eq_lt.mpr hsum, Ordering.lt_then]
  · rw [Nat.compare_eq_eq.mpr rfl, Ordering.eq_then]
    simp only [Nat.compare_eq_ite_lt, Nat.add_lt_add_iff_right]
  · have hmul : m * (y + 1) ≤ m * x := Nat.mul_le_mul_left m hgt
    have hsum : b + m * y < a + m * x := by
      rw [Nat.mul_succ] at hmul
      omega
    rw [Nat.compare_eq_gt.mpr hgt, Nat.compare_eq_gt.mpr hsum, Ordering.gt_then]

theorem toNat_getElem (h : i < ws.length) :
    ws[i].toNat = value ws / 2 ^ (64 * i) % 2 ^ 64 := by
  rw [← value_drop, List.drop_eq_getElem_cons h, value_cons, Nat.add_mul_mod_self_left,
    Nat.mod_eq_of_lt (UInt64.toNat_lt _)]

end

end Words

namespace Guarded

open Words

section
variable {xs ys ws : List UInt64} {i k : ℕ}

/-! ### Significant words -/

/-- The number of words, of the lowest `n`, up to the first one from above that is not zero. -/
def countBelow (ws : List UInt64) : Nat → Except Error Nat
  | 0 => return 0
  | i + 1 => do
      let w ← entry ws i
      if w ≠ 0 then return i + 1 else countBelow ws i

/-- The number of words up to the most significant one that is not zero. -/
def wordCount (ws : List UInt64) : Except Error Nat := countBelow ws ws.length

theorem exists_countBelow {n : ℕ} (h : n ≤ ws.length) :
    ∃ m, countBelow ws n = .ok m ∧ m ≤ n ∧ ∀ k, k < m ↔ 2 ^ (64 * k) ≤ value (ws.take n) := by
  induction n with
  | zero => exact ⟨0, rfl, le_rfl, by simp⟩
  | succ n ih =>
    have hn : n < ws.length := h
    rw [countBelow, entry_eq hn, ok_bind]
    -- a word that is zero changes neither the number nor the count
    by_cases hw : ws[n] = 0
    · obtain ⟨m, hm, hle, hiff⟩ := ih hn.le
      refine ⟨m, by simpa [hw] using hm, Nat.le_succ_of_le hle, fun k => ?_⟩
      rw [hiff, value_take_succ hn, hw, UInt64.toNat_zero, Nat.mul_zero, Nat.add_zero]
    · refine ⟨n + 1, by simp [hw], le_rfl, fun k => ⟨fun hk => ?_, fun hk => ?_⟩⟩
      · have hpos : 0 < ws[n].toNat := Nat.pos_of_ne_zero fun h0 => hw (UInt64.toNat_inj.mp h0)
        calc 2 ^ (64 * k) ≤ 2 ^ (64 * n) := Nat.pow_le_pow_right (by decide) (by omega)
          _ ≤ 2 ^ (64 * n) * ws[n].toNat := Nat.le_mul_of_pos_right _ hpos
          _ ≤ value (ws.take (n + 1)) := by
            rw [value_take_succ hn]
            exact Nat.le_add_left _ _
      · have hlt := lt_of_le_of_lt hk (value_take_lt ws (n + 1))
        have := (Nat.pow_lt_pow_iff_right (by decide)).mp hlt
        omega

/-- There are more than `k` significant words if and only if the number has more than `k` words. -/
theorem exists_wordCount (ws : List UInt64) :
    ∃ m, wordCount ws = .ok m ∧ m ≤ ws.length ∧ ∀ k, k < m ↔ 2 ^ (64 * k) ≤ value ws := by
  have h := exists_countBelow (le_refl ws.length)
  rwa [List.take_length] at h

theorem value_take_of_count {m : ℕ} (h : ∀ k, k < m ↔ 2 ^ (64 * k) ≤ value ws) :
    value (ws.take m) = value ws := by
  rw [value_take, Nat.mod_eq_of_lt]
  exact Nat.lt_of_not_le (mt (h m).mpr (lt_irrefl m))

theorem count_eq_zero_iff {m : ℕ} (h : ∀ k, k < m ↔ 2 ^ (64 * k) ≤ value ws) :
    m = 0 ↔ value ws = 0 := by
  have h0 := h 0
  rw [Nat.mul_zero, Nat.pow_zero] at h0
  omega

/-! ### Order -/

/-- The order of the numbers of the lowest `n` words. -/
def compareBelow (xs ys : List UInt64) : Nat → Except Error Ordering
  | 0 => return .eq
  | i + 1 => do
      let x ← entry xs i
      let y ← entry ys i
      if compare x y = .eq then compareBelow xs ys i else return compare x y

/-- The order of two numbers, from the most significant word down. -/
def compareWords (xs ys : List UInt64) : Except Error Ordering := compareBelow xs ys xs.length

theorem compareBelow_eq {n : ℕ} (hx : n ≤ xs.length) (hy : n ≤ ys.length) :
    compareBelow xs ys n = .ok (compare (value (xs.take n)) (value (ys.take n))) := by
  induction n with
  | zero => simp [compareBelow]
  | succ n ih =>
    have hx' : n < xs.length := hx
    have hy' : n < ys.length := hy
    rw [compareBelow, entry_eq hx', ok_bind, entry_eq hy', ok_bind, ih hx'.le hy'.le,
      value_take_succ hx', value_take_succ hy',
      compare_add_mul (value_take_lt xs n) (value_take_lt ys n), ← compare_word]
    cases compare xs[n] ys[n] <;> rfl

theorem compareWords_eq (h : xs.length = ys.length) :
    compareWords xs ys = .ok (compare (value xs) (value ys)) := by
  rw [compareWords, compareBelow_eq le_rfl h.le, List.take_length, h, List.take_length]

/-! ### Differences -/

/-- One word of a difference: the words found so far, and the borrow that the next one pays. -/
def subtractStep (xs ys : List UInt64) (i : Nat) (s : List UInt64 × Bool) :
    Except Error (List UInt64 × Bool) := do
  let x ← entry xs i
  let y ← entry ys i
  let t := x - y
  let borrow := s.2.toUInt64
  let found ← setEntry s.1 i (t - borrow)
  return (found, x < y || t < borrow)

/-- The difference of two numbers, from the least significant word up. -/
def subtractWords (xs ys : List UInt64) : Except Error (List UInt64) := do
  let s ← ascending (subtractStep xs ys) xs.length (List.replicate xs.length 0, false)
  return s.1

/-- The lowest `i` words of the difference are found, up to a borrow. -/
structure IsDifference (xs ys : List UInt64) (i : ℕ) (s : List UInt64 × Bool) : Prop where
  length_eq : s.1.length = xs.length
  value_eq : value (s.1.take i) + value (ys.take i) =
    value (xs.take i) + 2 ^ (64 * i) * s.2.toNat

theorem exists_subtractStep (hx : i < xs.length) (hy : i < ys.length) {s : List UInt64 × Bool}
    (h : IsDifference xs ys i s) :
    ∃ t, subtractStep xs ys i s = .ok t ∧ IsDifference xs ys (i + 1) t := by
  obtain ⟨zs, b⟩ := s
  obtain ⟨hlen, hvalue⟩ := h
  have hz : i < zs.length := hlen ▸ hx
  have hword := toNat_sub_borrow xs[i] ys[i] b
  refine ⟨(zs.set i (xs[i] - ys[i] - b.toUInt64), xs[i] < ys[i] || xs[i] - ys[i] < b.toUInt64),
    ?_, by rw [List.length_set, hlen], ?_⟩
  · rw [subtractStep, entry_eq hx, ok_bind, entry_eq hy, ok_bind]
    dsimp only
    rw [setEntry_eq hz]
    rfl
  · have hset : i < (zs.set i (xs[i] - ys[i] - b.toUInt64)).length := by rwa [List.length_set]
    rw [value_take_succ hset, value_take_succ hx, value_take_succ hy, List.getElem_set_self,
      List.take_set_of_le le_rfl, two_pow_words_succ]
    calc value (zs.take i) + 2 ^ (64 * i) * (xs[i] - ys[i] - b.toUInt64).toNat +
          (value (ys.take i) + 2 ^ (64 * i) * ys[i].toNat)
        = (value (zs.take i) + value (ys.take i)) +
            2 ^ (64 * i) * ((xs[i] - ys[i] - b.toUInt64).toNat + ys[i].toNat) := by ring
      _ = value (xs.take i) +
            2 ^ (64 * i) * ((xs[i] - ys[i] - b.toUInt64).toNat + ys[i].toNat + b.toNat) := by
          rw [hvalue]
          ring
      _ = _ := by
          rw [hword]
          ring

theorem eq_of_borrow {m v v' a d : ℕ} {b b' : Bool} (h : v + d = a + m * b.toNat)
    (h' : v' + d = a + m * b'.toNat) (hv : v < m) (hv' : v' < m) : v = v' := by
  cases b <;> cases b' <;> simp only [Bool.toNat_false, Bool.toNat_true] at h h' <;> omega

theorem subtractWords_eq (h : xs.length = ys.length) :
    subtractWords xs ys = .ok (sub xs ys false) := by
  have hstart : IsDifference xs ys 0 (List.replicate xs.length 0, false) :=
    ⟨List.length_replicate, by simp⟩
  obtain ⟨s, hs, hlen, hvalue⟩ := exists_ascending hstart
    fun i hi _ => exists_subtractStep hi (h ▸ hi)
  rw [← hlen, List.take_length, hlen, List.take_length, h, List.take_length] at hvalue
  obtain ⟨c, hc⟩ := value_sub h false
  have hlen' := length_sub h false
  have hs' := value_lt s.1
  have hsub := value_lt (sub xs ys false)
  rw [hlen, h] at hs'
  rw [hlen', h] at hsub
  rw [Bool.toNat_false, Nat.add_zero, h] at hc
  rw [subtractWords, hs, ok_bind,
    eq_of_value_eq (hlen.trans hlen'.symm) (eq_of_borrow hvalue hc hs' hsub)]
  rfl

/-! ### Bits -/

/-- A word moved up by less than its width; the bits at the top are lost. -/
def wordUp (w : UInt64) (k : Nat) : Except Error UInt64 := do
  return w <<< UInt64.ofNat (← shiftAmount 64 k)

/-- A word moved down by less than its width. -/
def wordDown (w : UInt64) (k : Nat) : Except Error UInt64 := do
  return w >>> UInt64.ofNat (← shiftAmount 64 k)

theorem wordUp_eq (h : k < 64) (w : UInt64) : wordUp w k = .ok (w <<< UInt64.ofNat k) := by
  rw [wordUp, shiftAmount_eq_ok h]
  rfl

theorem wordDown_eq (h : k < 64) (w : UInt64) : wordDown w k = .ok (w >>> UInt64.ofNat k) := by
  rw [wordDown, shiftAmount_eq_ok h]
  rfl

theorem toNat_ofNat_of_lt_64 (h : k < 64) : (UInt64.ofNat k).toNat = k := by
  rw [UInt64.toNat_ofNat']
  omega

/-- The bit at an index. -/
def bitAt (ws : List UInt64) (i : Nat) : Except Error Bool := do
  let w ← entry ws (i / 64)
  return (← wordDown w (i % 64)) &&& 1 == 1

theorem bitAt_eq (h : i < 64 * ws.length) : bitAt ws i = .ok ((value ws).testBit i) := by
  have hi : i / 64 < ws.length := Nat.div_lt_of_lt_mul h
  have hk : i % 64 < 64 := Nat.mod_lt i (by decide)
  have hdown : (ws[i / 64] >>> UInt64.ofNat (i % 64)).toNat = ws[i / 64].toNat / 2 ^ (i % 64) := by
    rw [UInt64.toNat_shiftRight, toNat_ofNat_of_lt_64 hk, Nat.mod_eq_of_lt hk,
      Nat.shiftRight_eq_div_pow]
  have hone : ((ws[i / 64] >>> UInt64.ofNat (i % 64)) &&& 1 == 1) =
      ws[i / 64].toNat.testBit (i % 64) := by
    rw [Bool.eq_iff_iff, beq_iff_eq, ← UInt64.toNat_inj, UInt64.toNat_and, hdown, UInt64.toNat_one,
      Nat.and_one_is_mod, Nat.testBit_eq_decide_div_mod_eq, decide_eq_true_iff]
  have hbit : ws[i / 64].toNat.testBit (i % 64) = (value ws).testBit i := by
    rw [toNat_getElem hi, Nat.testBit_mod_two_pow, Nat.testBit_div_two_pow, Nat.add_comm,
      Nat.div_add_mod, decide_eq_true hk, Bool.true_and]
  rw [bitAt, entry_eq hi, ok_bind, wordDown_eq hk, ok_bind, hone, hbit]
  rfl

/-- The words with the bit at an index set. -/
def setBit (ws : List UInt64) (i : Nat) : Except Error (List UInt64) := do
  let w ← entry ws (i / 64)
  setEntry ws (i / 64) (w ||| (← wordUp 1 (i % 64)))

/-- Below the lowest set bit, setting a bit adds what it counts for. -/
theorem exists_setBit (h : i < 64 * ws.length) (hdvd : 2 ^ (i + 1) ∣ value ws) :
    ∃ zs, setBit ws i = .ok zs ∧ zs.length = ws.length ∧ value zs = value ws + 2 ^ i := by
  have hi : i / 64 < ws.length := Nat.div_lt_of_lt_mul h
  have hk : i % 64 < 64 := Nat.mod_lt i (by decide)
  obtain ⟨q, hq⟩ := hdvd
  have hi' : 2 ^ i = 2 ^ (64 * (i / 64)) * 2 ^ (i % 64) := by rw [← Nat.pow_add, Nat.div_add_mod]
  -- the word of the bit ends in zeros, from the bit on downward
  have hword : ws[i / 64].toNat = (q % 2 ^ (63 - i % 64)) <<< (i % 64 + 1) := by
    have hsplit : 2 ^ 64 = 2 ^ (i % 64 + 1) * 2 ^ (63 - i % 64) := by
      rw [← Nat.pow_add]
      congr 1
      omega
    rw [toNat_getElem hi, hq, Nat.pow_succ, hi', Nat.mul_assoc, Nat.mul_assoc,
      Nat.mul_div_cancel_left _ (Nat.two_pow_pos _), ← Nat.mul_assoc, ← Nat.pow_succ, hsplit,
      Nat.mul_mod_mul_left, Nat.shiftLeft_eq, Nat.mul_comm]
  have hor : (ws[i / 64] ||| 1 <<< UInt64.ofNat (i % 64)).toNat =
      ws[i / 64].toNat + 2 ^ (i % 64) := by
    have hone : (1 <<< UInt64.ofNat (i % 64) : UInt64).toNat = 2 ^ (i % 64) := by
      rw [UInt64.toNat_shiftLeft, toNat_ofNat_of_lt_64 hk, Nat.mod_eq_of_lt hk, UInt64.toNat_one,
        Nat.shiftLeft_eq, Nat.one_mul, Nat.mod_eq_of_lt (Nat.pow_lt_pow_right (by decide) hk)]
    rw [UInt64.toNat_or, hone, hword,
      Nat.shiftLeft_add_eq_or_of_lt (Nat.pow_lt_pow_right (by decide) (Nat.lt_succ_self _))]
  have hset := value_set hi (ws[i / 64] ||| 1 <<< UInt64.ofNat (i % 64))
  rw [hor, Nat.mul_add, ← hi'] at hset
  refine ⟨ws.set (i / 64) (ws[i / 64] ||| 1 <<< UInt64.ofNat (i % 64)), ?_, List.length_set,
    by omega⟩
  rw [setBit, entry_eq hi, ok_bind, wordUp_eq hk, ok_bind, setEntry_eq hi]

/-- The number of bits up to the most significant one that is set. -/
def bitCount (ws : List UInt64) : Except Error Nat := do
  let n ← wordCount ws
  if n = 0 then return 0
  else do
    let top ← difference n 1
    let w ← entry ws top
    let below ← store 32 (top * 64)
    store 32 (below + (← difference 64 (leadingZeros 64 w.toNat)))

theorem exists_bitCount (h : ws.length = 8) :
    ∃ n, bitCount ws = .ok n ∧ n ≤ 64 * 8 ∧ value ws < 2 ^ n := by
  obtain ⟨m, hm, hle, hiff⟩ := exists_wordCount ws
  rw [h] at hle
  rw [bitCount, hm, ok_bind]
  cases m with
  | zero => exact ⟨0, rfl, by decide, by simp [(count_eq_zero_iff hiff).mp rfl]⟩
  | succ top =>
    have htop : top < ws.length := by omega
    have hw := UInt64.toNat_lt ws[top]
    have hsize : ws[top].toNat.size ≤ 64 := Nat.size_le.mpr hw
    have hlt := Nat.lt_size_self ws[top].toNat
    have hvalue := value_take_succ htop
    rw [value_take_of_count hiff] at hvalue
    refine ⟨top * 64 + ws[top].toNat.size, ?_, by omega, ?_⟩
    · rw [if_neg (Nat.succ_ne_zero top), difference_eq_ok (by omega), ok_bind,
        Nat.add_sub_cancel, entry_eq htop, ok_bind, store_eq (by omega), ok_bind,
        difference_eq_ok (leadingZeros_le _ _), ok_bind, sub_leadingZeros hw,
        store_eq (by omega)]
    · calc value ws < 2 ^ (64 * top) * (ws[top].toNat + 1) := by
            rw [hvalue, Nat.mul_succ, Nat.add_comm]
            exact Nat.add_lt_add_left (value_take_lt ws top) _
        _ ≤ 2 ^ (64 * top) * 2 ^ ws[top].toNat.size := Nat.mul_le_mul_left _ hlt
        _ = 2 ^ (top * 64 + ws[top].toNat.size) := by rw [← Nat.pow_add, Nat.mul_comm top]

end

end Guarded

end LiquidityBand
