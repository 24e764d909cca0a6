import LiquidityBand.Proofs.Wide.Division
import LiquidityBand.Wide.Shift

/-!
# The value of a shift

A shift moves whole words and then the bits that remain. Whole words multiply or divide by a power
of `2 ^ 64`; the bits that leave a word on one side are those that its neighbour takes in.

* `Words.value_shiftLeftWords` and `Words.value_shiftLeftBits` are the two parts of a shift up,
  `Words.value_shiftRightWords` and `Words.value_shiftRightBits` of a shift down;
* `Wide.toNat_shiftLeft` and `Wide.toNat_shiftRight` are the shifts, by any number of bits.
-/

namespace LiquidityBand

namespace Words

/-! ### Whole words -/

theorem value_replicate_zero (q : ℕ) : value (List.replicate q 0) = 0 := by
  induction q with
  | zero => rfl
  | succ q ih => rw [List.replicate_succ, value_cons, ih, UInt64.toNat_zero, Nat.mul_zero]

theorem value_take (ws : List UInt64) (k : ℕ) : value (ws.take k) = value ws % 2 ^ (64 * k) := by
  induction k generalizing ws with
  | zero => simp [Nat.mod_one]
  | succ k ih =>
    cases ws with
    | nil => simp
    | cons w ws =>
      rw [List.take_succ_cons, value_cons, value_cons, two_pow_words_succ,
        word_add_mod (UInt64.toNat_lt w), ih]

theorem value_drop (ws : List UInt64) (k : ℕ) : value (ws.drop k) = value ws / 2 ^ (64 * k) := by
  induction k generalizing ws with
  | zero => simp
  | succ k ih =>
    cases ws with
    | nil => simp
    | cons w ws =>
      rw [List.drop_succ_cons, value_cons, two_pow_words_succ, ← Nat.div_div_eq_div_mul,
        Nat.add_mul_div_left _ _ (by decide), Nat.div_eq_of_lt (UInt64.toNat_lt w), Nat.zero_add,
        ih]

theorem value_shiftLeftWords (q : ℕ) (ws : List UInt64) :
    value (shiftLeftWords q ws) = value ws * 2 ^ (64 * q) % 2 ^ (64 * ws.length) := by
  rw [shiftLeftWords, value_take, value_append, value_replicate_zero, List.length_replicate,
    Nat.zero_add, Nat.mul_comm]

theorem value_shiftRightWords (q : ℕ) (ws : List UInt64) :
    value (shiftRightWords q ws) = value ws / 2 ^ (64 * q) := by
  rw [shiftRightWords, value_drop, value_append, value_replicate_zero, Nat.mul_zero, Nat.add_zero]

/-! ### Bits within a word -/

section
variable {s : UInt64}

theorem two_pow_split {k : ℕ} (h : k < 64) : 2 ^ 64 = 2 ^ k * 2 ^ (64 - k) := by
  rw [← Nat.pow_add, Nat.add_sub_cancel' h.le]

theorem toNat_word_sub (h64 : s.toNat < 64) : (64 - s).toNat = 64 - s.toNat :=
  UInt64.toNat_sub_of_le _ _ (UInt64.le_iff_toNat_le.mpr h64.le)

/-- A word moved up, with the bits that leave the word under it. -/
theorem toNat_shiftLeft_word (h0 : 0 < s.toNat) (h64 : s.toNat < 64) (w below : UInt64) :
    (w <<< s ||| below >>> (64 - s)).toNat =
      w.toNat * 2 ^ s.toNat % 2 ^ 64 + below.toNat / 2 ^ (64 - s.toNat) := by
  have hs := toNat_word_sub h64
  have hsplit := two_pow_split h64
  have hlow : below.toNat / 2 ^ (64 - s.toNat) < 2 ^ s.toNat := by
    rw [Nat.div_lt_iff_lt_mul (Nat.two_pow_pos _), ← hsplit]
    exact below.toNat_lt
  have hhigh : w.toNat * 2 ^ s.toNat % 2 ^ 64 = (w.toNat % 2 ^ (64 - s.toNat)) <<< s.toNat := by
    rw [Nat.shiftLeft_eq, hsplit, Nat.mul_comm w.toNat, Nat.mul_mod_mul_left, Nat.mul_comm]
  rw [UInt64.toNat_or, UInt64.toNat_shiftLeft, UInt64.toNat_shiftRight, hs,
    Nat.mod_eq_of_lt h64, Nat.mod_eq_of_lt (show 64 - s.toNat < 64 by omega), Nat.shiftLeft_eq,
    Nat.shiftRight_eq_div_pow, hhigh, Nat.shiftLeft_add_eq_or_of_lt hlow]

/-- A word moved down, with the bits that leave the word above it. -/
theorem toNat_shiftRight_word (h0 : 0 < s.toNat) (h64 : s.toNat < 64) (w above : UInt64) :
    (w >>> s ||| above <<< (64 - s)).toNat =
      w.toNat / 2 ^ s.toNat + above.toNat * 2 ^ (64 - s.toNat) % 2 ^ 64 := by
  have hs := toNat_word_sub h64
  have h := toNat_shiftLeft_word (s := 64 - s) (by omega) (by omega) above w
  have hback : 64 - (64 - s) = s := by
    rw [← UInt64.toNat_inj, UInt64.toNat_sub_of_le, hs]
    · change 64 - (64 - s.toNat) = s.toNat
      omega
    · rw [UInt64.le_iff_toNat_le, hs]
      exact Nat.sub_le _ _
  rw [hback, hs, Nat.sub_sub_self h64.le, UInt64.or_comm] at h
  rw [h, Nat.add_comm]

theorem value_shiftLeftBits (h0 : 0 < s.toNat) (h64 : s.toNat < 64) (below : UInt64)
    (ws : List UInt64) :
    value (shiftLeftBits s below ws) =
      (value ws * 2 ^ s.toNat + below.toNat / 2 ^ (64 - s.toNat)) % 2 ^ (64 * ws.length) := by
  induction ws generalizing below with
  | nil => simp [shiftLeftBits, Nat.mod_one]
  | cons w ws ih =>
    have hsplit := two_pow_split h64
    have hcarry : w.toNat * 2 ^ s.toNat / 2 ^ 64 = w.toNat / 2 ^ (64 - s.toNat) := by
      rw [hsplit, Nat.mul_comm w.toNat, Nat.mul_div_mul_left _ _ (Nat.two_pow_pos _)]
    have hlt := UInt64.toNat_lt (w <<< s ||| below >>> (64 - s))
    rw [shiftLeftBits, value_cons, value_cons, ih, List.length_cons, two_pow_words_succ,
      ← word_add_mod hlt, toNat_shiftLeft_word h0 h64, ← hcarry]
    congr 1
    have hw := Nat.mod_add_div (w.toNat * 2 ^ s.toNat) (2 ^ 64)
    calc _ = (w.toNat * 2 ^ s.toNat % 2 ^ 64 + 2 ^ 64 * (w.toNat * 2 ^ s.toNat / 2 ^ 64)) +
            2 ^ 64 * (value ws * 2 ^ s.toNat) + below.toNat / 2 ^ (64 - s.toNat) := by ring
      _ = _ := by
        rw [hw]
        ring

theorem value_shiftRightBits (h0 : 0 < s.toNat) (h64 : s.toNat < 64) (ws : List UInt64) :
    value (shiftRightBits s ws) = value ws / 2 ^ s.toNat := by
  induction ws with
  | nil => simp [shiftRightBits]
  | cons w ws ih =>
    have hsplit := two_pow_split h64
    -- what enters a word from above are the lowest bits of all the words above it
    have hhead : (ws.headD 0).toNat % 2 ^ s.toNat = value ws % 2 ^ s.toNat := by
      cases ws with
      | nil => rfl
      | cons v vs =>
        rw [List.headD_cons, value_cons, hsplit, Nat.mul_assoc, Nat.add_mul_mod_self_left]
    rw [shiftRightBits, value_cons, value_cons, ih, toNat_shiftRight_word h0 h64]
    have habove : (ws.headD 0).toNat * 2 ^ (64 - s.toNat) % 2 ^ 64 =
        value ws % 2 ^ s.toNat * 2 ^ (64 - s.toNat) := by
      rw [hsplit, Nat.mul_mod_mul_right, hhead]
    have hparts := Nat.mod_add_div (value ws) (2 ^ s.toNat)
    calc w.toNat / 2 ^ s.toNat + (ws.headD 0).toNat * 2 ^ (64 - s.toNat) % 2 ^ 64 +
          2 ^ 64 * (value ws / 2 ^ s.toNat)
        = w.toNat / 2 ^ s.toNat + 2 ^ (64 - s.toNat) *
            (value ws % 2 ^ s.toNat + 2 ^ s.toNat * (value ws / 2 ^ s.toNat)) := by
          rw [habove, hsplit]
          ring
      _ = (w.toNat + 2 ^ 64 * value ws) / 2 ^ s.toNat := by
          rw [hparts, hsplit, Nat.mul_assoc, Nat.add_mul_div_left _ _ (Nat.two_pow_pos _)]

end

/-! ### Words and bits together -/

theorem toNat_remaining (k : ℕ) : (UInt64.ofNat (k % 64)).toNat = k % 64 := by
  rw [UInt64.toNat_ofNat']
  omega

theorem value_shiftLeft (ws : List UInt64) (k : ℕ) :
    value (shiftLeft ws k) = value ws * 2 ^ k % 2 ^ (64 * ws.length) := by
  have hk : 2 ^ k = 2 ^ (64 * (k / 64)) * 2 ^ (k % 64) := by rw [← Nat.pow_add, Nat.div_add_mod]
  unfold shiftLeft
  split_ifs with h0
  · rw [value_shiftLeftWords, hk, h0, Nat.pow_zero, Nat.mul_one]
  · rw [value_shiftLeftBits (by rw [toNat_remaining]; omega) (by rw [toNat_remaining]; omega),
      length_shiftLeftWords, value_shiftLeftWords, toNat_remaining, UInt64.toNat_zero,
      Nat.zero_div, Nat.add_zero, Nat.mod_mul_mod, hk, Nat.mul_assoc]

theorem value_shiftRight (ws : List UInt64) (k : ℕ) :
    value (shiftRight ws k) = value ws / 2 ^ k := by
  have hk : 2 ^ k = 2 ^ (64 * (k / 64)) * 2 ^ (k % 64) := by rw [← Nat.pow_add, Nat.div_add_mod]
  unfold shiftRight
  split_ifs with h0
  · rw [value_shiftRightWords, hk, h0, Nat.pow_zero, Nat.mul_one]
  · rw [value_shiftRightBits (by rw [toNat_remaining]; omega) (by rw [toNat_remaining]; omega),
      value_shiftRightWords, toNat_remaining, hk, Nat.div_div_eq_div_mul]

end Words

namespace Wide

theorem toNat_shiftLeft (n : Wide) (k : ℕ) :
    (n.shiftLeft k).toNat = n.toNat * 2 ^ k % 2 ^ (64 * 8) := by
  rw [shiftLeft]
  split_ifs with hk
  · have hwords : 64 * 8 ≤ k := hk
    have hdvd : 2 ^ (64 * 8) ∣ n.toNat * 2 ^ k := (Nat.pow_dvd_pow 2 hwords).mul_left _
    rw [Nat.mod_eq_zero_of_dvd hdvd]
    decide
  · have h := Words.value_shiftLeft n.words k
    rwa [n.length_words] at h

theorem toNat_shiftRight (n : Wide) (k : ℕ) : (n.shiftRight k).toNat = n.toNat / 2 ^ k := by
  rw [shiftRight]
  split_ifs with hk
  · have hwords : 64 * 8 ≤ k := hk
    have hpow := Nat.pow_le_pow_right Nat.two_pos hwords
    have hlt : n.toNat < 2 ^ k := n.toNat_lt.trans_le hpow
    rw [Nat.div_eq_of_lt hlt]
    decide
  · exact Words.value_shiftRight n.words k

end Wide

end LiquidityBand
