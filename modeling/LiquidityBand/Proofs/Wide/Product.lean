import LiquidityBand.Wide.Product
import Mathlib.Tactic.Ring

/-!
# The value of a product

Every row of a multiplication adds one word times the first factor to what the rows before left.
Read through `Words.value`, a row is exact modulo the capacity of the words it goes over, so the
rows together give the product modulo `2 ^ 512`. The product of two 256-bit numbers is smaller
than that, and is therefore exact.

* `Words.value_addRow` is one row, `Words.value_addProduct` all of them;
* `Wide.toNat_mul` and `Wide.toNat_ofProduct` are the two multiplications.
-/

namespace LiquidityBand

namespace Words

/-- Below a whole number of words, a lowest word stays as it is. -/
theorem word_add_mod {w : ℕ} (hw : w < 2 ^ 64) (n m : ℕ) :
    (w + 2 ^ 64 * n) % (2 ^ 64 * m) = w + 2 ^ 64 * (n % m) := by
  rw [Nat.mod_mul, Nat.add_mul_mod_self_left, Nat.mod_eq_of_lt hw,
    Nat.add_mul_div_left _ _ (by decide), Nat.div_eq_of_lt hw, Nat.zero_add]

theorem two_pow_words_succ (n : ℕ) : 2 ^ (64 * (n + 1)) = 2 ^ 64 * 2 ^ (64 * n) := by
  rw [Nat.mul_succ, Nat.pow_add, Nat.mul_comm]

theorem value_addRow {zs xs : List UInt64} (h : zs.length ≤ xs.length) (y k : UInt64) :
    value (addRow zs xs y k) =
      (value zs + value xs * y.toNat + k.toNat) % 2 ^ (64 * zs.length) := by
  induction zs generalizing xs k with
  | nil => cases xs <;> simp [addRow, Nat.mod_one]
  | cons z zs ih =>
    cases xs with
    | nil => simp at h
    | cons x xs =>
      have hstep := low_add_high (step x y z k)
      rw [toNat_step] at hstep
      have hsum : value (z :: zs) + value (x :: xs) * y.toNat + k.toNat =
          (low (step x y z k)).toNat +
            2 ^ 64 * (value zs + value xs * y.toNat + (high (step x y z k)).toNat) := by
        calc value (z :: zs) + value (x :: xs) * y.toNat + k.toNat
            = x.toNat * y.toNat + z.toNat + k.toNat +
                2 ^ 64 * (value zs + value xs * y.toNat) := by
              rw [value_cons, value_cons]
              ring
          _ = _ := by
              rw [← hstep]
              ring
      rw [hsum, List.length_cons, two_pow_words_succ, word_add_mod (UInt64.toNat_lt _), addRow,
        value_cons, ih (Nat.le_of_succ_le_succ h)]

/-- The rows add up to the product, as far as the words go. -/
theorem value_addProduct {xs zs : List UInt64} (h : zs.length ≤ xs.length) (ys : List UInt64) :
    value (addProduct xs zs ys) =
      (value zs + value xs * value ys) % 2 ^ (64 * zs.length) := by
  induction ys generalizing zs with
  | nil => simpa [addProduct] using (Nat.mod_eq_of_lt (value_lt zs)).symm
  | cons y ys ih =>
    have hlen := length_addRow h y 0
    have hrow := value_addRow h y 0
    rw [addProduct]
    cases he : addRow zs xs y 0 with
    | nil =>
      rw [he] at hlen
      simp [← hlen, Nat.mod_one]
    | cons w ws =>
      rw [he, List.length_cons] at hlen
      rw [he, value_cons, UInt64.toNat_zero, Nat.add_zero] at hrow
      calc value (w :: addProduct xs ws ys)
          = (w.toNat + 2 ^ 64 * (value ws + value xs * value ys)) % 2 ^ (64 * zs.length) := by
            rw [← hlen, two_pow_words_succ, word_add_mod (UInt64.toNat_lt w), value_cons,
              ih (by omega)]
        _ = ((w.toNat + 2 ^ 64 * value ws) + 2 ^ 64 * (value xs * value ys)) %
              2 ^ (64 * zs.length) := by rw [Nat.mul_add, Nat.add_assoc]
        _ = (value zs + value xs * value (y :: ys)) % 2 ^ (64 * zs.length) := by
            rw [hrow, Nat.mod_add_mod, value_cons]
            congr 1
            ring

end Words

namespace Wide

theorem toNat_mul (a b : Wide) : (a.mul b).toNat = a.toNat * b.toNat % 2 ^ (64 * 8) := by
  have hlen : (List.replicate 8 (0 : UInt64)).length ≤ a.words.length := by
    simp [a.length_words]
  have h := Words.value_addProduct hlen b.words
  have hzero : Words.value (List.replicate 8 0) = 0 := by decide
  rwa [hzero, Nat.zero_add, List.length_replicate] at h

/-- The number of wide numbers, in two factors. -/
theorem two_pow_eq_mul (k m : ℕ) (h : 64 * 8 = k + m) : 2 ^ (64 * 8) = 2 ^ k * 2 ^ m := by
  rw [h, Nat.pow_add]

/-- The product of two 256-bit numbers is never cut. -/
theorem toNat_ofProduct (a b : UInt256) : (ofProduct a b).toNat = a.toNat * b.toNat := by
  rw [ofProduct, toNat_mul, toNat_ofUInt256, toNat_ofUInt256]
  refine Nat.mod_eq_of_lt ?_
  calc a.toNat * b.toNat < 2 ^ 256 * 2 ^ 256 := Nat.mul_lt_mul'' a.isLt b.isLt
    _ = 2 ^ (64 * 8) := (two_pow_eq_mul 256 256 rfl).symm

end Wide

end LiquidityBand
