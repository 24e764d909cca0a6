import LiquidityBand.Proofs.Guarded.Division
import LiquidityBand.Proofs.Guarded.Product
import LiquidityBand.Proofs.ProductQuotient

/-!
# Products of prices by index

The two operations on square-root prices over the loops for products, divisions and shifts. A price
is taken apart into words, and the four lower words of a number are put together to a price once it
is known that there are no others.

* `halvesWords` takes two halves apart and `narrow` puts the words together, with `halvesWords_eq`
  and `narrow_eq`;
* `wideProduct` is the product in full, with `wideProduct_eq`;
* `productQuotient` and `fixedProduct` are the two operations, with `productQuotient_eq` and
  `fixedProduct_eq`.
-/

namespace LiquidityBand.Guarded

open Words

/-- The two words of 128 bits, the lower one first. -/
def splitWords (n : Nat) : Except Error (List UInt64) := do
  let high ← store 64 (← shiftDown 128 n 64)
  return [UInt64.ofNat n, UInt64.ofNat high]

/-- The four words of a 256-bit number. -/
def halfWords (x : UInt256) : Except Error (List UInt64) := do
  return (← splitWords (x.toNat % 2 ^ 128)) ++ (← splitWords (x.toNat / 2 ^ 128))

/-- The words of the number `h * 2 ^ 256 + l`. -/
def halvesWords (h l : UInt256) : Except Error (List UInt64) := do
  return (← halfWords l) ++ (← halfWords h)

/-- Two words in 128 bits. -/
def joinWords (high low : UInt64) : Except Error Nat := do
  return (← shiftUp 128 high.toNat 64) ||| low.toNat

/-- The number as a 256-bit one, if no more than four of its words count. -/
def narrow (ws : List UInt64) : Except Error UInt256 := do
  if 4 < (← wordCount ws) then throw .arithmeticOverflow
  else do
    let high ← joinWords (← entry ws 3) (← entry ws 2)
    let low ← joinWords (← entry ws 1) (← entry ws 0)
    return BitVec.ofNat 256 (high * 2 ^ 128 + low)

/-- The whole product of two 256-bit numbers. -/
def wideProduct (a b : UInt256) : Except Error (List UInt64) := do
  product (← halvesWords 0 a) (← halvesWords 0 b)

/-- The quotient `a * b / d`, rounded down, or up if `roundUp` is set. -/
def productQuotient (a b d : UInt256) (roundUp : Bool) : Except Error UInt256 :=
  if d = 0 then throw .divisionByZero
  else do
    let found ← wideProduct a b
    let r ← divideWords found (← halvesWords 0 d) roundUp
    let quotient ← narrow r.1
    roundedUp (roundUp && (← wordCount r.2) != 0) quotient

/-- The quotient `a * b / 2 ^ 96`, rounded down, or up if `roundUp` is set. -/
def fixedProduct (a b : UInt256) (roundUp : Bool) : Except Error UInt256 := do
  let found ← wideProduct a b
  let quotient ← narrow (← shiftWordsDown found fractionBits)
  let dropped ← shiftWordsUp found (← difference 512 fractionBits)
  roundedUp (roundUp && (← wordCount dropped) != 0) quotient

theorem splitWords_eq {n : ℕ} (h : n < 2 ^ 128) :
    splitWords n = .ok [UInt64.ofNat n, UInt64.ofNat (n / 2 ^ 64)] := by
  rw [splitWords, shiftDown_eq (by decide), ok_bind, store_eq (by omega)]
  rfl

theorem halfWords_eq (x : UInt256) : halfWords x = .ok (Words.ofNat 4 x.toNat) := by
  have hx := x.isLt
  have h0 : UInt64.ofNat (x.toNat % 2 ^ 128) = UInt64.ofNat x.toNat := by
    rw [← UInt64.toNat_inj, UInt64.toNat_ofNat', UInt64.toNat_ofNat']
    omega
  have h1 : UInt64.ofNat (x.toNat % 2 ^ 128 / 2 ^ 64) = UInt64.ofNat (x.toNat / 2 ^ 64) := by
    rw [← UInt64.toNat_inj, UInt64.toNat_ofNat', UInt64.toNat_ofNat']
    omega
  have h2 : x.toNat / 2 ^ 64 / 2 ^ 64 = x.toNat / 2 ^ 128 := by
    rw [Nat.div_div_eq_div_mul, ← Nat.pow_add]
  rw [halfWords, splitWords_eq (by omega), ok_bind, splitWords_eq (by omega), ok_bind, h0, h1,
    ← h2]
  rfl

theorem halvesWords_eq (h l : UInt256) : halvesWords h l = .ok (Wide.ofHalves h l).words := by
  rw [halvesWords, halfWords_eq, ok_bind, halfWords_eq]
  rfl

theorem wideProduct_eq (a b : UInt256) : wideProduct a b = .ok (Wide.ofProduct a b).words := by
  rw [wideProduct, halvesWords_eq, ok_bind, halvesWords_eq, ok_bind, product_eq]
  rfl

theorem joinWords_eq (high low : UInt64) :
    joinWords high low = .ok (high.toNat * 2 ^ 64 + low.toNat) := by
  have hhigh := high.toNat_lt
  have hor := Nat.shiftLeft_add_eq_or_of_lt low.toNat_lt high.toNat
  rw [Nat.shiftLeft_eq] at hor
  rw [joinWords, shiftUp_eq (by decide) (by omega), ok_bind, ← hor]
  rfl

theorem narrow_eq (n : Wide) : narrow n.words = n.toUInt256 := by
  obtain ⟨m, hm, -, hcount⟩ := exists_wordCount n.words
  have hlen := n.length_words
  rw [narrow, hm, ok_bind, Wide.toUInt256_eq]
  by_cases h : 4 < m
  · have hle : 2 ^ 256 ≤ n.toNat := (hcount 4).mp h
    rw [if_pos h, fit_eq_error hle]
    rfl
  · have hlt : n.toNat < 2 ^ 256 := Nat.lt_of_not_le (mt (hcount 4).mpr h)
    obtain ⟨a, b, c, d, e, f, g, i, hwords⟩ := exists_eight hlen
    have hvalue : n.toNat % 2 ^ 256 = value [a, b, c, d] := by
      rw [← show n.words.take 4 = [a, b, c, d] by rw [hwords]; rfl, value_take]
      rfl
    rw [Nat.mod_eq_of_lt hlt] at hvalue
    rw [if_neg h, fit_eq_ok hlt, hvalue, hwords]
    simp only [entry, List.getElem?_cons_zero, List.getElem?_cons_succ, ok_bind, joinWords_eq,
      pure_eq_ok, value_cons, value_nil]
    congr 2
    ring

theorem wordCount_bne_zero (n : Wide) :
    ∃ m, wordCount n.words = .ok m ∧ (m != 0) = !n.isZero := by
  obtain ⟨m, hm, -, hcount⟩ := exists_wordCount n.words
  refine ⟨m, hm, ?_⟩
  rw [Wide.not_isZero, Bool.eq_iff_iff, bne_iff_ne, decide_eq_true_iff]
  exact not_congr (count_eq_zero_iff hcount)

section
variable (a b : UInt256) (roundUp : Bool)

theorem productQuotient_eq (d : UInt256) :
    productQuotient a b d roundUp = LiquidityBand.productQuotient a b d roundUp := by
  rw [productQuotient, LiquidityBand.productQuotient]
  by_cases hd : d = 0
  · rw [if_pos hd, if_pos hd]
    rfl
  · rw [if_neg hd, if_neg hd, wideProduct_eq, ok_bind, halvesWords_eq, ok_bind, divideWords_eq,
      ← Wide.ofUInt256]
    cases (Wide.ofProduct a b).divide (Wide.ofUInt256 d) roundUp with
    | error e => rfl
    | ok r =>
      obtain ⟨m, hm, hzero⟩ := wordCount_bne_zero r.remainder
      simp only [ok_bind, pure_eq_ok, narrow_eq, hm, hzero]

theorem fixedProduct_eq :
    fixedProduct a b roundUp = LiquidityBand.fixedProduct a b roundUp := by
  have hbits : difference 512 fractionBits = .ok (512 - fractionBits) := rfl
  obtain ⟨m, hm, hzero⟩ :=
    wordCount_bne_zero ((Wide.ofProduct a b).shiftLeft (512 - fractionBits))
  rw [fixedProduct, wideProduct_eq, ok_bind, shiftWordsDown_eq, ok_bind, narrow_eq]
  simp only [hbits, ok_bind, shiftWordsUp_eq, hm, hzero]
  rfl

end

end LiquidityBand.Guarded
