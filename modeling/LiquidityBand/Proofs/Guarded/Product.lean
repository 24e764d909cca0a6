import LiquidityBand.Proofs.Guarded.Words
import LiquidityBand.Proofs.Wide.Product
import Mathlib.Data.Nat.ModEq

/-!
# Products by index

Multiplication by rows over the indices of the words. Both factors are cut to their significant
words, a step of a row whose place is past the eighth word is left out, and the carry that remains
at the end of a row gets a word only if there is one. What is left out counts for a multiple of
`2 ^ 512`, so the invariants of the rows and of their steps are equations modulo that number.

* `wideStep` is one step of a row, each part of which has to fit 128 bits;
* `IsRow` is the invariant of a row and `IsProduct` that of all rows;
* `product_eq` says that the loops give the words of the product, and `product_exact` which number
  they stand for.
-/

namespace LiquidityBand.Guarded

open Words

/-- The number `x * y + z + k` of a step. -/
def wideStep (x y z : UInt64) (k : Nat) : Except Error Nat := do
  let xy ← store 128 (x.toNat * y.toNat)
  let xyz ← store 128 (xy + z.toNat)
  store 128 (xyz + k)

/-- One step of a row: the words found so far, and the carry. -/
def rowStep (xs ys : List UInt64) (j i : Nat) (s : List UInt64 × Nat) :
    Except Error (List UInt64 × Nat) := do
  let x ← entry xs i
  let y ← entry ys j
  if i + j < 8 then do
    let t ← wideStep x y (← entry s.1 (i + j)) s.2
    let found ← setEntry s.1 (i + j) (UInt64.ofNat t)
    return (found, t / 2 ^ 64)
  else return s

/-- One row, and the word of its last carry. -/
def row (xs ys : List UInt64) (m j : Nat) (found : List UInt64) : Except Error (List UInt64) := do
  let s ← ascending (rowStep xs ys j) m (found, 0)
  if j + m < 8 then do setEntry s.1 (j + m) (UInt64.ofNat (← store 64 s.2)) else return s.1

/-- The product of two numbers, cut to eight words. -/
def product (xs ys : List UInt64) : Except Error (List UInt64) := do
  let m ← wordCount xs
  let n ← wordCount ys
  ascending (row xs ys m) n (List.replicate 8 0)

/-! ### Steps of a row -/

section
variable {xs ys start found : List UInt64} {i j m : ℕ}

theorem wideStep_eq (x y z : UInt64) {k : ℕ} (hk : k < 2 ^ 64) :
    wideStep x y z k = .ok (x.toNat * y.toNat + z.toNat + k) ∧
      x.toNat * y.toNat + z.toNat + k < 2 ^ 128 := by
  have hx := x.toNat_lt
  have hy := y.toNat_lt
  have hz := z.toNat_lt
  have hxy : x.toNat * y.toNat ≤ (2 ^ 64 - 1) * (2 ^ 64 - 1) :=
    Nat.mul_le_mul (by omega) (by omega)
  refine ⟨?_, by omega⟩
  rw [wideStep, store_eq (by omega), ok_bind, store_eq (by omega), ok_bind, store_eq (by omega)]

/-- The row is added for the lowest `i` words of the first factor, up to a carry; the words that
no step of it reaches are those it started with. -/
structure IsRow (xs : List UInt64) (y : UInt64) (j m : ℕ) (start : List UInt64) (i : ℕ)
    (s : List UInt64 × ℕ) : Prop where
  length_eq : s.1.length = 8
  carry_lt : s.2 < 2 ^ 64
  above : s.1.drop (j + m) = start.drop (j + m)
  modEq : value s.1 + 2 ^ (64 * (i + j)) * s.2 ≡
    value start + 2 ^ (64 * j) * (value (xs.take i) * y.toNat) [MOD 2 ^ (64 * 8)]

/-- What is `n` words up or more counts for nothing in `n` words. -/
theorem two_pow_mul_modEq_zero {n : ℕ} (h : n ≤ i) (k : ℕ) :
    2 ^ (64 * i) * k ≡ 0 [MOD 2 ^ (64 * n)] :=
  Nat.modEq_zero_iff_dvd.mpr ((Nat.pow_dvd_pow 2 (Nat.mul_le_mul_left 64 h)).mul_right k)

theorem exists_rowStep (hx : xs.length = 8) (hm : m ≤ 8) (hj : j < ys.length) (hi : i < m)
    {s : List UInt64 × ℕ} (h : IsRow xs ys[j] j m start i s) :
    ∃ t, rowStep xs ys j i s = .ok t ∧ IsRow xs ys[j] j m start (i + 1) t := by
  obtain ⟨rs, k⟩ := s
  obtain ⟨hlen, hcarry, habove, hmod⟩ := h
  have hxi : i < xs.length := by omega
  rw [rowStep, entry_eq hxi, ok_bind, entry_eq hj, ok_bind]
  have hrow : 2 ^ (64 * j) * (value (xs.take (i + 1)) * ys[j].toNat) =
      2 ^ (64 * j) * (value (xs.take i) * ys[j].toNat) +
        2 ^ (64 * (i + j)) * (xs[i].toNat * ys[j].toNat) := by
    rw [value_take_succ hxi, Nat.mul_add 64, Nat.pow_add]
    ring
  by_cases hij : i + j < 8
  · have hrs : i + j < rs.length := hij.trans_eq hlen.symm
    obtain ⟨hstep, hlt⟩ := wideStep_eq xs[i] ys[j] rs[i + j] hcarry
    have hset := value_set hrs
      (UInt64.ofNat (xs[i].toNat * ys[j].toNat + rs[i + j].toNat + k))
    have hsplit := Nat.mod_add_div (xs[i].toNat * ys[j].toNat + rs[i + j].toNat + k) (2 ^ 64)
    rw [if_pos hij, entry_eq hrs, ok_bind, hstep, ok_bind, setEntry_eq hrs, ok_bind]
    refine ⟨_, rfl, by rw [List.length_set, hlen], Nat.div_lt_of_lt_mul hlt, ?_, ?_⟩
    · rw [List.drop_set_of_lt (by omega), habove]
    · -- the low word and the carry make up the step, and the word it replaces is part of it
      have hsum : value (rs.set (i + j)
            (UInt64.ofNat (xs[i].toNat * ys[j].toNat + rs[i + j].toNat + k))) +
            2 ^ (64 * (i + 1 + j)) *
              ((xs[i].toNat * ys[j].toNat + rs[i + j].toNat + k) / 2 ^ 64) =
          value rs + 2 ^ (64 * (i + j)) * k +
            2 ^ (64 * (i + j)) * (xs[i].toNat * ys[j].toNat) := by
        rw [UInt64.toNat_ofNat'] at hset
        have hnext : 2 ^ (64 * (i + 1 + j)) = 2 ^ (64 * (i + j)) * 2 ^ 64 := by
          rw [← Nat.pow_add]
          congr 1
          omega
        rw [hnext]
        generalize 2 ^ (64 * (i + j)) = place at hset ⊢
        generalize xs[i].toNat * ys[j].toNat = xy at hset hsplit ⊢
        generalize value (rs.set (i + j) _) = v at hset ⊢
        generalize (xy + rs[i + j].toNat + k) % 2 ^ 64 = low at hset hsplit
        generalize (xy + rs[i + j].toNat + k) / 2 ^ 64 = high at hsplit ⊢
        refine Nat.add_right_cancel (m := place * rs[i + j].toNat) ?_
        calc v + place * 2 ^ 64 * high + place * rs[i + j].toNat
            = value rs + place * (low + 2 ^ 64 * high) := by
              rw [Nat.add_right_comm, hset]
              ring
          _ = value rs + place * k + place * xy + place * rs[i + j].toNat := by
              rw [hsplit]
              ring
      rw [hsum, hrow, ← Nat.add_assoc]
      exact hmod.add_right _
  · rw [if_neg hij]
    refine ⟨_, rfl, hlen, hcarry, habove, ?_⟩
    have hle : 8 ≤ i + j := Nat.le_of_not_lt hij
    have hle' : 8 ≤ i + 1 + j := by omega
    have hcarryZero := (two_pow_mul_modEq_zero hle' k).trans (two_pow_mul_modEq_zero hle k).symm
    have hwordZero := two_pow_mul_modEq_zero hle (xs[i].toNat * ys[j].toNat)
    rw [hrow, ← Nat.add_assoc]
    exact (hcarryZero.add_left _).trans (hmod.add hwordZero.symm)

/-! ### Rows -/

/-- The rows of the lowest `j` words of the second factor are added. -/
structure IsProduct (xs ys : List UInt64) (m j : ℕ) (found : List UInt64) : Prop where
  length_eq : found.length = 8
  above : value (found.drop (j + m)) = 0
  modEq : value found ≡ value xs * value (ys.take j) [MOD 2 ^ (64 * 8)]

theorem exists_row (hx : xs.length = 8) (hm : m ≤ 8) (hxm : value (xs.take m) = value xs)
    (hj : j < ys.length) (h : IsProduct xs ys m j found) :
    ∃ zs, row xs ys m j found = .ok zs ∧ IsProduct xs ys m (j + 1) zs := by
  obtain ⟨hlen, habove, hmod⟩ := h
  have hstart : IsRow xs ys[j] j m found 0 (found, 0) :=
    ⟨hlen, Nat.two_pow_pos 64, rfl, by
      rw [Nat.mul_zero, List.take_zero, value_nil, Nat.zero_mul, Nat.mul_zero]⟩
  obtain ⟨⟨rs, k⟩, hs, hlen', hcarry, habove', hmod'⟩ := exists_ascending hstart
    fun i hi _ => exists_rowStep hx hm hj hi
  have hsum : value rs + 2 ^ (64 * (j + m)) * k ≡ value xs * value (ys.take (j + 1))
      [MOD 2 ^ (64 * 8)] := by
    rw [hxm, Nat.add_comm m] at hmod'
    have hrow : value xs * value (ys.take (j + 1)) =
        value xs * value (ys.take j) + 2 ^ (64 * j) * (value xs * ys[j].toNat) := by
      rw [value_take_succ hj]
      ring
    rw [hrow]
    exact hmod'.trans (hmod.add_right _)
  rw [row, hs, ok_bind]
  by_cases hjm : j + m < 8
  · have hrs : j + m < rs.length := hjm.trans_eq hlen'.symm
    -- no row before has reached the word of the carry
    have hzero : rs[j + m].toNat = 0 ∧ value (rs.drop (j + m + 1)) = 0 := by
      rw [← habove', List.drop_eq_getElem_cons hrs, value_cons] at habove
      omega
    have hset := value_set hrs (UInt64.ofNat k)
    rw [hzero.1, Nat.mul_zero, Nat.add_zero, UInt64.toNat_ofNat', Nat.mod_eq_of_lt hcarry] at hset
    rw [if_pos hjm, store_eq hcarry, ok_bind, setEntry_eq hrs]
    refine ⟨_, rfl, by rw [List.length_set, hlen'], ?_, hset ▸ hsum⟩
    rw [List.drop_set_of_lt (by omega), Nat.add_right_comm, hzero.2]
  · rw [if_neg hjm]
    refine ⟨_, rfl, hlen', ?_, ?_⟩
    · rw [List.drop_eq_nil_of_le (by omega), value_nil]
    · exact ((two_pow_mul_modEq_zero (Nat.le_of_not_lt hjm) k).symm.add_left _).trans hsum

end

/-! ### Products -/

theorem product_eq (a b : Wide) : product a.words b.words = .ok (a.mul b).words := by
  obtain ⟨m, hm, hm8, hcountA⟩ := exists_wordCount a.words
  obtain ⟨n, hn, hn8, hcountB⟩ := exists_wordCount b.words
  have hx := a.length_words
  rw [hx] at hm8
  have hzero : value (List.replicate 8 0) = 0 := by decide
  have hstart : IsProduct a.words b.words m 0 (List.replicate 8 0) :=
    ⟨List.length_replicate, by rw [value_drop, hzero, Nat.zero_div], by
      rw [hzero, List.take_zero, value_nil, Nat.mul_zero]⟩
  obtain ⟨zs, hzs, hlen, -, hmod⟩ := exists_ascending hstart fun j hj _ =>
    exists_row hx hm8 (value_take_of_count hcountA) (lt_of_lt_of_le hj hn8)
  rw [value_take_of_count hcountB] at hmod
  have hlt := value_lt zs
  rw [hlen] at hlt
  have hvalue : value zs = (a.mul b).toNat := by
    calc value zs = value zs % 2 ^ (64 * 8) := (Nat.mod_eq_of_lt hlt).symm
      _ = a.toNat * b.toNat % 2 ^ (64 * 8) := hmod
      _ = (a.mul b).toNat := (Wide.toNat_mul a b).symm
  rw [product, hm, ok_bind, hn, ok_bind, hzs, eq_words hlen hvalue]

/-- No step of a product leaves its 128 bits, and the product is exact modulo `2 ^ 512`; that of
two 256-bit numbers is exact. -/
theorem product_exact :
    (∀ a b : Wide, product a.words b.words = .ok (a.mul b).words ∧
      (a.mul b).toNat = a.toNat * b.toNat % 2 ^ (64 * 8)) ∧
    ∀ x y : UInt256, (Wide.ofProduct x y).toNat = x.toNat * y.toNat :=
  ⟨fun a b => ⟨product_eq a b, Wide.toNat_mul a b⟩, Wide.toNat_ofProduct⟩

end LiquidityBand.Guarded
