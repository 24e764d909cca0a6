import LiquidityBand.Wide.Basic

/-!
# Products of wide numbers

Multiplication by rows: each word of the second factor, times the whole first factor, is added to
what the rows before left, and then the lowest word is final. A step of a row is a product of two
words plus two words, which fits 128 bits exactly; its lower half stays and its upper half is
carried.

* `Wide.mul` is the product modulo `2 ^ 512`;
* `Wide.ofProduct` is the product of two 256-bit numbers, which is never cut.
-/

namespace LiquidityBand

namespace Words

/-- The number `x * y + z + k`, which 128 bits always hold. -/
def step (x y z k : UInt64) : UInt128 :=
  x.toBitVec.setWidth 128 * y.toBitVec.setWidth 128 + z.toBitVec.setWidth 128
    + k.toBitVec.setWidth 128

/-- The lower word of a step. -/
def low (t : UInt128) : UInt64 := ⟨t.setWidth 64⟩

/-- The upper word of a step. -/
def high (t : UInt128) : UInt64 := ⟨(t >>> 64).setWidth 64⟩

/-- The words `zs`, plus `y` times `xs`, plus the carry `k`, as far as `zs` goes. -/
def addRow : List UInt64 → List UInt64 → UInt64 → UInt64 → List UInt64
  | z :: zs, x :: xs, y, k =>
      let t := step x y z k
      low t :: addRow zs xs y (high t)
  | _, _, _, _ => []

/-- The words `zs` plus the product of `xs` and `ys`, as far as `zs` goes. -/
def addProduct (xs : List UInt64) : List UInt64 → List UInt64 → List UInt64
  | zs, [] => zs
  | zs, y :: ys =>
      match addRow zs xs y 0 with
      | [] => []
      | w :: ws => w :: addProduct xs ws ys

/-- A step of a row never leaves 128 bits. -/
theorem toNat_step (x y z k : UInt64) :
    (step x y z k).toNat = x.toNat * y.toNat + z.toNat + k.toNat := by
  have hx := x.toNat_lt
  have hy := y.toNat_lt
  have hz := z.toNat_lt
  have hk := k.toNat_lt
  have hxy : x.toNat * y.toNat ≤ (2 ^ 64 - 1) * (2 ^ 64 - 1) :=
    Nat.mul_le_mul (by omega) (by omega)
  simp only [step, BitVec.toNat_add, BitVec.toNat_mul, BitVec.toNat_setWidth,
    UInt64.toNat_toBitVec]
  rw [Nat.mod_eq_of_lt (a := x.toNat) (by omega), Nat.mod_eq_of_lt (a := y.toNat) (by omega),
    Nat.mod_eq_of_lt (a := z.toNat) (by omega), Nat.mod_eq_of_lt (a := k.toNat) (by omega),
    Nat.mod_eq_of_lt (a := x.toNat * y.toNat) (by omega),
    Nat.mod_eq_of_lt (a := x.toNat * y.toNat + z.toNat) (by omega),
    Nat.mod_eq_of_lt (by omega)]

/-- The two words of a step make it up. -/
theorem low_add_high (t : UInt128) : (low t).toNat + 2 ^ 64 * (high t).toNat = t.toNat := by
  have ht := t.isLt
  have hl : (low t).toNat = t.toNat % 2 ^ 64 := by
    simp [low, ← UInt64.toNat_toBitVec]
  have hh : (high t).toNat = t.toNat / 2 ^ 64 := by
    simp only [high, ← UInt64.toNat_toBitVec, BitVec.toNat_setWidth, BitVec.toNat_ushiftRight,
      Nat.shiftRight_eq_div_pow]
    exact Nat.mod_eq_of_lt (by omega)
  rw [hl, hh, Nat.mod_add_div]

@[simp] theorem length_addRow {zs xs : List UInt64} (h : zs.length ≤ xs.length) (y k : UInt64) :
    (addRow zs xs y k).length = zs.length := by
  induction zs generalizing xs k with
  | nil => cases xs <;> rfl
  | cons z zs ih =>
    cases xs with
    | nil => exact absurd h (by simp)
    | cons x xs =>
      rw [addRow, List.length_cons, ih (Nat.le_of_succ_le_succ h), List.length_cons]

theorem length_addProduct {xs zs : List UInt64} (h : zs.length ≤ xs.length) (ys : List UInt64) :
    (addProduct xs zs ys).length = zs.length := by
  induction ys generalizing zs with
  | nil => rfl
  | cons y ys ih =>
    have hl := length_addRow h y 0
    rw [addProduct]
    cases he : addRow zs xs y 0 with
    | nil => rw [← hl, he]
    | cons w ws =>
      rw [he, List.length_cons] at hl
      rw [List.length_cons, ih (by omega), hl]

end Words

namespace Wide

/-- The product modulo `2 ^ 512`. -/
def mul (a b : Wide) : Wide :=
  ⟨Words.addProduct a.words (List.replicate 8 0) b.words, by
    rw [Words.length_addProduct (by simp [a.length_words]), List.length_replicate]⟩

/-- The whole product of two 256-bit numbers. -/
def ofProduct (a b : UInt256) : Wide := (ofUInt256 a).mul (ofUInt256 b)

end Wide

end LiquidityBand
