import LiquidityBand.Register

/-!
# Numbers as lists of words

A list of 64-bit words, least significant word first, stands for a natural number.

* `Words.value` is that number, and `Words.ofNat n x` are the `n` least significant words of `x`;
* `Words.order` compares two lists of one length, the most significant word deciding first;
* `Words.sub` subtracts word by word with a borrow, and `Words.double` doubles with a carry;
* `Words.bits` are the bits of the number, most significant bit first.
-/

namespace LiquidityBand.Words

/-- The number that the words stand for. -/
def value : List UInt64 → Nat
  | [] => 0
  | w :: ws => w.toNat + 2 ^ 64 * value ws

/-- The `n` least significant words of `x`. -/
def ofNat : Nat → Nat → List UInt64
  | 0, _ => []
  | n + 1, x => UInt64.ofNat x :: ofNat n (x / 2 ^ 64)

/-- The order of two numbers of equally many words. -/
def order : List UInt64 → List UInt64 → Ordering
  | x :: xs, y :: ys => (order xs ys).then (compare x y)
  | _, _ => .eq

/-- The words of `xs - ys`, less one if there is a borrow, modulo the capacity of the words. -/
def sub : List UInt64 → List UInt64 → Bool → List UInt64
  | x :: xs, y :: ys, borrow =>
      let t := x - y
      let b := borrow.toUInt64
      (t - b) :: sub xs ys (x < y || t < b)
  | _, _, _ => []

/-- The words of twice the number, plus one if `c` is set, and the bit that leaves them. -/
def double : List UInt64 → Bool → List UInt64 × Bool
  | [], c => ([], c)
  | w :: ws, c =>
      let (rest, out) := double ws (w >>> 63 == 1)
      ((w <<< 1 ||| c.toUInt64) :: rest, out)

/-- The bits of one word, most significant bit first. -/
def wordBits (w : UInt64) : List Bool :=
  (List.range 64).reverse.map fun i => w.toNat.testBit i

/-- The bits of the number, most significant bit first. -/
def bits : List UInt64 → List Bool
  | [] => []
  | w :: ws => bits ws ++ wordBits w

@[simp] theorem value_nil : value [] = 0 := rfl

@[simp] theorem value_cons (w : UInt64) (ws : List UInt64) :
    value (w :: ws) = w.toNat + 2 ^ 64 * value ws := rfl

/-- A number of `n` words is less than the `n`-th power of the base. -/
theorem value_lt (ws : List UInt64) : value ws < 2 ^ (64 * ws.length) := by
  induction ws with
  | nil => decide
  | cons w ws ih =>
    have hw := w.toNat_lt
    rw [value_cons, List.length_cons, Nat.mul_succ, Nat.pow_add, Nat.mul_comm (2 ^ (64 * _))]
    have : 2 ^ 64 * (value ws + 1) ≤ 2 ^ 64 * 2 ^ (64 * ws.length) := Nat.mul_le_mul_left _ ih
    omega

@[simp] theorem length_ofNat (n x : Nat) : (ofNat n x).length = n := by
  induction n generalizing x with
  | zero => rfl
  | succ n ih => rw [ofNat, List.length_cons, ih]

theorem value_ofNat (n x : Nat) : value (ofNat n x) = x % 2 ^ (64 * n) := by
  induction n generalizing x with
  | zero => rw [ofNat, value_nil, Nat.mul_zero, Nat.pow_zero, Nat.mod_one]
  | succ n ih =>
    rw [ofNat, value_cons, ih, UInt64.toNat_ofNat', Nat.mul_succ, Nat.add_comm (64 * n),
      Nat.pow_add, Nat.mod_mul]

theorem value_append (xs ys : List UInt64) :
    value (xs ++ ys) = value xs + 2 ^ (64 * xs.length) * value ys := by
  induction xs with
  | nil => simp
  | cons x xs ih =>
    rw [List.cons_append, value_cons, ih, value_cons, List.length_cons, Nat.mul_succ,
      Nat.add_comm (64 * _), Nat.pow_add, Nat.mul_add, Nat.mul_assoc, Nat.add_assoc]

@[simp] theorem length_sub {xs ys : List UInt64} (h : xs.length = ys.length) (b : Bool) :
    (sub xs ys b).length = xs.length := by
  induction xs generalizing ys b with
  | nil => cases ys <;> rfl
  | cons x xs ih =>
    cases ys with
    | nil => exact absurd h (by simp)
    | cons y ys => rw [sub, List.length_cons, ih (Nat.succ.inj h), List.length_cons]

@[simp] theorem length_double (ws : List UInt64) (c : Bool) :
    (double ws c).1.length = ws.length := by
  induction ws generalizing c with
  | nil => rfl
  | cons w ws ih => rw [double, List.length_cons, ih, List.length_cons]

end LiquidityBand.Words
