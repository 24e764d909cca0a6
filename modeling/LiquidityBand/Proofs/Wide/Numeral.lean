import LiquidityBand.Proofs.Guarded.Numeral
import LiquidityBand.Proofs.Numeral

/-!
# The numeral of a wide number

Repeated division by ten takes the digits of a number off from the last one on. As each remainder
is a single digit and each quotient has one digit less, the digits that are written, read from the
first one on, are the decimal numeral of the number. A wide number has at most 155 digits, so the
field of 160 places always holds them.

* `Wide.digits_eq` says which digits are written in front of those that are there;
* `Numeral.IsNumeralOf` lists what makes a text the numeral of a number, and
  `Numeral.isNumeralOf_digits` says that its digits do;
* `Wide.numeral_isNumeralOf` says that every wide number has its numeral, and that the indices of
  the field are never left on the way.
-/

namespace LiquidityBand

namespace Numeral

/-- The text consists of digits, begins with a zero only if it is the numeral of zero, and stands
for the number. -/
structure IsNumeralOf (text : String) (n : ℕ) : Prop where
  isDigits : IsDigits text.toList
  eq_zero_iff : text = "0" ↔ n = 0
  head_ne : n ≠ 0 → text.toList.head? ≠ some '0'
  value_eq : value? text.toList = some n

/-- The numeral of zero is one zero. -/
theorem digits_eq_zero_iff {n : ℕ} : digits n = ['0'] ↔ n = 0 := by
  constructor
  · intro h
    rw [← ofDigitChars_digits n, h]
    rfl
  · rintro rfl
    rfl

/-- The digits in front of the last one are those of a tenth of the number. -/
theorem digits_eq_append (n : ℕ) :
    digits n = (if n / 10 = 0 then [] else digits (n / 10)) ++ [Nat.digitChar (n % 10)] := by
  split_ifs with hlast
  · have hdigit : n < 10 := by omega
    rw [digits, Nat.toDigits_of_lt_base hdigit, Nat.mod_eq_of_lt hdigit, List.nil_append]
  · exact Nat.toDigits_of_base_le (by decide) (by omega)

theorem isNumeralOf_digits (n : ℕ) : IsNumeralOf (String.ofList (digits n)) n := by
  have htext : (String.ofList (digits n)).toList = digits n := String.toList_ofList
  constructor
  case isDigits => exact htext.symm ▸ isDigits_digits n
  case eq_zero_iff => rw [← String.toList_inj, htext, ← digits_eq_zero_iff]; rfl
  case head_ne =>
    intro hn hzero
    rw [htext] at hzero
    exact hn (digits_eq_zero_iff.mp (digits_eq_of_head hzero))
  case value_eq => exact htext.symm ▸ value?_digits n

end Numeral

namespace Wide

open Guarded (digits_succ)

/-- Within the places that there are, the digits of a number are written in front. -/
theorem digits_eq {places : ℕ} {n : Wide} (hn : n.toNat < 10 ^ (places + 1))
    (written : List Char) :
    digits (places + 1) n written = .ok (Numeral.digits n.toNat ++ written) := by
  induction places generalizing n written with
  | zero =>
    rw [digits_succ, Numeral.digits_eq_append, if_pos (Nat.div_eq_of_lt hn),
      if_pos (Nat.div_eq_of_lt hn)]
    rfl
  | succ places ih =>
    rw [digits_succ, Numeral.digits_eq_append]
    split_ifs with hlast
    · rfl
    · have hquotient := toNat_ofNat_of_le (Nat.div_le_self n.toNat 10)
      have hfewer : (ofNat (n.toNat / 10)).toNat < 10 ^ (places + 1) := by
        rw [hquotient]
        exact Nat.div_lt_of_lt_mul (by rwa [Nat.mul_comm, ← Nat.pow_succ])
      rw [ih hfewer, hquotient, List.append_assoc, List.singleton_append]

theorem toNat_lt_ten_pow (n : Wide) : n.toNat < 10 ^ 155 := by
  calc n.toNat < 2 ^ (64 * 8) := n.toNat_lt
    _ = 2 ^ 256 * 2 ^ 256 := two_pow_eq_mul 256 256 rfl
    _ < 2 * 10 ^ 77 * (2 * 10 ^ 77) := Nat.mul_lt_mul'' (by decide) (by decide)
    _ < 10 ^ 155 := by decide

theorem numeral_eq (n : Wide) : n.numeral = .ok (String.ofList (Numeral.digits n.toNat)) := by
  have hfield : n.toNat < 10 ^ (159 + 1) := n.toNat_lt_ten_pow.trans (by decide)
  rw [numeral, show numeralPlaces = 159 + 1 from rfl, digits_eq hfield, List.append_nil]
  rfl

/-- Every wide number is written as its decimal numeral, of at most 155 digits. Written into a
field of bytes from the last one on, it comes out the same, and the index of the next byte never
falls below zero. -/
theorem numeral_isNumeralOf (n : Wide) :
    ∃ text, n.numeral = .ok text ∧ Guarded.numeral n.words = .ok text ∧
      Numeral.IsNumeralOf text n.toNat ∧ text.length ≤ 155 := by
  obtain ⟨text, hguarded, htext⟩ := Guarded.exists_numeral n
  obtain rfl := eq_of_eq_ok htext (numeral_eq n)
  refine ⟨_, htext, hguarded, Numeral.isNumeralOf_digits n.toNat, ?_⟩
  rw [String.length_ofList]
  exact (Nat.length_toDigits_le_iff (by decide) (by decide)).mpr n.toNat_lt_ten_pow

end Wide

end LiquidityBand
