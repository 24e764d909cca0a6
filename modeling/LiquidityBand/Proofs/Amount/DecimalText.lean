import LiquidityBand.Proofs.Numeral
import Mathlib.Algebra.Order.Field.Rat
import Mathlib.Tactic.FieldSimp
import Mathlib.Tactic.Positivity

/-!
# Decimal texts

A decimal is a row of digits, and behind a point a second row, if there is one. It denotes a
rational number. Among the decimals of one number, and with so many places behind the point, one has
no superfluous zero in front: the one that a number is written as in fixed-point notation.

* `DecimalText` is the grammar, `DecimalText.chars` the text itself and `DecimalText.value` the
  number that it denotes;
* `DecimalText.value_mul_pow` counts the number in units of some place;
* `DecimalText.fixedPoint` is the canonical decimal of a number of units, and
  `DecimalText.IsCanonical.chars_eq` says that there is no other.
-/

namespace LiquidityBand

open Numeral

/-- A decimal: digits, and digits behind a point if there are any. -/
@[ext] structure DecimalText where
  integer : List Char
  fraction : List Char
  integer_ne_nil : integer ≠ []
  isDigits_integer : IsDigits integer
  isDigits_fraction : IsDigits fraction

namespace DecimalText

/-- The text of a decimal. -/
def chars (d : DecimalText) : List Char :=
  if d.fraction = [] then d.integer else d.integer ++ '.' :: d.fraction

/-- The number that a decimal denotes. -/
def value (d : DecimalText) : ℚ :=
  Nat.ofDigitChars 10 d.integer 0 + Nat.ofDigitChars 10 d.fraction 0 / 10 ^ d.fraction.length

/-- There are just so many places behind the point, and no superfluous zero in front. -/
structure IsCanonical (d : DecimalText) (places : ℕ) : Prop where
  length_fraction : d.fraction.length = places
  integer_of_head : d.integer.head? = some '0' → d.integer = ['0']

/-- The number of units of the last place. -/
def units (d : DecimalText) : ℕ := Nat.ofDigitChars 10 (d.integer ++ d.fraction) 0

section
variable {d : DecimalText} {places n : ℕ}

theorem value_eq (d : DecimalText) : d.value = d.units / 10 ^ d.fraction.length := by
  rw [value, units, ofDigitChars_append_eq]
  push_cast
  field_simp

/-- A finer unit than that of the last place is counted by a power of ten for each. -/
theorem value_mul_pow (h : d.fraction.length ≤ places) :
    d.value * 10 ^ places = (d.units * 10 ^ (places - d.fraction.length) : ℕ) := by
  obtain ⟨more, rfl⟩ := Nat.exists_eq_add_of_le h
  rw [value_eq, Nat.add_sub_cancel_left, pow_add]
  push_cast
  field_simp

/-- The digits before and behind the point count apart. -/
theorem units_mul_pow (h : d.fraction.length ≤ places) :
    d.units * 10 ^ (places - d.fraction.length) = Nat.ofDigitChars 10 d.integer 0 * 10 ^ places +
      Nat.ofDigitChars 10 d.fraction 0 * 10 ^ (places - d.fraction.length) := by
  rw [units, ofDigitChars_append_eq, Nat.add_mul, Nat.mul_assoc, ← Nat.pow_add,
    Nat.add_sub_cancel' h]

theorem value_mul_pow_eq_iff (h : d.fraction.length ≤ places) : d.value * 10 ^ places = n ↔
    n = Nat.ofDigitChars 10 d.integer 0 * 10 ^ places +
      Nat.ofDigitChars 10 d.fraction 0 * 10 ^ (places - d.fraction.length) := by
  rw [value_mul_pow h, Nat.cast_inj, units_mul_pow h]
  exact eq_comm

theorem length_pos (d : DecimalText) : 0 < d.integer.length :=
  List.length_pos_iff.mpr d.integer_ne_nil

theorem chars_eq_pointed (d : DecimalText) :
    d.chars = pointed d.fraction.length (d.integer ++ d.fraction) := by
  rw [chars, pointed, List.length_append, Nat.add_sub_cancel, List.take_left' rfl,
    List.drop_left' rfl]
  by_cases h : d.fraction = []
  · rw [if_pos h, if_pos (by rw [h, List.length_nil]), h, List.append_nil]
  · rw [if_neg h, if_neg (mt List.length_eq_zero_iff.mp h)]

/-! ### The canonical decimal -/

/-- The decimal of a number of units of the last of so many places. -/
def fixedPoint (places n : ℕ) : DecimalText where
  integer := (paddedDigits (places + 1) n).take ((paddedDigits (places + 1) n).length - places)
  fraction := (paddedDigits (places + 1) n).drop ((paddedDigits (places + 1) n).length - places)
  integer_ne_nil := by
    have hlen := length_paddedDigits (places + 1) n
    intro h
    have := congrArg List.length h
    simp at this
    omega
  isDigits_integer := fun c hc => isDigits_paddedDigits _ _ c (List.mem_of_mem_take hc)
  isDigits_fraction := fun c hc => isDigits_paddedDigits _ _ c (List.mem_of_mem_drop hc)

theorem integer_append_fraction_fixedPoint (places n : ℕ) :
    (fixedPoint places n).integer ++ (fixedPoint places n).fraction =
      paddedDigits (places + 1) n := List.take_append_drop _ _

theorem units_fixedPoint (places n : ℕ) : (fixedPoint places n).units = n := by
  rw [units, integer_append_fraction_fixedPoint, ofDigitChars_paddedDigits]

theorem length_fraction_fixedPoint (places n : ℕ) :
    (fixedPoint places n).fraction.length = places := by
  have hlen := length_paddedDigits (places + 1) n
  rw [fixedPoint, List.length_drop]
  omega

theorem isCanonical_fixedPoint (places n : ℕ) : (fixedPoint places n).IsCanonical places := by
  refine ⟨length_fraction_fixedPoint places n, fun hhead => ?_⟩
  -- a field that begins with a zero has just one digit before the point
  have hfield : (paddedDigits (places + 1) n).head? = some '0' := by
    rw [← integer_append_fraction_fixedPoint, List.head?_append, hhead]
    rfl
  have hlen := length_paddedDigits_of_head (Nat.succ_pos places) hfield
  have hone : (fixedPoint places n).integer.length = 1 := by
    rw [fixedPoint, List.length_take, hlen]
    omega
  obtain ⟨c, hc⟩ := List.length_eq_one_iff.mp hone
  rw [hc, List.head?_cons, Option.some.injEq] at hhead
  rw [hc, hhead]

theorem chars_fixedPoint (places n : ℕ) :
    (fixedPoint places n).chars = Numeral.fixedPoint places n := by
  rw [chars_eq_pointed, length_fraction_fixedPoint, integer_append_fraction_fixedPoint]
  rfl

/-- There is one canonical decimal of a number of units. -/
theorem IsCanonical.chars_eq (h : d.IsCanonical places) :
    d.chars = Numeral.fixedPoint places d.units := by
  have hdigits : IsDigits (d.integer ++ d.fraction) :=
    isDigits_append.mpr ⟨d.isDigits_integer, d.isDigits_fraction⟩
  have hlen : (d.integer ++ d.fraction).length = d.integer.length + places := by
    rw [List.length_append, h.length_fraction]
  have hpos := d.length_pos
  rw [chars_eq_pointed, h.length_fraction, Numeral.fixedPoint, units,
    paddedDigits_ofDigitChars hdigits (Nat.succ_pos places) (by omega) ?_]
  intro hhead
  rw [List.head?_append_of_ne_nil _ d.integer_ne_nil] at hhead
  rw [hlen, h.integer_of_head hhead, List.length_singleton, Nat.add_comm]

end

end DecimalText

end LiquidityBand
