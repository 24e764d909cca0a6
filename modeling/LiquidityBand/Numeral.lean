/-!
# Decimal numerals

* `Numeral.digits` are the decimal digits of a number, and `Numeral.value?` the number that a list
  of digits stands for;
* `Numeral.fixedPoint` writes a number with some of its digits behind a point.
-/

namespace LiquidityBand.Numeral

/-- The decimal digits of a number, without superfluous zeros. -/
def digits (n : Nat) : List Char := Nat.toDigits 10 n

/-- The number that ASCII digits stand for; leading zeros count nothing. -/
def value? (cs : List Char) : Option Nat :=
  if cs.all Char.isDigit then some (Nat.ofDigitChars 10 cs 0) else none

/-- The digits in a field that is at least `width` wide, filled with zeros. -/
def paddedDigits (width n : Nat) : List Char := List.leftpad width '0' (digits n)

/-- Digits with a point in front of the last `places` of them; no point if there are none. -/
def pointed (places : Nat) (ds : List Char) : List Char :=
  if places = 0 then ds
  else ds.take (ds.length - places) ++ '.' :: ds.drop (ds.length - places)

/-- The number `n / 10 ^ places`, with all of its places. -/
def fixedPoint (places n : Nat) : List Char := pointed places (paddedDigits (places + 1) n)

/-- The digits of a number stand for it. -/
theorem value?_digits (n : Nat) : value? (digits n) = some n := by
  have h : (digits n).all Char.isDigit :=
    List.all_eq_true.mpr fun _ hc => Nat.isDigit_of_mem_toDigits (by decide) (by decide) hc
  rw [value?, if_pos h, digits, Nat.ofDigitChars_toDigits (by decide) (by decide)]

theorem fixedPoint_zero (n : Nat) : fixedPoint 0 n = paddedDigits 1 n := by
  rw [fixedPoint, pointed, if_pos rfl]

end LiquidityBand.Numeral
