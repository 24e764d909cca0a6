import LiquidityBand.Wide.Division

/-!
# Decimal numerals of wide numbers

The decimal numeral of a wide number, by repeated division by ten: the remainders are its digits,
the last one first.

* `Wide.numeral` writes them into a field of 160 places, which is more than any wide number needs.
-/

namespace LiquidityBand.Wide

/-- The number ten. -/
def ten : Wide := ofNat 10

/-- The digits of `n`, written in front of `written`; a fault if there are more than `places`. -/
def digits : Nat → Wide → List Char → Except Error (List Char)
  | 0, _, _ => .error .fault
  | places + 1, n, written => do
      let d ← n.divide ten true
      let written := Nat.digitChar d.remainder.toNat :: written
      if d.quotient.isZero then pure written else digits places d.quotient written

/-- The places of the field that takes the digits. -/
def numeralPlaces : Nat := 160

/-- The decimal numeral of a wide number. -/
def numeral (n : Wide) : Except Error String := String.ofList <$> digits numeralPlaces n []

end LiquidityBand.Wide
