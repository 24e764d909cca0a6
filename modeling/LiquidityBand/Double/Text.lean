import LiquidityBand.Double.Shortest
import LiquidityBand.Numeral

/-!
# Decimal texts of doubles

Three ways to write a double.

* `Double.plainText` writes the shortest decimal, never with an exponent and without a point if
  it is whole;
* `Double.scientificText` writes the shortest decimal with at least one place behind the point,
  and with an exponent if it is very large or very small;
* `Double.fixedText` writes the exact value rounded to a number of places.
-/

namespace LiquidityBand

open Numeral

/-- A decimal without an exponent. -/
def Decimal.positional (d : Decimal) : List Char :=
  if d.exponent < 0 then fixedPoint d.exponent.natAbs d.coefficient
  else digits (d.coefficient * 10 ^ d.exponent.natAbs)

/-- The exponent of the leading digit. -/
def Decimal.leading (d : Decimal) : Int := d.exponent + (digits d.coefficient).length - 1

/-- A decimal with one digit in front of the point, and the exponent of that digit. -/
def Decimal.scientific (d : Decimal) : List Char :=
  let ds := digits d.coefficient
  let e := d.leading
  (if ds.length = 1 then ds else pointed (ds.length - 1) ds)
    ++ 'e' :: (if e < 0 then '-' else '+') :: digits e.natAbs

namespace Double

/-- A text behind its sign. -/
def signed (negative : Bool) (cs : List Char) : String :=
  String.ofList (if negative then '-' :: cs else cs)

/-- The text of a double, given that of the size of a finite one. -/
def textWith (finite : Nat → Nat → List Char) (x : Float) : String :=
  match read x with
  | .nan => "NaN"
  | .infinite negative => signed negative ['i', 'n', 'f']
  | .finite negative significand place => signed negative (finite significand place)

/-- The shortest decimal, never with an exponent. -/
def plainText : Float → String :=
  textWith fun significand place => (shortest .up significand place).positional

/-- The least and the greatest exponent of a leading digit that is written without it. -/
def positionalExponents : Int × Int := (-5, 15)

/-- The shortest decimal, with a point or an exponent. -/
def scientificText : Float → String :=
  textWith fun significand place =>
    let d := shortest .even significand place
    if positionalExponents.1 ≤ d.leading ∧ d.leading ≤ positionalExponents.2 then
      if d.exponent < 0 then d.positional else d.positional ++ ['.', '0']
    else d.scientific

/-- The exact value rounded to `places` places, a tie going to the even digit. -/
def fixedText (places : Nat) : Float → String :=
  textWith fun significand place =>
    fixedPoint places (nearest (significand * 2 ^ place * 10 ^ places) unitsInOne)

end Double

end LiquidityBand
