import LiquidityBand.Register

/-!
# Exact values of doubles

Every finite double is a whole multiple of the least positive one, `2 ^ -1074`. Its fields say
which: a significand of 53 bits and a place, the number of bits by which it is moved up.

* `Double.ofFields` and the three field functions read the bits;
* `Double.units` is the absolute value, as a multiple of `2 ^ -1074`, and `Double.value?` the value
  as a rational number;
* `Double.floor?` is the greatest integer that is not above the value.
-/

namespace LiquidityBand.Double

/-- A double as its fields say. -/
inductive Reading where
  | nan
  | infinite (negative : Bool)
  | finite (negative : Bool) (significand place : Nat)
  deriving DecidableEq, Repr

/-- The sign bit. -/
def signField (x : Float) : Bool := x.toBits.toNat.testBit 63

/-- The eleven bits of the exponent. -/
def exponentField (x : Float) : Nat := x.toBits.toNat / 2 ^ 52 % 2 ^ 11

/-- The 52 bits of the fraction. -/
def fractionField (x : Float) : Nat := x.toBits.toNat % 2 ^ 52

/-- What the three fields of a double stand for. -/
def ofFields (negative : Bool) (exponent fraction : Nat) : Reading :=
  if exponent = 2 ^ 11 - 1 then
    if fraction = 0 then .infinite negative else .nan
  else if exponent = 0 then .finite negative fraction 0
  else .finite negative (2 ^ 52 + fraction) (exponent - 1)

/-- What a double stands for. -/
def read (x : Float) : Reading := ofFields (signField x) (exponentField x) (fractionField x)

/-- The number of units of `2 ^ -1074` in one. -/
def unitsInOne : Nat := 2 ^ 1074

/-- The absolute value in units of `2 ^ -1074`, if the double is finite. -/
def Reading.units? : Reading → Option Nat
  | .finite _ significand place => some (significand * 2 ^ place)
  | _ => none

/-- The value in units of `2 ^ -1074`, if the double is finite. -/
def Reading.signedUnits? : Reading → Option Int
  | .finite negative significand place =>
      let units : Int := significand * 2 ^ place
      some (if negative then -units else units)
  | _ => none

/-- The value of a finite double in units of `2 ^ -1074`. -/
def signedUnits? (x : Float) : Option Int := (read x).signedUnits?

/-- The exact value of a finite double. -/
def value? (x : Float) : Option Rat := (signedUnits? x).map fun n => mkRat n unitsInOne

/-- The greatest integer not above a finite double. -/
def floor? (x : Float) : Option Int := (signedUnits? x).map fun n => n / unitsInOne

/-- The greatest integer not above a double that is finite and not negative, in 256 bits. -/
def toUInt256 (x : Float) : Except Error UInt256 :=
  match signedUnits? x with
  | none => .error .unusablePrice
  | some n =>
    if n < 0 then .error .unusablePrice
    else fit 256 .arithmeticOverflow (n / unitsInOne).toNat

/-- The double nearest to the upper half, times `2 ^ 128`, plus the one nearest to the lower. -/
def ofUInt256 (x : UInt256) : Float :=
  Float.ofNat (x.toNat / 2 ^ 128) * Float.ofNat (2 ^ 128) + Float.ofNat (x.toNat % 2 ^ 128)

end LiquidityBand.Double
