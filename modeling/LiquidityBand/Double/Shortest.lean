import LiquidityBand.Double.Rounding

/-!
# Shortest decimals

The shortest decimal of a double has the fewest digits among those that read back as the same
double, and of these it is the nearest. It is sought on the grids of 1, 2, … digits: on each grid
the two neighbours of the double are tried, and the first grid on which one of them lies in the
interval that rounds to the double decides.

* `Interval.of` is that interval, its ends included if the significand is even;
* `Double.shortest` is the shortest decimal of a significand and its place.

All comparisons are of whole numbers: lengths are counted in quarters of `2 ^ -1074`.
-/

namespace LiquidityBand

/-- The number `coefficient * 10 ^ exponent`. -/
structure Decimal where
  coefficient : Nat
  exponent : Int
  deriving DecidableEq, Repr

/-- Which neighbour a number halfway between two takes. -/
inductive Tie where
  | even
  | up
  deriving DecidableEq, Repr

namespace Double

/-- The reals that round to a double, in quarters of `2 ^ -1074`. -/
structure Interval where
  low : Nat
  high : Nat
  closed : Bool
  deriving DecidableEq, Repr

/-- The quarters of `2 ^ -1074` in one. -/
def quartersInOne : Nat := 4 * unitsInOne

/-- The reals that round to `significand * 2 ^ place` units. Below the least significand of a
size the doubles lie twice as dense. -/
def Interval.of (significand place : Nat) : Interval where
  low := 4 * significand * 2 ^ place
    - (if significand = 2 ^ 52 ∧ place ≠ 0 then 2 ^ place else 2 * 2 ^ place)
  high := 4 * significand * 2 ^ place + 2 * 2 ^ place
  closed := significand % 2 == 0

/-- The factor of a number of quarters when it is compared on the grid of `10 ^ p`. -/
def quarterFactor (p : Int) : Nat := 10 ^ (-p).toNat

/-- The factor of a multiple of `10 ^ p` when it is compared with quarters. -/
def gridFactor (p : Int) : Nat := quartersInOne * 10 ^ p.toNat

/-- The number `a * 10 ^ p` rounds to the double. -/
def Interval.contains (i : Interval) (p : Int) (a : Nat) : Bool :=
  let point := a * gridFactor p
  let low := i.low * quarterFactor p
  let high := i.high * quarterFactor p
  if i.closed then low ≤ point && point ≤ high else low < point && point < high

/-- The exponent of the leading decimal digit of a positive number of quarters. -/
def leadingExponent (quarters : Nat) : Int :=
  ((Nat.toDigits 10 (quarters * 10 ^ 324 / quartersInOne)).length : Int) - 325

/-- The multiple of `10 ^ p` next to the double that rounds to it, if there is one. -/
def Interval.onGrid (i : Interval) (tie : Tie) (quarters : Nat) (p : Int) : Option Nat :=
  let num := quarters * quarterFactor p
  let den := gridFactor p
  let below := num / den
  match i.contains p below, i.contains p (below + 1) with
  | true, true =>
    let twice := 2 * (num % den)
    some (if twice = den then
        match tie with
        | .even => below + below % 2
        | .up => below + 1
      else if twice < den then below else below + 1)
  | true, false => some below
  | false, true => some (below + 1)
  | false, false => none

/-- A decimal without the zeros at its end, of which there are at most `n`. -/
def stripped : Nat → Decimal → Decimal
  | 0, d => d
  | n + 1, d =>
    if d.coefficient % 10 = 0 ∧ d.coefficient ≠ 0 then
      stripped n ⟨d.coefficient / 10, d.exponent + 1⟩
    else d

/-- The shortest decimal on the grids of `digits` digits or more, `left` of them; the leading
digit has the exponent `e`. -/
def Interval.search (i : Interval) (tie : Tie) (quarters : Nat) (e : Int) :
    Nat → Nat → Decimal
  | 0, _ => ⟨0, 0⟩
  | left + 1, digits =>
    let p := e + 1 - digits
    match i.onGrid tie quarters p with
    | some a => stripped digits ⟨a, p⟩
    | none => search i tie quarters e left (digits + 1)

/-- The most digits that a shortest decimal needs. -/
def maxDigits : Nat := 17

/-- The shortest decimal of `significand * 2 ^ place` units of `2 ^ -1074`. -/
def shortest (tie : Tie) (significand place : Nat) : Decimal :=
  if significand = 0 then ⟨0, 0⟩
  else
    let quarters := 4 * significand * 2 ^ place
    (Interval.of significand place).search tie quarters (leadingExponent quarters) maxDigits 1

end Double

end LiquidityBand
