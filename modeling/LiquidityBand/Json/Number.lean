import LiquidityBand.Json.Text

/-!
# Numbers of a JSON text

A number is read in two steps: first its parts, by the grammar, and then its value. A number
without fraction and exponent that fits 64 bits is an integer; any other is a double, and so is
minus zero. Digits beyond 64 bits only count as places, so the double is near the number but need
not be the nearest one. A number beyond the largest double is refused.

* `Json.numberParts?` reads the parts, and `Json.NumberParts.value?` gives the value.
-/

namespace LiquidityBand.Json

/-- The parts of a number: digits before and behind the point, and the exponent. -/
structure NumberParts where
  negative : Bool
  integer : List Char
  fraction : Option (List Char)
  exponent : Option (Bool × List Char)
  deriving DecidableEq, Repr

/-- Digits at the head of a text, at least one, and what follows. -/
def someDigits? (cs : List Char) : Option (List Char × List Char) :=
  match cs.takeWhile Char.isDigit with
  | [] => none
  | ds => some (ds, cs.dropWhile Char.isDigit)

/-- The digits before the point: a leading zero stands alone. -/
def integerDigits? (cs : List Char) : Option (List Char × List Char) := do
  let (ds, rest) ← someDigits? cs
  if ds.head? = some '0' ∧ ds.length ≠ 1 then none else some (ds, rest)

/-- The digits behind the point, if there is one. -/
def fractionDigits? : List Char → Option (Option (List Char) × List Char)
  | '.' :: cs => (someDigits? cs).map fun (ds, rest) => (some ds, rest)
  | cs => some (none, cs)

/-- The sign of an exponent, and what follows. -/
def exponentSign : List Char → Bool × List Char
  | '+' :: cs => (false, cs)
  | '-' :: cs => (true, cs)
  | cs => (false, cs)

/-- The exponent, if there is one. -/
def exponentDigits? : List Char → Option (Option (Bool × List Char) × List Char)
  | [] => some (none, [])
  | c :: cs =>
    if c = 'e' ∨ c = 'E' then
      let (negative, cs) := exponentSign cs
      (someDigits? cs).map fun (ds, rest) => (some (negative, ds), rest)
    else some (none, c :: cs)

/-- The sign of a number, and what follows. -/
def numberSign : List Char → Bool × List Char
  | '-' :: cs => (true, cs)
  | cs => (false, cs)

/-- The parts of the number at the head of a text, and what follows. -/
def numberParts? (cs : List Char) : Option (NumberParts × List Char) := do
  let (negative, cs) := numberSign cs
  let (integer, cs) ← integerDigits? cs
  let (fraction, cs) ← fractionDigits? cs
  let (exponent, cs) ← exponentDigits? cs
  some (⟨negative, integer, fraction, exponent⟩, cs)

/-- The value of a number. -/
inductive NumberValue where
  | integer (value : Int)
  | double (value : Float)

/-- The significand that 64 bits can take from the digits, and how many digits they took. -/
def absorb : Nat → List Char → Nat × Nat
  | n, [] => (n, 0)
  | n, c :: cs =>
    let next := 10 * n + (c.toNat - '0'.toNat)
    if next < 2 ^ 64 then
      let (m, taken) := absorb next cs
      (m, taken + 1)
    else (n, 0)

/-- The greatest power of ten that a double holds. -/
def greatestPower : Nat := 308

/-- The double of `x * 10 ^ exponent`, scaled in at most `steps` steps down; none beyond the
largest double. -/
def scaledDouble? : Nat → Float → Int → Option Float
  | 0, x, _ => some x
  | steps + 1, x, exponent =>
    if exponent.natAbs ≤ greatestPower then
      if 0 ≤ exponent then
        let y := x * Double.tenTo exponent
        if y.isInf then none else some y
      else some (x / Double.tenTo exponent.natAbs)
    else if x == 0 then some x
    else if 0 ≤ exponent then none
    else scaledDouble? steps (x / Double.tenTo greatestPower) (exponent + greatestPower)

/-- The double with a sign. -/
def signedDouble (negative : Bool) (x : Float) : Float := if negative then -x else x

/-- The significand of the digits and the exponent that the places leave it. -/
def NumberParts.significand (p : NumberParts) : Nat × Int :=
  let (whole, taken) := absorb 0 p.integer
  let left : Int := p.integer.length - taken
  match p.fraction with
  | none => (whole, left)
  | some ds =>
    let (all, places) := absorb whole ds
    (all, left - places)

/-- A bound of 32 bits for an exponent. -/
def saturated (z : Int) : Int := max (-2 ^ 31) (min (2 ^ 31 - 1) z)

/-- The double that the parts stand for. -/
def NumberParts.double? (p : NumberParts) : Option Float :=
  let (significand, places) := p.significand
  match p.exponent with
  | none => (scaledDouble? 4 (Float.ofNat significand) places).map (signedDouble p.negative)
  | some (negative, ds) =>
    let exponent := Nat.ofDigitChars 10 ds 0
    if 2 ^ 31 ≤ exponent then
      if significand ≠ 0 ∧ !negative then none else some (signedDouble p.negative 0)
    else
      let exponent := saturated (places + if negative then -(exponent : Int) else exponent)
      (scaledDouble? 4 (Float.ofNat significand) exponent).map (signedDouble p.negative)

/-- The integer that the parts stand for, if it is one of 64 bits. -/
def NumberParts.integer? (p : NumberParts) : Option Int :=
  if p.fraction.isSome ∨ p.exponent.isSome then none
  else
    let n := Nat.ofDigitChars 10 p.integer 0
    if p.negative then if n = 0 ∨ 2 ^ 63 < n then none else some (-n)
    else if n < 2 ^ 64 then some n else none

/-- The value of the parts. -/
def NumberParts.value? (p : NumberParts) : Option NumberValue :=
  match p.integer? with
  | some z => some (.integer z)
  | none => p.double?.map .double

end LiquidityBand.Json
