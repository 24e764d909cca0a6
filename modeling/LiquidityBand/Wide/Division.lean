import LiquidityBand.Wide.Basic

/-!
# Division of wide numbers

Long division in base two. The bits of the dividend are taken most significant first; each doubles
the remainder and comes in at its foot, the divisor is taken off if it fits, and whether it did is
the next bit of the quotient.

The remainder stays below the divisor. So if a bit leaves at the top as it is doubled, the divisor
fits, and the subtraction, which wraps around by as much, is exact.

* `Wide.divide` gives the quotient and the remainder, or reports a division by zero.
-/

namespace LiquidityBand

namespace Wide

/-- A quotient and its remainder. -/
structure Division where
  quotient : Wide
  remainder : Wide
  deriving DecidableEq, Repr

/-- The number doubled, with `bit` at its foot, and the bit that leaves at the top. -/
def pushBit (n : Wide) (bit : Bool) : Wide × Bool :=
  (⟨(Words.double n.words bit).1, by rw [Words.length_double, n.length_words]⟩,
    (Words.double n.words bit).2)

/-- The difference modulo `2 ^ 512`. -/
def sub (a b : Wide) : Wide :=
  ⟨Words.sub a.words b.words false, by
    rw [Words.length_sub (by rw [a.length_words, b.length_words]), a.length_words]⟩

/-- The first number is less than the second. -/
def less (a b : Wide) : Bool := Words.order a.words b.words == .lt

/-- One more bit of the dividend: the next bit of the quotient and the next remainder. -/
def Division.next (divisor : Wide) (d : Division) (bit : Bool) : Division :=
  let (remainder, carry) := d.remainder.pushBit bit
  if carry || !remainder.less divisor then
    ⟨(d.quotient.pushBit true).1, remainder.sub divisor⟩
  else
    ⟨(d.quotient.pushBit false).1, remainder⟩

/-- The bits of the number from its first set one on, most significant first. -/
def significantBits (n : Wide) : List Bool := (Words.bits n.words).dropWhile (!·)

/-- Quotient and remainder of two wide numbers; the remainder is zero if it is not asked for. -/
def divide (n divisor : Wide) (withRemainder : Bool) : Except Error Division :=
  if divisor.isZero then .error .divisionByZero
  else
    let d :=
      if n.less divisor then ⟨ofNat 0, n⟩
      else n.significantBits.foldl (Division.next divisor) ⟨ofNat 0, ofNat 0⟩
    .ok (if withRemainder then d else ⟨d.quotient, ofNat 0⟩)

end Wide

end LiquidityBand
