import LiquidityBand.Register
import LiquidityBand.Wide.Words

/-!
# Numbers of 512 bits

The product of two 256-bit numbers needs 512 bits. A `Wide` number holds them as eight 64-bit
words, least significant word first; `Wide.toNat` is the number it stands for.

* `Wide.ofHalves h l` is `h * 2 ^ 256 + l`, and `Wide.ofUInt256` the number of its lower half;
* `Wide.toUInt256` gives the lower half back, or reports an overflow if the upper is not zero.
-/

namespace LiquidityBand

/-- Eight 64-bit words, least significant word first. -/
structure Wide where
  words : List UInt64
  length_words : words.length = 8
  deriving DecidableEq, Repr

namespace Wide

/-- The number that the words stand for. -/
def toNat (n : Wide) : Nat := Words.value n.words

/-- The number `x` modulo `2 ^ 512`. -/
def ofNat (x : Nat) : Wide := ⟨Words.ofNat 8 x, Words.length_ofNat 8 x⟩

/-- The number `h * 2 ^ 256 + l`. -/
def ofHalves (h l : UInt256) : Wide :=
  ⟨Words.ofNat 4 l.toNat ++ Words.ofNat 4 h.toNat, by simp⟩

/-- A 256-bit number as a wide one. -/
def ofUInt256 (x : UInt256) : Wide := ofHalves 0 x

/-- No bit is set. -/
def isZero (n : Wide) : Bool := n.words.all (· == 0)

/-- The number as a 256-bit one, if its upper four words are zero. -/
def toUInt256 (n : Wide) : Except Error UInt256 :=
  if (n.words.drop 4).all (· == 0) then .ok (BitVec.ofNat 256 (Words.value (n.words.take 4)))
  else .error .arithmeticOverflow

/-- A wide number is less than `2 ^ 512`. -/
theorem toNat_lt (n : Wide) : n.toNat < 2 ^ (64 * 8) :=
  n.length_words ▸ Words.value_lt n.words

theorem toNat_ofNat (x : Nat) : (ofNat x).toNat = x % 2 ^ (64 * 8) := Words.value_ofNat 8 x

/-- The two halves make up the number. -/
theorem toNat_ofHalves (h l : UInt256) :
    (ofHalves h l).toNat = h.toNat * 2 ^ 256 + l.toNat := by
  unfold toNat ofHalves
  rw [Words.value_append, Words.value_ofNat, Words.value_ofNat, Words.length_ofNat,
    Nat.mod_eq_of_lt l.isLt, Nat.mod_eq_of_lt h.isLt, Nat.mul_comm, Nat.add_comm]

theorem toNat_ofUInt256 (x : UInt256) : (ofUInt256 x).toNat = x.toNat := by
  simp [ofUInt256, toNat_ofHalves]

end Wide

end LiquidityBand
