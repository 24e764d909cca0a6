import LiquidityBand.Wide.Basic

/-!
# Shifts of wide numbers

A shift by `k` bits moves whole words first, `k / 64` of them, and then the `k % 64` bits that
remain, each word taking in the bits that leave its neighbour. A shift by 512 bits or more leaves
nothing.

* `Wide.shiftLeft n k` is `n * 2 ^ k` modulo `2 ^ 512`;
* `Wide.shiftRight n k` is `n / 2 ^ k`.
-/

namespace LiquidityBand

namespace Words

/-- Every word moved up by `s` bits, `0 < s < 64`; `below` is the word under the first. -/
def shiftLeftBits (s : UInt64) : UInt64 → List UInt64 → List UInt64
  | _, [] => []
  | below, w :: ws => (w <<< s ||| below >>> (64 - s)) :: shiftLeftBits s w ws

/-- Every word moved down by `s` bits, `0 < s < 64`. -/
def shiftRightBits (s : UInt64) : List UInt64 → List UInt64
  | [] => []
  | w :: ws => (w >>> s ||| ws.headD 0 <<< (64 - s)) :: shiftRightBits s ws

/-- Every word moved up by `q` places. -/
def shiftLeftWords (q : Nat) (ws : List UInt64) : List UInt64 :=
  (List.replicate q 0 ++ ws).take ws.length

/-- Every word moved down by `q` places. -/
def shiftRightWords (q : Nat) (ws : List UInt64) : List UInt64 :=
  (ws ++ List.replicate q 0).drop q

@[simp] theorem length_shiftLeftBits (s below : UInt64) (ws : List UInt64) :
    (shiftLeftBits s below ws).length = ws.length := by
  induction ws generalizing below with
  | nil => rfl
  | cons w ws ih => rw [shiftLeftBits, List.length_cons, ih, List.length_cons]

@[simp] theorem length_shiftRightBits (s : UInt64) (ws : List UInt64) :
    (shiftRightBits s ws).length = ws.length := by
  induction ws with
  | nil => rfl
  | cons w ws ih => rw [shiftRightBits, List.length_cons, ih, List.length_cons]

@[simp] theorem length_shiftLeftWords (q : Nat) (ws : List UInt64) :
    (shiftLeftWords q ws).length = ws.length := by
  simp [shiftLeftWords]

@[simp] theorem length_shiftRightWords (q : Nat) (ws : List UInt64) :
    (shiftRightWords q ws).length = ws.length := by
  simp [shiftRightWords]

/-- The words of the number times `2 ^ k`, as far as they go. -/
def shiftLeft (ws : List UInt64) (k : Nat) : List UInt64 :=
  let moved := shiftLeftWords (k / 64) ws
  if k % 64 = 0 then moved else shiftLeftBits (UInt64.ofNat (k % 64)) 0 moved

/-- The words of the number divided by `2 ^ k`. -/
def shiftRight (ws : List UInt64) (k : Nat) : List UInt64 :=
  let moved := shiftRightWords (k / 64) ws
  if k % 64 = 0 then moved else shiftRightBits (UInt64.ofNat (k % 64)) moved

@[simp] theorem length_shiftLeft (ws : List UInt64) (k : Nat) :
    (shiftLeft ws k).length = ws.length := by
  unfold shiftLeft
  split <;> simp

@[simp] theorem length_shiftRight (ws : List UInt64) (k : Nat) :
    (shiftRight ws k).length = ws.length := by
  unfold shiftRight
  split <;> simp

end Words

namespace Wide

/-- The number times `2 ^ k`, modulo `2 ^ 512`. -/
def shiftLeft (n : Wide) (k : Nat) : Wide :=
  if 512 ≤ k then ofNat 0
  else ⟨Words.shiftLeft n.words k, by rw [Words.length_shiftLeft, n.length_words]⟩

/-- The number divided by `2 ^ k`. -/
def shiftRight (n : Wide) (k : Nat) : Wide :=
  if 512 ≤ k then ofNat 0
  else ⟨Words.shiftRight n.words k, by rw [Words.length_shiftRight, n.length_words]⟩

end Wide

end LiquidityBand
