import LiquidityBand.Proofs.Guarded.Words

/-!
# Shifts by index

A shift moves all words by one place as long as 64 bits or more are left to go, and then every word
by the bits that remain. The words are replaced in their place. A shift up works from the most
significant word down, and a shift down the other way, so that each word takes in the bits of a
neighbour that has not moved yet: the list of words is that of the moved ones on one side of the
index, and that of the old ones on the other.

* `moveWordsUp`, `moveWordsDown`, `moveBitsUp` and `moveBitsDown` are the loops over the words;
* `getElem?_shiftLeftBits_succ` and `getElem?_shiftRightBits` say which two words a moved word is
  made of, and `moveBitsUp_eq` and `moveBitsDown_eq` that the loops find both of them;
* `shiftWordsUp` and `shiftWordsDown` are the shifts, `shiftWordsUp_eq` and `shiftWordsDown_eq`
  say that they give the words of the shifted number, and `shift_exact` which number that is.
-/

namespace LiquidityBand

namespace Words

section
variable {ws : List UInt64} {i : ℕ}

theorem getElem?_shiftLeftBits_zero (s below : UInt64) (h : 0 < ws.length) :
    (shiftLeftBits s below ws)[0]? = some (ws[0] <<< s ||| below >>> (64 - s)) := by
  cases ws with
  | nil => cases h
  | cons w ws => rfl

theorem getElem?_shiftLeftBits_succ (s below : UInt64) (h : i + 1 < ws.length) :
    (shiftLeftBits s below ws)[i + 1]? = some (ws[i + 1] <<< s ||| ws[i] >>> (64 - s)) := by
  induction ws generalizing below i with
  | nil => cases h
  | cons w ws ih =>
    have h : i < ws.length := Nat.lt_of_succ_lt_succ h
    rw [shiftLeftBits, List.getElem?_cons_succ]
    cases i with
    | zero => exact getElem?_shiftLeftBits_zero s w h
    | succ i => exact ih w h

theorem getElem?_shiftRightBits (s : UInt64) (h : i + 1 < ws.length) :
    (shiftRightBits s ws)[i]? = some (ws[i] >>> s ||| ws[i + 1] <<< (64 - s)) := by
  induction ws generalizing i with
  | nil => cases h
  | cons w ws ih =>
    have h : i < ws.length := Nat.lt_of_succ_lt_succ h
    cases i with
    | zero =>
      cases ws with
      | nil => cases h
      | cons v vs => rfl
    | succ i => exact ih h

theorem getElem?_shiftRightBits_last (s : UInt64) (h : i < ws.length)
    (hlast : ws.length ≤ i + 1) : (shiftRightBits s ws)[i]? = some (ws[i] >>> s) := by
  induction ws generalizing i with
  | nil => cases h
  | cons w ws ih =>
    cases i with
    | zero =>
      have hnil : ws.length ≤ 0 := Nat.le_of_succ_le_succ hlast
      obtain rfl := List.length_eq_zero_iff.mp (Nat.le_zero.mp hnil)
      simp [shiftRightBits]
    | succ i => exact ih (Nat.lt_of_succ_lt_succ h) (Nat.le_of_succ_le_succ hlast)

end

end Words

namespace Guarded

open Words

/-! ### One place -/

/-- Every word moved up by one place. -/
def moveWordsUp (ws : List UInt64) : Except Error (List UInt64) :=
  descending (fun i moved => do setEntry moved (i + 1) (← entry ws i)) 7 (List.replicate 8 0)

/-- Every word moved down by one place. -/
def moveWordsDown (ws : List UInt64) : Except Error (List UInt64) :=
  ascending (fun i moved => do setEntry moved i (← entry ws (i + 1))) 7 (List.replicate 8 0)

/-! ### Bits that remain -/

/-- Every word moved up by `s` bits. -/
def moveBitsUp (ws : List UInt64) (s : Nat) : Except Error (List UInt64) := do
  let moved ← descending (fun i ws => do
    let high ← wordUp (← entry ws (i + 1)) s
    let low ← wordDown (← entry ws i) (← difference 64 s)
    setEntry ws (i + 1) (high ||| low)) 7 ws
  setEntry moved 0 (← wordUp (← entry moved 0) s)

/-- Every word moved down by `s` bits. -/
def moveBitsDown (ws : List UInt64) (s : Nat) : Except Error (List UInt64) := do
  let moved ← ascending (fun i ws => do
    let low ← wordDown (← entry ws i) s
    let high ← wordUp (← entry ws (i + 1)) (← difference 64 s)
    setEntry ws i (low ||| high)) 7 ws
  setEntry moved 7 (← wordDown (← entry moved 7) s)

/-! ### Shifts -/

/-- A shift up by `k` bits, below 512. -/
def shiftLoopUp (ws : List UInt64) (k : Nat) : Except Error (List UInt64) :=
  if 64 ≤ k then do shiftLoopUp (← moveWordsUp ws) (k - 64)
  else if k = 0 then return ws
  else moveBitsUp ws k
  termination_by k

/-- A shift down by `k` bits, below 512. -/
def shiftLoopDown (ws : List UInt64) (k : Nat) : Except Error (List UInt64) :=
  if 64 ≤ k then do shiftLoopDown (← moveWordsDown ws) (k - 64)
  else if k = 0 then return ws
  else moveBitsDown ws k
  termination_by k

/-- The words moved up by `k` bits. -/
def shiftWordsUp (ws : List UInt64) (k : Nat) : Except Error (List UInt64) :=
  if 512 ≤ k then return List.replicate 8 0 else shiftLoopUp ws k

/-- The words moved down by `k` bits. -/
def shiftWordsDown (ws : List UInt64) (k : Nat) : Except Error (List UInt64) :=
  if 512 ≤ k then return List.replicate 8 0 else shiftLoopDown ws k

section
variable {ws : List UInt64} {k s : ℕ}

theorem exists_eight (h : ws.length = 8) :
    ∃ a b c d e f g i, ws = [a, b, c, d, e, f, g, i] := by
  match ws, h with
  | [a, b, c, d, e, f, g, i], _ => exact ⟨a, b, c, d, e, f, g, i, rfl⟩

theorem moveWordsUp_eq (h : ws.length = 8) : moveWordsUp ws = .ok (shiftLeftWords 1 ws) := by
  obtain ⟨a, b, c, d, e, f, g, i, rfl⟩ := exists_eight h
  rfl

theorem moveWordsDown_eq (h : ws.length = 8) : moveWordsDown ws = .ok (shiftRightWords 1 ws) := by
  obtain ⟨a, b, c, d, e, f, g, i, rfl⟩ := exists_eight h
  rfl

theorem moveBitsUp_eq (h : ws.length = 8) (h0 : 0 < s) (h64 : s < 64) :
    moveBitsUp ws s = .ok (shiftLeftBits (UInt64.ofNat s) 0 ws) := by
  obtain ⟨zs, hzs⟩ : ∃ zs, zs = shiftLeftBits (UInt64.ofNat s) 0 ws := ⟨_, rfl⟩
  have hlen : ws.length = zs.length := by rw [hzs, length_shiftLeftBits]
  have hsub : 64 - s < 64 := by omega
  rw [← hzs, moveBitsUp, bind_eq_ok_iff]
  refine ⟨spliced ws zs 1, ?_, ?_⟩
  · have hstart : spliced ws zs 8 = ws := spliced_of_length_le h.le (hlen.symm.trans h).le
    conv_lhs => rw [← hstart]
    refine descending_eq (fun i => spliced ws zs (i + 1)) fun i hi => ?_
    -- up to the word that is replaced, the words are still the old ones
    have hnew := getElem?_shiftLeftBits_succ (UInt64.ofNat s) 0 (show i + 1 < ws.length by omega)
    rw [entry_spliced_of_lt (by omega) (by omega), ok_bind, wordUp_eq h64, ok_bind,
      entry_spliced_of_lt (by omega) (by omega), ok_bind, difference_eq_ok h64.le, ok_bind,
      wordDown_eq hsub, ok_bind, UInt64.ofNat_sub h64.le]
    exact setEntry_spliced_succ hlen (hzs ▸ hnew)
  · have hnew := getElem?_shiftLeftBits_zero (UInt64.ofNat s) 0 (show 0 < ws.length by omega)
    rw [UInt64.zero_shiftRight, UInt64.or_zero, ← hzs] at hnew
    rw [entry_spliced_of_lt (by omega) (by omega), ok_bind, wordUp_eq h64, ok_bind,
      setEntry_spliced_succ hlen hnew, spliced_zero]

theorem moveBitsDown_eq (h : ws.length = 8) (h0 : 0 < s) (h64 : s < 64) :
    moveBitsDown ws s = .ok (shiftRightBits (UInt64.ofNat s) ws) := by
  obtain ⟨zs, hzs⟩ : ∃ zs, zs = shiftRightBits (UInt64.ofNat s) ws := ⟨_, rfl⟩
  have hlen : zs.length = ws.length := by rw [hzs, length_shiftRightBits]
  have hsub : 64 - s < 64 := by omega
  rw [← hzs, moveBitsDown, bind_eq_ok_iff]
  refine ⟨spliced zs ws 7, ?_, ?_⟩
  · conv_lhs => rw [← spliced_zero zs ws]
    refine ascending_eq (spliced zs ws) fun i hi => ?_
    -- from the word that is replaced on, the words are still the old ones
    have hnew := getElem?_shiftRightBits (UInt64.ofNat s) (show i + 1 < ws.length by omega)
    rw [entry_spliced_of_le hlen (by omega) le_rfl, ok_bind, wordDown_eq h64, ok_bind,
      entry_spliced_of_le hlen (by omega) (Nat.le_succ i), ok_bind, difference_eq_ok h64.le,
      ok_bind, wordUp_eq hsub, ok_bind, UInt64.ofNat_sub h64.le]
    exact setEntry_spliced hlen (hzs ▸ hnew)
  · have hnew := getElem?_shiftRightBits_last (UInt64.ofNat s) (show 7 < ws.length by omega) h.le
    rw [entry_spliced_of_le hlen (by omega) le_rfl, ok_bind, wordDown_eq h64, ok_bind,
      setEntry_spliced hlen (hzs ▸ hnew), spliced_of_length_le (hlen.trans h).le h.le]

/-- Moving whole words one by one, and then the bits that remain, moves all bits at once. -/
theorem exists_shiftLoopUp (h : ws.length = 8) (k : ℕ) :
    ∃ zs, shiftLoopUp ws k = .ok zs ∧ zs.length = 8 ∧
      value zs = value ws * 2 ^ k % 2 ^ (64 * 8) := by
  induction k using Nat.strongRecOn generalizing ws with
  | ind k ih =>
    rw [shiftLoopUp]
    split_ifs with h64 h0
    · obtain ⟨zs, hzs, hlen, hvalue⟩ :=
        ih (k - 64) (by omega) ((length_shiftLeftWords 1 ws).trans h)
      refine ⟨zs, by rw [moveWordsUp_eq h, ok_bind, hzs], hlen, ?_⟩
      rw [hvalue, value_shiftLeftWords, h, Nat.mod_mul_mod, Nat.mul_assoc, ← Nat.pow_add,
        Nat.mul_one, Nat.add_sub_cancel' h64]
    · subst h0
      have hlt := value_lt ws
      rw [h] at hlt
      exact ⟨ws, rfl, h, by rw [Nat.pow_zero, Nat.mul_one, Nat.mod_eq_of_lt hlt]⟩
    · have hk : (UInt64.ofNat k).toNat = k := toNat_ofNat_of_lt_64 (by omega)
      refine ⟨_, moveBitsUp_eq h (by omega) (by omega), by rw [length_shiftLeftBits, h], ?_⟩
      rw [value_shiftLeftBits (by omega) (by omega), hk, UInt64.toNat_zero, Nat.zero_div,
        Nat.add_zero, h]

theorem exists_shiftLoopDown (h : ws.length = 8) (k : ℕ) :
    ∃ zs, shiftLoopDown ws k = .ok zs ∧ zs.length = 8 ∧ value zs = value ws / 2 ^ k := by
  induction k using Nat.strongRecOn generalizing ws with
  | ind k ih =>
    rw [shiftLoopDown]
    split_ifs with h64 h0
    · obtain ⟨zs, hzs, hlen, hvalue⟩ :=
        ih (k - 64) (by omega) ((length_shiftRightWords 1 ws).trans h)
      refine ⟨zs, by rw [moveWordsDown_eq h, ok_bind, hzs], hlen, ?_⟩
      rw [hvalue, value_shiftRightWords, Nat.div_div_eq_div_mul, ← Nat.pow_add, Nat.mul_one,
        Nat.add_sub_cancel' h64]
    · subst h0
      exact ⟨ws, rfl, h, by rw [Nat.pow_zero, Nat.div_one]⟩
    · have hk : (UInt64.ofNat k).toNat = k := toNat_ofNat_of_lt_64 (by omega)
      refine ⟨_, moveBitsDown_eq h (by omega) (by omega), by rw [length_shiftRightBits, h], ?_⟩
      rw [value_shiftRightBits (by omega) (by omega), hk]

end

section
variable (n : Wide) (k : ℕ)

theorem shiftWordsUp_eq : shiftWordsUp n.words k = .ok (n.shiftLeft k).words := by
  rw [shiftWordsUp]
  split_ifs with h
  · rw [Wide.shiftLeft, if_pos h]
    rfl
  · obtain ⟨zs, hzs, hlen, hvalue⟩ := exists_shiftLoopUp n.length_words k
    rw [hzs, eq_words hlen (hvalue.trans (Wide.toNat_shiftLeft n k).symm)]

theorem shiftWordsDown_eq : shiftWordsDown n.words k = .ok (n.shiftRight k).words := by
  rw [shiftWordsDown]
  split_ifs with h
  · rw [Wide.shiftRight, if_pos h]
    rfl
  · obtain ⟨zs, hzs, hlen, hvalue⟩ := exists_shiftLoopDown n.length_words k
    rw [hzs, eq_words hlen (hvalue.trans (Wide.toNat_shiftRight n k).symm)]

/-- By any number of bits, the loops of a shift up multiply by a power of two, modulo `2 ^ 512`, and
those of a shift down divide by it. By 512 bits or more nothing is left. -/
theorem shift_exact :
    (shiftWordsUp n.words k = .ok (n.shiftLeft k).words ∧
      (n.shiftLeft k).toNat = n.toNat * 2 ^ k % 2 ^ 512) ∧
    (shiftWordsDown n.words k = .ok (n.shiftRight k).words ∧
      (n.shiftRight k).toNat = n.toNat / 2 ^ k) ∧
    (n.shiftLeft (512 + k)).toNat = 0 ∧ (n.shiftRight (512 + k)).toNat = 0 := by
  have hvalue := Wide.toNat_shiftLeft n k
  rw [show 64 * 8 = 512 from rfl] at hvalue
  have hup : n.shiftLeft (512 + k) = .ofNat 0 := if_pos (Nat.le_add_right 512 k)
  have hdown : n.shiftRight (512 + k) = .ofNat 0 := if_pos (Nat.le_add_right 512 k)
  refine ⟨⟨shiftWordsUp_eq n k, hvalue⟩, ⟨shiftWordsDown_eq n k, Wide.toNat_shiftRight n k⟩, ?_, ?_⟩
  · rw [hup]
    rfl
  · rw [hdown]
    rfl

end

end Guarded

end LiquidityBand
