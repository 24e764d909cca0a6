import LiquidityBand.Proofs.Guarded.Division
import LiquidityBand.Wide.Numeral

/-!
# Numerals in a field of bytes

The numeral of a wide number, written into a field of 160 bytes from its last one on. A number of
512 bits has at most 155 digits, so the digits end before the field does, and the index of the next
one never falls below zero.

* `writeDigits` writes the digits and `numeral` reads the text off the field;
* `exists_writeDigits` says that the digits of a number below `10 ^ (i + 1)` end at or before the
  `i`-th byte, and that they are those of `Wide.digits`;
* `exists_numeral` says that every number has a text, and that it is `Wide.numeral`.
-/

namespace LiquidityBand.Guarded

open Words

/-- One digit at the `i`-th byte: the field and the number that is left. -/
def writeDigit (i : Nat) (field : List UInt8) (ws : List UInt64) :
    Except Error (List UInt8 × List UInt64) := do
  let r ← divideWords ws Wide.ten.words true
  let digit ← store 8 (← entry r.2 0).toNat
  let field ← setEntry field i (UInt8.ofNat (← store 8 (digit + 48)))
  return (field, r.1)

/-- The digits of a number, from the `i`-th byte down: the field and the byte they end at. -/
def writeDigits : Nat → List UInt8 → List UInt64 → Except Error (List UInt8 × Nat)
  | 0, field, ws => do
      let r ← writeDigit 0 field ws
      if (← wordCount r.2) = 0 then return (r.1, 0) else throw .fault
  | i + 1, field, ws => do
      let r ← writeDigit (i + 1) field ws
      if (← wordCount r.2) = 0 then return (r.1, i + 1) else writeDigits i r.1 r.2

/-- The character of a byte below 128. -/
def asciiChar (b : UInt8) : Except Error Char :=
  if b.toNat < 128 then .ok (Char.ofNat b.toNat) else .error .fault

/-- The decimal numeral of a number. -/
def numeral (ws : List UInt64) : Except Error String := do
  let last ← difference Wide.numeralPlaces 1
  let r ← writeDigits last (List.replicate Wide.numeralPlaces 0) ws
  return String.ofList (← (r.1.drop r.2).mapM asciiChar)

/-! ### Digits -/

/-- The characters of a row of digits. -/
def digitChars (bytes : List UInt8) : List Char := bytes.map fun b => Char.ofNat b.toNat

/-- What a division by ten gives. -/
theorem divide_ten (n : Wide) :
    n.divide Wide.ten true = .ok ⟨Wide.ofNat (n.toNat / 10), Wide.ofNat (n.toNat % 10)⟩ := by
  have hten : Wide.ten.toNat = 10 := by decide
  rw [Wide.divide_eq_ok (by rw [hten]; decide), hten]
  rfl

theorem digitChar_eq {d : ℕ} (h : d < 10) : Nat.digitChar d = Char.ofNat (d + 48) := by
  revert d
  decide

/-- The bytes of the digits written so far. -/
structure IsWritten (field : List UInt8) (i : ℕ) (written : List Char) : Prop where
  length_eq : field.length = 160
  ascii : ∀ b ∈ field.drop i, b.toNat < 128
  chars_eq : digitChars (field.drop i) = written

section
variable {field : List UInt8} {i : ℕ} {written : List Char}

theorem exists_writeDigit (n : Wide) (hi : i < 160) (h : IsWritten field (i + 1) written) :
    ∃ found, writeDigit i field n.words = .ok (found, (Wide.ofNat (n.toNat / 10)).words) ∧
      IsWritten found i (Nat.digitChar (n.toNat % 10) :: written) := by
  obtain ⟨hlen, hascii, hchars⟩ := h
  have hdigit : n.toNat % 10 < 10 := Nat.mod_lt _ (by decide)
  have hbyte : (UInt8.ofNat (n.toNat % 10 + 48)).toNat = n.toNat % 10 + 48 := by
    rw [UInt8.toNat_ofNat']
    omega
  have hword : entry (Wide.ofNat (n.toNat % 10)).words 0 = .ok (UInt64.ofNat (n.toNat % 10)) := rfl
  have hwordNat : (UInt64.ofNat (n.toNat % 10)).toNat = n.toNat % 10 := by
    rw [UInt64.toNat_ofNat']
    omega
  have hfield : i < field.length := hlen.symm ▸ hi
  have hdrop : (field.set i (UInt8.ofNat (n.toNat % 10 + 48))).drop i =
      UInt8.ofNat (n.toNat % 10 + 48) :: field.drop (i + 1) := by
    rw [List.drop_eq_getElem_cons (by rwa [List.length_set]), List.getElem_set_self,
      List.drop_set_of_lt (Nat.lt_succ_self i)]
  refine ⟨field.set i (UInt8.ofNat (n.toNat % 10 + 48)), ?_, by rw [List.length_set, hlen], ?_, ?_⟩
  · rw [writeDigit, divideWords_eq, divide_ten, ok_bind, pure_eq_ok, ok_bind]
    simp only [hword, ok_bind, hwordNat]
    rw [store_eq (by omega), ok_bind, store_eq (by omega), ok_bind, setEntry_eq hfield]
    rfl
  · rw [hdrop, List.forall_mem_cons, hbyte]
    exact ⟨by omega, hascii⟩
  · rw [hdrop, digitChars, List.map_cons, hbyte, ← digitChar_eq hdigit]
    exact congrArg _ hchars

theorem digits_succ (places : ℕ) (n : Wide) (written : List Char) :
    Wide.digits (places + 1) n written =
      if n.toNat / 10 = 0 then .ok (Nat.digitChar (n.toNat % 10) :: written)
      else Wide.digits places (Wide.ofNat (n.toNat / 10))
        (Nat.digitChar (n.toNat % 10) :: written) := by
  have hquotient := Wide.toNat_ofNat_of_le (Nat.div_le_self n.toNat 10)
  have hremainder := Wide.toNat_ofNat_of_le (Nat.mod_le n.toNat 10)
  have hzero := Wide.isZero_iff (Wide.ofNat (n.toNat / 10))
  rw [hquotient] at hzero
  rw [Wide.digits, divide_ten, ok_bind]
  simp only [hremainder, hzero, pure_eq_ok]

/-- The digits of a number below `10 ^ (i + 1)` need `i + 1` bytes at most. -/
theorem exists_writeDigits (n : Wide) (hn : n.toNat < 10 ^ (i + 1)) (hi : i < 160)
    (h : IsWritten field (i + 1) written) :
    ∃ found j all, writeDigits i field n.words = .ok (found, j) ∧ IsWritten found j all ∧
      Wide.digits (i + 1) n written = .ok all := by
  induction i generalizing n field written with
  | zero =>
    obtain ⟨found, hdigit, hwritten⟩ := exists_writeDigit n hi h
    have hlast : n.toNat / 10 = 0 := Nat.div_eq_of_lt (by omega)
    have hcount : wordCount (Wide.ofNat 0).words = .ok 0 := rfl
    refine ⟨found, 0, _, ?_, hwritten, by rw [digits_succ, if_pos hlast]⟩
    rw [writeDigits, hdigit, ok_bind, hlast]
    dsimp only
    rw [hcount]
    rfl
  | succ i ih =>
    obtain ⟨found, hdigit, hwritten⟩ := exists_writeDigit n hi h
    have hquotient := Wide.toNat_ofNat_of_le (Nat.div_le_self n.toNat 10)
    obtain ⟨m, hm, -, hcount⟩ := exists_wordCount (Wide.ofNat (n.toNat / 10)).words
    have hzero : m = 0 ↔ n.toNat / 10 = 0 :=
      (count_eq_zero_iff hcount).trans (Eq.congr hquotient rfl)
    rw [writeDigits, hdigit, ok_bind, digits_succ]
    dsimp only
    rw [hm, ok_bind]
    by_cases hlast : n.toNat / 10 = 0
    · rw [if_pos (hzero.mpr hlast), if_pos hlast]
      exact ⟨found, i + 1, _, rfl, hwritten, rfl⟩
    · rw [if_neg (mt hzero.mp hlast), if_neg hlast]
      refine ih _ ?_ (Nat.lt_of_succ_lt hi) hwritten
      rw [hquotient]
      exact Nat.div_lt_of_lt_mul (by rwa [Nat.mul_comm, ← Nat.pow_succ])

theorem mapM_asciiChar {bytes : List UInt8} (h : ∀ b ∈ bytes, b.toNat < 128) :
    bytes.mapM asciiChar = .ok (digitChars bytes) := by
  induction bytes with
  | nil => rfl
  | cons b bytes ih =>
    rw [List.forall_mem_cons] at h
    rw [List.mapM_cons, asciiChar, if_pos h.1, ok_bind, ih h.2]
    rfl

end

/-- No wide number has more than 160 digits, so each has a numeral. -/
theorem exists_numeral (n : Wide) : ∃ text, numeral n.words = .ok text ∧ n.numeral = .ok text := by
  have hn : n.toNat < 10 ^ (159 + 1) := by
    calc n.toNat < 2 ^ (64 * 8) := n.toNat_lt
      _ = (2 ^ 64) ^ 8 := Nat.pow_mul 2 64 8
      _ < (10 ^ 20) ^ 8 := Nat.pow_lt_pow_left (by decide) (by decide)
      _ = 10 ^ (159 + 1) := (Nat.pow_mul 10 20 8).symm
  have hstart : IsWritten (List.replicate 160 0) (159 + 1) [] :=
    ⟨List.length_replicate, by simp, by simp [digitChars]⟩
  obtain ⟨field, j, all, hfield, hwritten, hall⟩ := exists_writeDigits n hn (by decide) hstart
  have hlast : difference Wide.numeralPlaces 1 = .ok 159 := rfl
  refine ⟨String.ofList all, ?_, ?_⟩
  · rw [numeral, hlast, ok_bind]
    change (writeDigits 159 (List.replicate 160 0) n.words >>= _) = _
    rw [hfield, ok_bind]
    dsimp only
    rw [mapM_asciiChar hwritten.ascii, hwritten.chars_eq]
    rfl
  · rw [Wide.numeral]
    change String.ofList <$> Wide.digits (159 + 1) n [] = _
    rw [hall]
    rfl

end LiquidityBand.Guarded
