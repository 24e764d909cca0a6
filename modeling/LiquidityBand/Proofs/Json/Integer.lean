import LiquidityBand.Json.Value
import LiquidityBand.Proofs.Numeral
import LiquidityBand.Proofs.Register
import Mathlib.Data.List.TakeWhile

/-!
# Integers that are written are read

Whatever follows an integer in a text, as long as it cannot belong to a number, the reader takes the
integer and stops there. A numeral begins with a zero only if it is zero, so the writer never
collides with the rule that a leading zero stands alone, and it never writes minus zero, which would
be a double. The reader of a bare number decides by 64 bits whether it is an integer; the one of a
quoted numeral checks its bound after every digit, which is enough because the value only grows.

* `Json.Ends` says that a text does not continue a number;
* `Json.numberParts?_integerText` and `Json.NumberParts.value?_integer` are the two steps of reading
  a bare number;
* `Json.numeralValue_digits` is the numeral between quotes;
* `Json.IntegerForm.text` is the text that is written, and `Json.IntegerForm.read_write` the round
  trip.
-/

namespace LiquidityBand.Json

open Numeral

/-- The text does not continue a number. -/
def Ends (rest : List Char) : Prop :=
  ∀ c ∈ rest.head?, ¬c.isDigit ∧ c ≠ '.' ∧ c ≠ 'e' ∧ c ≠ 'E'

section
variable {c : Char} {cs ds rest : List Char} {n m bits : ℕ} {z : ℤ}

theorem ends_cons : Ends (c :: rest) ↔ ¬c.isDigit ∧ c ≠ '.' ∧ c ≠ 'e' ∧ c ≠ 'E' := by
  simp [Ends]

/-! ### White space -/

theorem skipSpace_cons (h : ¬isSpace c) : skipSpace (c :: cs) = c :: cs := by
  rw [skipSpace, List.dropWhile_cons_of_neg h]

theorem not_isSpace_of_isDigit (h : c.isDigit) : ¬isSpace c := by
  rintro hspace
  simp only [isSpace, Bool.or_eq_true, beq_iff_eq] at hspace
  rcases hspace with ((rfl | rfl) | rfl) | rfl <;> exact absurd h (by decide)

/-! ### The parts of a number -/

theorem someDigits?_append (h : IsDigits ds) (hne : ds ≠ []) (hrest : Ends rest) :
    someDigits? (ds ++ rest) = some (ds, rest) := by
  have hstop : rest.takeWhile Char.isDigit = [] ∧ rest.dropWhile Char.isDigit = rest := by
    cases rest with
    | nil => exact ⟨rfl, rfl⟩
    | cons c rest =>
      have hc := (ends_cons.mp hrest).1
      exact ⟨List.takeWhile_cons_of_neg hc, List.dropWhile_cons_of_neg hc⟩
  rw [someDigits?, List.takeWhile_append_of_pos h, List.dropWhile_append_of_pos h, hstop.1, hstop.2,
    List.append_nil]
  cases ds with
  | nil => exact absurd rfl hne
  | cons d ds => rfl

theorem integerDigits?_digits (hrest : Ends rest) (n : ℕ) :
    integerDigits? (digits n ++ rest) = some (digits n, rest) := by
  rw [integerDigits?, someDigits?_append (isDigits_digits n) (digits_ne_nil n) hrest]
  refine if_neg ?_
  rintro ⟨hhead, hlen⟩
  rw [digits_eq_of_head hhead] at hlen
  exact hlen rfl

theorem fractionDigits?_of_ends (h : Ends rest) : fractionDigits? rest = some (none, rest) := by
  cases rest with
  | nil => rfl
  | cons c rest =>
    have hc := (ends_cons.mp h).2.1
    simp [fractionDigits?, hc]

theorem exponentDigits?_of_ends (h : Ends rest) : exponentDigits? rest = some (none, rest) := by
  cases rest with
  | nil => rfl
  | cons c rest =>
    obtain ⟨-, -, hlow, hhigh⟩ := ends_cons.mp h
    rw [exponentDigits?, if_neg (not_or.mpr ⟨hlow, hhigh⟩)]

/-- The parts of an integer. -/
def integerParts (z : ℤ) : NumberParts := ⟨decide (z < 0), digits z.natAbs, none, none⟩

theorem numberSign_digits (n : ℕ) (rest : List Char) :
    numberSign (digits n ++ rest) = (false, digits n ++ rest) := by
  obtain ⟨d, ds, hds, hd⟩ := exists_digits_eq_cons n
  have hminus : d ≠ '-' := ne_of_isDigit hd (by decide)
  simp [hds, numberSign, hminus]

theorem numberParts?_integerText (hrest : Ends rest) (z : ℤ) :
    numberParts? (integerText z ++ rest) = some (integerParts z, rest) := by
  rw [integerText, integerParts]
  split_ifs with hz
  · rw [numberParts?, List.cons_append, numberSign]
    simp [integerDigits?_digits hrest, fractionDigits?_of_ends hrest,
      exponentDigits?_of_ends hrest, hz]
  · rw [numberParts?, numberSign_digits]
    simp [integerDigits?_digits hrest, fractionDigits?_of_ends hrest,
      exponentDigits?_of_ends hrest, hz]

/-- An integer of 64 bits is read as one, and no minus zero is written. -/
theorem NumberParts.value?_integer (hlow : -2 ^ 63 ≤ z) (hhigh : z < 2 ^ 64) :
    (integerParts z).value? = some (.integer z) := by
  have hinteger : (integerParts z).integer? = some z := by
    rw [integerParts, integer?, if_neg (by simp)]
    dsimp only
    rw [ofDigitChars_digits]
    by_cases hz : z < 0
    · rw [if_pos (decide_eq_true hz), if_neg (by omega)]
      congr 1
      omega
    · rw [if_neg (by simpa using hz), if_pos (by omega)]
      congr 1
      omega
  rw [value?, hinteger]

/-! ### Bare numbers -/

/-- An integer begins with a digit or a minus sign. -/
theorem integerText_head (z : ℤ) :
    ∃ c cs, integerText z = c :: cs ∧ (c = '-' ∨ c.isDigit) := by
  rw [integerText]
  split_ifs
  · exact ⟨_, _, rfl, .inl rfl⟩
  · obtain ⟨d, ds, hds, hd⟩ := exists_digits_eq_cons z.natAbs
    exact ⟨d, ds, hds, .inr hd⟩

theorem skipSpace_integerText (z : ℤ) (rest : List Char) :
    skipSpace (integerText z ++ rest) = integerText z ++ rest := by
  obtain ⟨c, cs, htext, hc⟩ := integerText_head z
  have hspace : ¬isSpace c := by
    rcases hc with rfl | hdigit
    · decide
    · exact not_isSpace_of_isDigit hdigit
  rw [htext, List.cons_append, skipSpace_cons hspace]

theorem readNumber_integerText {low high : ℤ} (name : String) (hlow : -2 ^ 63 ≤ low)
    (hhigh : high < 2 ^ 64) (hz : low ≤ z ∧ z ≤ high) (hrest : Ends rest) :
    readNumber low high name (integerText z ++ rest) = .ok (z, rest) := by
  have hparts := numberParts?_integerText hrest z
  have hvalue := NumberParts.value?_integer (hlow.trans hz.1) (lt_of_le_of_lt hz.2 hhigh)
  obtain ⟨c, cs, htext, hc⟩ := integerText_head z
  rw [htext, List.cons_append] at hparts ⊢
  rw [readNumber, if_pos hc, hparts]
  dsimp only
  rw [hvalue]
  exact if_pos hz

theorem integerText_natCast (n : ℕ) : integerText n = digits n :=
  if_neg (Int.not_lt.mpr (Int.natCast_nonneg n))

theorem toList_toString (z : ℤ) : (toString z).toList = integerText z := by
  rw [Int.toString_eq_repr]
  cases z with
  | ofNat n =>
    rw [Int.ofNat_eq_natCast, integerText_natCast]
    exact Nat.toList_repr
  | negSucc n =>
    rw [integerText, if_pos (Int.negSucc_lt_zero n)]
    show ("-" ++ (n + 1).repr).toList = _
    rw [String.toList_append, Nat.toList_repr]
    rfl

theorem readNatural_digits (h : n < 2 ^ bits) (hrest : Ends rest) :
    readNatural bits (digits n ++ rest) = .ok ((n : ℤ), rest) := by
  rw [readNatural, integerDigits?_digits hrest]
  dsimp only
  rw [ofDigitChars_digits, if_pos h]

/-! ### Numerals between quotes -/

/-- The value of digits only grows from one to the next, so a bound on the last is one on all. -/
theorem numeralDigits_eq (h : IsDigits cs) (hlt : Nat.ofDigitChars 10 cs m < 2 ^ bits) :
    numeralDigits bits m cs = .ok (Nat.ofDigitChars 10 cs m) := by
  induction cs generalizing m with
  | nil => rfl
  | cons c cs ih =>
    obtain ⟨hc, hcs⟩ := isDigits_cons.mp h
    rw [Nat.ofDigitChars_cons] at hlt ⊢
    have hnext : 10 * m + (c.toNat - '0'.toNat) < 2 ^ bits := by
      refine lt_of_le_of_lt ?_ hlt
      rw [Nat.ofDigitChars_eq_ofDigitChars_zero]
      exact (Nat.le_mul_of_pos_left _ (Nat.pow_pos (by decide))).trans (Nat.le_add_right _ _)
    rw [numeralDigits, if_neg (by simp [hc])]
    dsimp only
    rw [if_pos hnext, ih hcs hlt]

theorem numeralValue_digits (h : n < 2 ^ bits) : numeralValue bits (digits n) = .ok n := by
  have heq := numeralDigits_eq (m := 0) (isDigits_digits n) (by rwa [ofDigitChars_digits])
  obtain ⟨d, ds, hds, hd⟩ := exists_digits_eq_cons n
  rw [ofDigitChars_digits, hds] at heq
  rw [hds]
  have hplus : d ≠ '+' := ne_of_isDigit hd (by decide)
  simp [numeralValue, hplus, heq]

theorem isPlain_of_isDigit (h : c.isDigit) : isPlain c := by
  have hc := toNat_of_isDigit h
  simp only [isPlain, Bool.and_eq_true, bne_iff_ne, decide_eq_true_iff]
  exact ⟨⟨ne_of_isDigit h (by decide), ne_of_isDigit h (by decide)⟩, by omega⟩

theorem readQuotedNatural_digits (h : n < 2 ^ bits) (rest : List Char) :
    readQuotedNatural bits (quoted (digits n) ++ rest) = .ok ((n : ℤ), rest) := by
  have hplain : ∀ c ∈ digits n, isPlain c := fun c hc => isPlain_of_isDigit (isDigits_digits n c hc)
  have hscan := scan_append_quote hplain rest
  rw [quoted, List.cons_append, List.cons_append, List.append_assoc, List.singleton_append,
    readQuotedNatural, hscan]
  dsimp only
  rw [numeralValue_digits h]

/-! ### All forms -/

/-- A text between quotes. -/
def inQuotes (text : String) : String := "\"" ++ text ++ "\""

theorem toList_inQuotes (text : String) : (inQuotes text).toList = quoted text.toList := by
  rw [inQuotes, String.toList_append, String.toList_append, quoted]
  rfl

/-- The numeral of an integer, between quotes where the form wants them. -/
def IntegerForm.text (form : IntegerForm) (z : ℤ) : String :=
  match form with
  | number _ _ _ => toString z
  | natural _ => toString z
  | quotedNatural _ => inQuotes (toString z)

theorem IntegerForm.toList_text (form : IntegerForm) (z : ℤ) :
    (form.text z).toList = form.write z := by
  cases form with
  | number low high name => exact toList_toString z
  | natural bits => exact toList_toString z
  | quotedNatural bits => rw [text, toList_inQuotes, toList_toString, write]

/-- The bounds of bare numbers are such that all of them are read as integers. -/
def IntegerForm.IsReadable : IntegerForm → Prop
  | number low high _ => -2 ^ 63 ≤ low ∧ high < 2 ^ 64
  | natural _ => True
  | quotedNatural _ => True

theorem IntegerForm.read_write {form : IntegerForm} (hform : form.IsReadable)
    (hz : form.allows z) (hrest : Ends rest) :
    form.read (form.write z ++ rest) = .ok (z, rest) := by
  cases form with
  | number low high name =>
    simp only [allows, Bool.and_eq_true, decide_eq_true_iff] at hz
    rw [read, write, skipSpace_integerText]
    exact readNumber_integerText name hform.1 hform.2 hz hrest
  | natural bits =>
    simp only [allows, Bool.and_eq_true, decide_eq_true_iff] at hz
    obtain ⟨n, rfl⟩ := Int.eq_ofNat_of_zero_le hz.1
    rw [read, write, skipSpace_integerText, integerText_natCast]
    exact readNatural_digits (by exact_mod_cast hz.2) hrest
  | quotedNatural bits =>
    simp only [allows, Bool.and_eq_true, decide_eq_true_iff] at hz
    obtain ⟨n, rfl⟩ := Int.eq_ofNat_of_zero_le hz.1
    rw [read, write, integerText_natCast, quoted, List.cons_append, List.cons_append,
      skipSpace_cons (by decide)]
    exact readQuotedNatural_digits (by exact_mod_cast hz.2) rest

end

end LiquidityBand.Json
