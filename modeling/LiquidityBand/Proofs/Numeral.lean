import LiquidityBand.Numeral
import Mathlib.Data.Nat.Digits.Defs
import Mathlib.Tactic.Ring

/-!
# Digits and their values

A row of digits is determined by its length and its value, and its value is bounded by powers of ten
from both sides: above by the number of digits, below by the same unless it begins with a zero. So
the numeral of a number is the one row of digits for it that does not begin with a zero in vain, and
the field of some width is the one row that is filled with zeros up to the width and no further.

* `Numeral.IsDigits` says that there are only digits;
* `Numeral.ofDigitChars_injective` is the uniqueness for one length;
* `Numeral.paddedDigits_ofDigitChars` is the one for fields, and `Numeral.digits_eq_of_head` says
  when a numeral begins with a zero.
-/

namespace LiquidityBand.Numeral

/-- There are only decimal digits. -/
def IsDigits (cs : List Char) : Prop := ∀ c ∈ cs, c.isDigit

/-- The value of a digit. -/
def digitValue (c : Char) : ℕ := c.toNat - '0'.toNat

section
variable {c : Char} {cs ds : List Char} {n width : ℕ}

theorem isDigits_nil : IsDigits [] := fun _ hc => absurd hc List.not_mem_nil

theorem isDigits_cons : IsDigits (c :: cs) ↔ c.isDigit ∧ IsDigits cs := List.forall_mem_cons

theorem isDigits_append : IsDigits (cs ++ ds) ↔ IsDigits cs ∧ IsDigits ds :=
  List.forall_mem_append

theorem isDigits_digits (n : ℕ) : IsDigits (digits n) := fun _ hc =>
  Nat.isDigit_of_mem_toDigits (by decide) (by decide) hc

theorem digits_ne_nil (n : ℕ) : digits n ≠ [] := Nat.toDigits_ne_nil

/-- The bounds of a digit among the characters. -/
theorem toNat_of_isDigit (h : c.isDigit) : 48 ≤ c.toNat ∧ c.toNat ≤ 57 := by
  simpa [Char.isDigit, UInt32.le_iff_toNat_le] using h

theorem ne_of_isDigit {c' : Char} (h : c.isDigit) (h' : ¬c'.isDigit) : c ≠ c' := by
  rintro rfl
  exact h' h

theorem digitValue_lt (h : c.isDigit) : digitValue c < 10 := by
  have hc := toNat_of_isDigit h
  rw [digitValue, show '0'.toNat = 48 from rfl]
  omega

theorem digitValue_injective {c' : Char} (h : c.isDigit) (h' : c'.isDigit)
    (heq : digitValue c = digitValue c') : c = c' := by
  have hc := toNat_of_isDigit h
  have hc' := toNat_of_isDigit h'
  rw [digitValue, digitValue, show '0'.toNat = 48 from rfl] at heq
  apply Char.toNat_inj.mp
  omega

/-! ### The value of a row -/

/-- The first digit counts as many tens as there are digits behind it. -/
theorem ofDigitChars_cons_eq (c : Char) (cs : List Char) :
    Nat.ofDigitChars 10 (c :: cs) 0 =
      digitValue c * 10 ^ cs.length + Nat.ofDigitChars 10 cs 0 := by
  rw [Nat.ofDigitChars_cons, Nat.ofDigitChars_eq_ofDigitChars_zero, digitValue]
  ring

theorem ofDigitChars_append_eq (cs ds : List Char) :
    Nat.ofDigitChars 10 (cs ++ ds) 0 =
      Nat.ofDigitChars 10 cs 0 * 10 ^ ds.length + Nat.ofDigitChars 10 ds 0 := by
  rw [Nat.ofDigitChars_append, Nat.ofDigitChars_eq_ofDigitChars_zero]
  ring

theorem ofDigitChars_lt (h : IsDigits cs) : Nat.ofDigitChars 10 cs 0 < 10 ^ cs.length := by
  induction cs with
  | nil => simp
  | cons c cs ih =>
    obtain ⟨hc, hcs⟩ := isDigits_cons.mp h
    have hdigit := digitValue_lt hc
    rw [ofDigitChars_cons_eq, List.length_cons]
    calc digitValue c * 10 ^ cs.length + Nat.ofDigitChars 10 cs 0
        < digitValue c * 10 ^ cs.length + 10 ^ cs.length := Nat.add_lt_add_left (ih hcs) _
      _ = (digitValue c + 1) * 10 ^ cs.length := (Nat.succ_mul _ _).symm
      _ ≤ 10 * 10 ^ cs.length := Nat.mul_le_mul_right _ hdigit
      _ = 10 ^ (cs.length + 1) := by ring

theorem pow_le_ofDigitChars_cons (h : c.isDigit) (hne : c ≠ '0') (cs : List Char) :
    10 ^ cs.length ≤ Nat.ofDigitChars 10 (c :: cs) 0 := by
  have hpos : 0 < digitValue c := by
    refine Nat.pos_of_ne_zero fun hzero => hne ?_
    exact digitValue_injective h (by decide) hzero
  rw [ofDigitChars_cons_eq]
  exact (Nat.le_mul_of_pos_left _ hpos).trans (Nat.le_add_right _ _)

/-- A quotient and a remainder are determined by the number that they belong to. -/
theorem eq_of_mul_add_eq {a b m v w : ℕ} (hv : v < m) (hw : w < m)
    (h : a * m + v = b * m + w) : a = b ∧ v = w := by
  have hm : 0 < m := Nat.zero_lt_of_lt hv
  have hsum : v + m * a = w + m * b := by
    rw [Nat.add_comm, Nat.mul_comm, h, Nat.add_comm, Nat.mul_comm]
  obtain ⟨hb, hw'⟩ := (Nat.div_mod_unique hm).mpr ⟨rfl, hw⟩
  obtain ⟨ha, hv'⟩ := (Nat.div_mod_unique hm).mpr ⟨hsum, hv⟩
  exact ⟨ha.symm.trans hb, hv'.symm.trans hw'⟩

/-- Digits of one number in equal places are equal. -/
theorem ofDigitChars_injective (h : IsDigits cs) (h' : IsDigits ds) (hlen : cs.length = ds.length)
    (heq : Nat.ofDigitChars 10 cs 0 = Nat.ofDigitChars 10 ds 0) : cs = ds := by
  induction cs generalizing ds with
  | nil => exact (List.eq_nil_of_length_eq_zero hlen.symm).symm
  | cons c cs ih =>
    cases ds with
    | nil => simp at hlen
    | cons d ds =>
      obtain ⟨hc, hcs⟩ := isDigits_cons.mp h
      obtain ⟨hd, hds⟩ := isDigits_cons.mp h'
      rw [List.length_cons, List.length_cons, Nat.add_right_cancel_iff] at hlen
      rw [ofDigitChars_cons_eq, ofDigitChars_cons_eq, hlen] at heq
      have hlt := ofDigitChars_lt hcs
      rw [hlen] at hlt
      obtain ⟨hfirst, hrest⟩ := eq_of_mul_add_eq hlt (ofDigitChars_lt hds) heq
      rw [digitValue_injective hc hd hfirst, ih hcs hds hlen hrest]

/-! ### The numeral of a number -/

theorem ofDigitChars_digits (n : ℕ) : Nat.ofDigitChars 10 (digits n) 0 = n :=
  Nat.ofDigitChars_ten_toDigits

/-- A numeral begins with a digit. -/
theorem exists_digits_eq_cons (n : ℕ) : ∃ d ds, digits n = d :: ds ∧ d.isDigit := by
  obtain ⟨d, ds, hds⟩ := List.exists_cons_of_ne_nil (digits_ne_nil n)
  exact ⟨d, ds, hds, isDigits_digits n d (hds ▸ List.mem_cons_self)⟩

/-- A numeral begins with a zero only if it is zero. -/
theorem digits_eq_of_head (h : (digits n).head? = some '0') : digits n = ['0'] := by
  obtain ⟨c, cs, hds, -⟩ := exists_digits_eq_cons n
  have hdigits := isDigits_digits n
  have hvalue := ofDigitChars_digits n
  rw [hds, List.head?_cons, Option.some.injEq] at h
  subst h
  rw [hds] at hdigits hvalue
  cases cs with
  | nil => exact hds
  | cons d cs =>
    have hlt := ofDigitChars_lt (isDigits_cons.mp hdigits).2
    rw [ofDigitChars_cons_eq, show digitValue '0' = 0 from rfl, Nat.zero_mul, Nat.zero_add]
      at hvalue
    rw [hvalue] at hlt
    -- without the zero the digits would still be enough for the number
    have hlen := (Nat.length_toDigits_le_iff (by decide) (Nat.succ_pos cs.length)).mpr hlt
    rw [← digits, hds] at hlen
    simp at hlen

theorem isDigits_paddedDigits (width n : ℕ) : IsDigits (paddedDigits width n) := by
  refine isDigits_append.mpr ⟨?_, isDigits_digits n⟩
  intro c hc
  rw [List.eq_of_mem_replicate hc]
  rfl

theorem ofDigitChars_paddedDigits (width n : ℕ) :
    Nat.ofDigitChars 10 (paddedDigits width n) 0 = n := by
  rw [paddedDigits, List.leftpad, Nat.ofDigitChars_append, Nat.ofDigitChars_replicate_zero,
    Nat.mul_zero, ofDigitChars_digits]

theorem length_paddedDigits (width n : ℕ) :
    (paddedDigits width n).length = max width (digits n).length := List.length_leftpad

/-- A field begins with a zero only if it is no wider than asked for. -/
theorem length_paddedDigits_of_head (hpos : 0 < width)
    (h : (paddedDigits width n).head? = some '0') : (paddedDigits width n).length = width := by
  rw [length_paddedDigits]
  refine max_eq_left (Nat.not_lt.mp fun hlt => ?_)
  rw [paddedDigits, List.leftpad, Nat.sub_eq_zero_of_le hlt.le, List.replicate_zero,
    List.nil_append] at h
  rw [digits_eq_of_head h, List.length_singleton] at hlt
  omega

/-- Digits that fill a field, and begin with a zero only if they are no more than that, are the
field of their value. -/
theorem paddedDigits_ofDigitChars (h : IsDigits cs) (hpos : 0 < width) (hwidth : width ≤ cs.length)
    (hhead : cs.head? = some '0' → cs.length = width) :
    paddedDigits width (Nat.ofDigitChars 10 cs 0) = cs := by
  refine ofDigitChars_injective (isDigits_paddedDigits _ _) h ?_ (ofDigitChars_paddedDigits _ _)
  have hlt := ofDigitChars_lt h
  have hle := (Nat.length_toDigits_le_iff (by decide) (hpos.trans_le hwidth)).mpr hlt
  rw [length_paddedDigits]
  refine le_antisymm (max_le hwidth hle) ?_
  cases cs with
  | nil => exact Nat.zero_le _
  | cons c cs =>
    by_cases hc : c = '0'
    · exact (hhead (congrArg some hc)).le.trans (le_max_left _ _)
    · -- the value has as many digits as there are
      refine le_trans (Nat.not_lt.mp fun hshort => ?_) (le_max_right _ _)
      rw [List.length_cons, Nat.lt_succ_iff] at hshort
      have hcs : 0 < cs.length := lt_of_lt_of_le Nat.length_toDigits_pos hshort
      have hvalue := (Nat.length_toDigits_le_iff (by decide) hcs).mp hshort
      exact absurd (pow_le_ofDigitChars_cons (isDigits_cons.mp h).1 hc cs)
        (Nat.not_le.mpr hvalue)

/-! ### Reading digits -/

theorem value?_eq_some_iff :
    value? cs = some n ↔ IsDigits cs ∧ Nat.ofDigitChars 10 cs 0 = n := by
  rw [value?, Option.ite_none_right_eq_some, List.all_eq_true, Option.some.injEq]
  rfl

theorem value?_eq_none_iff : value? cs = none ↔ ¬IsDigits cs := by
  rw [← Option.not_isSome_iff_eq_none, Option.isSome_iff_exists]
  simp [value?_eq_some_iff]

end

end LiquidityBand.Numeral
