import LiquidityBand.Amount.Text
import LiquidityBand.Proofs.Amount.DecimalText
import LiquidityBand.Proofs.Amount.Rescale
import Mathlib.Data.List.TakeWhile

/-!
# Texts of token amounts are decimals

A text is read as an amount exactly if it is a decimal with no more places than the token has, and
the number that it denotes, counted in the least units of the token, fits an amount. The parts of a
text are read apart, the digits before the point first, and only what belongs to the whole amount
can be too large: with at most 38 decimals the part behind the point is below one token, so that
neither the power of ten nor the product that it is counted by leaves its register.

An amount is written as the canonical decimal of all of its places, and no other text of that form
is read as the amount.

* `Amount.ofFraction_eq_ok_iff` and `Amount.ofFraction_ne_fault` are the part behind the point;
* `Amount.ofChars_eq_ok_iff` and `Amount.ofChars_ne_fault` are the whole text;
* `Amount.parse_eq_ok_iff_isTextOf` says which texts are read, and how the others are refused;
* `Amount.format_isCanonical` ties writing to reading.
-/

namespace LiquidityBand.Amount

open Numeral

section
variable {cs ds : List Char} {decimals : UInt8} {x : Amount}

/-! ### Digits -/

theorem ofDigits_eq_ok_iff :
    ofDigits cs = .ok x ↔ IsDigits cs ∧ x.toNat = Nat.ofDigitChars 10 cs 0 := by
  cases hvalue : value? cs with
  | none =>
    rw [ofDigits, hvalue]
    exact ⟨nofun, fun h => absurd h.1 (value?_eq_none_iff.mp hvalue)⟩
  | some n =>
    obtain ⟨hdigits, rfl⟩ := value?_eq_some_iff.mp hvalue
    rw [ofDigits, hvalue]
    dsimp only
    rw [fit_eq_ok_iff, and_iff_right hdigits]

/-- Digits that are counted in some unit: if the product fits, so does the number itself. -/
theorem ofDigits_fit_eq_ok_iff {e : AmountReason} {unit : ℕ} (h : 0 < unit) :
    (ofDigits cs >>= fun n => fit 128 e (n.toNat * unit)) = .ok x ↔
      IsDigits cs ∧ x.toNat = Nat.ofDigitChars 10 cs 0 * unit := by
  simp only [bind_eq_ok_iff, ofDigits_eq_ok_iff, fit_eq_ok_iff]
  constructor
  · rintro ⟨n, ⟨hdigits, hn⟩, hx⟩
    exact ⟨hdigits, by rw [hx, hn]⟩
  · rintro ⟨hdigits, hx⟩
    have hlt : Nat.ofDigitChars 10 cs 0 < 2 ^ 128 :=
      lt_of_le_of_lt (Nat.le_mul_of_pos_right _ h) (hx ▸ x.isLt)
    exact ⟨BitVec.ofNat 128 _, ⟨hdigits, toNat_ofNat_of_lt hlt⟩, by rw [toNat_ofNat_of_lt hlt, hx]⟩

theorem ofDigits_ne_fault : ofDigits cs ≠ .error .fault := by
  unfold ofDigits
  split
  · simp
  · simp [fit_eq_error_iff]

/-- A digit takes one byte. -/
theorem byteLength_of_isDigits (h : IsDigits cs) : byteLength cs = cs.length := by
  induction cs with
  | nil => rfl
  | cons c cs ih =>
    obtain ⟨hc, hcs⟩ := isDigits_cons.mp h
    have hsize : c.utf8Size = 1 := by
      have hle := (toNat_of_isDigit hc).2
      rw [Char.utf8Size_eq_one_iff, UInt32.le_iff_toNat_le]
      exact hle.trans (by decide)
    rw [List.length_cons, ← ih hcs, Nat.add_comm, ← hsize]
    rfl

/-! ### The part behind the point -/

/-- Digits that do not exceed the places are counted without loss. -/
theorem openPlaces_eq {n : ℕ} (h : n ≤ decimals.toNat) :
    openPlaces decimals n = .ok (decimals.toNat - n) := by
  have hlt := decimals.toNat_lt
  rw [openPlaces, Nat.mod_eq_of_lt (lt_of_le_of_lt h hlt), if_pos h]

/-- The part behind the point is missing, or too long, or its digits decide. -/
theorem ofFraction_cases (h : decimals ≤ maxDecimals) (cs : List Char) :
    (cs = [] ∧ ofFraction cs decimals = .error .missingFraction) ∨
    (decimals.toNat < byteLength cs ∧ ofFraction cs decimals = .error .tooManyPlaces) ∨
    (cs ≠ [] ∧ byteLength cs ≤ decimals.toNat ∧ ofFraction cs decimals =
      ofDigits cs >>= fun n =>
        fit 128 .fault (n.toNat * 10 ^ (decimals.toNat - byteLength cs))) := by
  by_cases hnil : cs = []
  · subst hnil
    exact .inl ⟨rfl, rfl⟩
  have hempty : ¬cs.isEmpty := mt List.isEmpty_iff.mp hnil
  by_cases hlong : decimals.toNat < byteLength cs
  · refine .inr (.inl ⟨hlong, ?_⟩)
    rw [ofFraction, ofFractionBy, if_neg hempty, if_pos hlong]
    rfl
  · rw [Nat.not_lt] at hlong
    have hdecimals := UInt8.le_iff_toNat_le.mp h
    obtain ⟨units, hunits, hvalue⟩ :=
      unitsPerToken_eq_ok (n := decimals.toNat - byteLength cs) (by omega)
    refine .inr (.inr ⟨hnil, hlong, ?_⟩)
    rw [ofFraction, ofFractionBy, if_neg hempty, if_neg (Nat.not_lt.mpr hlong),
      openPlaces_eq hlong, ok_bind, hunits, ok_bind, hvalue]

/-- The part behind the point is less than one token. -/
theorem ofDigitChars_mul_pow_lt (h : decimals ≤ maxDecimals) (hdigits : IsDigits cs)
    (hlen : cs.length ≤ decimals.toNat) :
    Nat.ofDigitChars 10 cs 0 * 10 ^ (decimals.toNat - cs.length) < 2 ^ 128 :=
  calc Nat.ofDigitChars 10 cs 0 * 10 ^ (decimals.toNat - cs.length)
      < 10 ^ cs.length * 10 ^ (decimals.toNat - cs.length) :=
        Nat.mul_lt_mul_of_pos_right (ofDigitChars_lt hdigits) (by positivity)
    _ = 10 ^ decimals.toNat := by rw [← Nat.pow_add, Nat.add_sub_cancel' hlen]
    _ < 2 ^ 128 := (ten_pow_lt_iff _).mpr (UInt8.le_iff_toNat_le.mp h)

theorem ofFraction_eq_ok_iff (h : decimals ≤ maxDecimals) :
    ofFraction cs decimals = .ok x ↔ cs ≠ [] ∧ IsDigits cs ∧ cs.length ≤ decimals.toNat ∧
      x.toNat = Nat.ofDigitChars 10 cs 0 * 10 ^ (decimals.toNat - cs.length) := by
  rcases ofFraction_cases h cs with ⟨hnil, heq⟩ | ⟨hlong, heq⟩ | ⟨hne, hlen, heq⟩
  · rw [heq]
    exact ⟨nofun, fun hx => absurd hnil hx.1⟩
  · rw [heq]
    refine ⟨nofun, fun ⟨_, hdigits, hlen, _⟩ => ?_⟩
    rw [byteLength_of_isDigits hdigits] at hlong
    exact absurd hlen (Nat.not_le.mpr hlong)
  · rw [heq, ofDigits_fit_eq_ok_iff (by positivity)]
    constructor
    · rintro ⟨hdigits, hx⟩
      rw [byteLength_of_isDigits hdigits] at hlen hx
      exact ⟨hne, hdigits, hlen, hx⟩
    · rintro ⟨-, hdigits, -, hx⟩
      rw [byteLength_of_isDigits hdigits]
      exact ⟨hdigits, hx⟩

theorem ofFraction_ne_fault (h : decimals ≤ maxDecimals) :
    ofFraction cs decimals ≠ .error .fault := by
  rcases ofFraction_cases h cs with ⟨-, heq⟩ | ⟨-, heq⟩ | ⟨-, hlen, heq⟩
  · simp [heq]
  · simp [heq]
  · rw [heq, Ne, bind_eq_error_iff, not_or]
    refine ⟨ofDigits_ne_fault, ?_⟩
    rintro ⟨n, hn, hfault⟩
    obtain ⟨hdigits, hvalue⟩ := ofDigits_eq_ok_iff.mp hn
    rw [byteLength_of_isDigits hdigits] at hlen hfault
    rw [fit_eq_error_iff, hvalue] at hfault
    exact absurd (ofDigitChars_mul_pow_lt h hdigits hlen) (Nat.not_lt.mpr hfault.1)

/-! ### The parts of a text -/

theorem bne_point_of_not_mem (h : '.' ∉ cs) : ∀ c ∈ cs, c != '.' := by
  intro c hc
  exact bne_iff_ne.mpr fun heq => h (heq ▸ hc)

theorem splitAtPoint_of_not_mem (h : '.' ∉ cs) : splitAtPoint cs = (cs, none) := by
  have hall := bne_point_of_not_mem h
  rw [splitAtPoint, List.takeWhile_eq_self_iff.mpr hall, List.dropWhile_eq_nil_iff.mpr hall]

theorem splitAtPoint_append (h : '.' ∉ cs) (ds : List Char) :
    splitAtPoint (cs ++ '.' :: ds) = (cs, some ds) := by
  have hall := bne_point_of_not_mem h
  rw [splitAtPoint, List.takeWhile_append_of_pos hall, List.dropWhile_append_of_pos hall]
  simp

/-- A text has no point, or it is split at the first one. -/
theorem splitAtPoint_cases (cs : List Char) :
    splitAtPoint cs = (cs, none) ∨
      ∃ integer fraction, cs = integer ++ '.' :: fraction ∧
        splitAtPoint cs = (integer, some fraction) := by
  by_cases h : '.' ∈ cs
  · obtain ⟨integer, fraction, rfl, hnot⟩ := List.eq_append_cons_of_mem h
    exact .inr ⟨integer, fraction, rfl, splitAtPoint_append hnot fraction⟩
  · exact .inl (splitAtPoint_of_not_mem h)

theorem point_not_mem (h : IsDigits cs) : '.' ∉ cs := fun hmem =>
  ne_of_isDigit (h _ hmem) (by decide) rfl

theorem splitAtPoint_chars (d : DecimalText) : splitAtPoint d.chars =
    (d.integer, if d.fraction = [] then none else some d.fraction) := by
  have hpoint := point_not_mem d.isDigits_integer
  rw [DecimalText.chars]
  split_ifs
  · exact splitAtPoint_of_not_mem hpoint
  · exact splitAtPoint_append hpoint d.fraction

/-- A text is one decimal at most. -/
theorem chars_injective : Function.Injective DecimalText.chars := by
  intro d d' heq
  have hsplit := congrArg splitAtPoint heq
  rw [splitAtPoint_chars, splitAtPoint_chars, Prod.mk.injEq] at hsplit
  obtain ⟨hinteger, hfraction⟩ := hsplit
  refine DecimalText.ext hinteger ?_
  split_ifs at hfraction with h h' h'
  · rw [h, h']
  · exact Option.some.inj hfraction

/-- The amount of the digits before the point. -/
def ofInteger (cs : List Char) (decimals : UInt8) : Except AmountReason Amount :=
  ofDigits cs >>= fun n => fit 128 .tooLarge (n.toNat * 10 ^ decimals.toNat)

theorem ofInteger_eq_ok_iff : ofInteger cs decimals = .ok x ↔
    IsDigits cs ∧ x.toNat = Nat.ofDigitChars 10 cs 0 * 10 ^ decimals.toNat :=
  ofDigits_fit_eq_ok_iff (by positivity)

theorem ofInteger_ne_fault : ofInteger cs decimals ≠ .error .fault := by
  rw [ofInteger, Ne, bind_eq_error_iff, not_or]
  refine ⟨ofDigits_ne_fault, ?_⟩
  simp [fit_eq_error_iff]

/-- With too many decimals, or without an integer part, a text is refused. Otherwise the integer
part decides, and then the part behind the point if there is one. -/
theorem ofChars_cases (cs : List Char) (decimals : UInt8) :
    (maxDecimals < decimals ∧ ofChars cs decimals = .error .tooManyDecimals) ∨
    (decimals ≤ maxDecimals ∧ (splitAtPoint cs).1 = [] ∧
      ofChars cs decimals = .error .missingInteger) ∨
    (decimals ≤ maxDecimals ∧ cs ≠ [] ∧ splitAtPoint cs = (cs, none) ∧
      ofChars cs decimals = ofInteger cs decimals) ∨
    (decimals ≤ maxDecimals ∧ ∃ integer fraction, integer ≠ [] ∧
      cs = integer ++ '.' :: fraction ∧ splitAtPoint cs = (integer, some fraction) ∧
      ofChars cs decimals = ofInteger integer decimals >>= fun amount =>
        ofFraction fraction decimals >>= fun part =>
          fit 128 .tooLarge (amount.toNat + part.toNat)) := by
  by_cases hmany : maxDecimals < decimals
  · refine .inl ⟨hmany, ?_⟩
    rw [ofChars, ofCharsBy, if_pos hmany]
    rfl
  have hle : decimals ≤ maxDecimals := UInt8.not_lt.mp hmany
  by_cases hnil : (splitAtPoint cs).1 = []
  · refine .inr (.inl ⟨hle, hnil, ?_⟩)
    rw [ofChars, ofCharsBy, if_neg hmany]
    dsimp only
    rw [hnil]
    rfl
  obtain ⟨units, hunits, hvalue⟩ := unitsPerToken_eq_ok (UInt8.le_iff_toNat_le.mp hle)
  have hempty : ¬(splitAtPoint cs).1.isEmpty := mt List.isEmpty_iff.mp hnil
  have hinteger (ds : List Char) : ofInteger ds decimals =
      ofDigits ds >>= fun n => fit 128 .tooLarge (n.toNat * units.toNat) := by
    rw [ofInteger, hvalue]
  rcases splitAtPoint_cases cs with hsplit | ⟨integer, fraction, hcs, hsplit⟩
  · refine .inr (.inr (.inl ⟨hle, ?_, hsplit, ?_⟩))
    · rwa [hsplit] at hnil
    rw [ofChars, ofCharsBy, if_neg hmany, hinteger]
    dsimp only
    rw [if_neg hempty, hunits, ok_bind, hsplit]
    simp only [bind_pure]
  · refine .inr (.inr (.inr ⟨hle, integer, fraction, ?_, hcs, hsplit, ?_⟩))
    · rwa [hsplit] at hnil
    rw [ofChars, ofCharsBy, if_neg hmany, hinteger]
    dsimp only
    rw [if_neg hempty, hunits, ok_bind, hsplit]
    simp only [bind_assoc]

theorem ofChars_eq_ok_iff : ofChars cs decimals = .ok x ↔
    decimals ≤ maxDecimals ∧ ∃ d : DecimalText, cs = d.chars ∧
      d.fraction.length ≤ decimals.toNat ∧ d.value * 10 ^ decimals.toNat = x.toNat := by
  rcases ofChars_cases cs decimals with ⟨hmany, heq⟩ | ⟨hle, hnil, heq⟩ |
    ⟨hle, hne, hsplit, heq⟩ | ⟨hle, integer, fraction, hne, hcs, hsplit, heq⟩
  · rw [heq]
    exact ⟨nofun, fun h => absurd h.1 (UInt8.not_le.mpr hmany)⟩
  · rw [heq]
    refine ⟨nofun, fun ⟨_, d, hcs, _⟩ => ?_⟩
    rw [hcs, splitAtPoint_chars] at hnil
    exact absurd hnil d.integer_ne_nil
  · rw [heq, ofInteger_eq_ok_iff, and_iff_right hle]
    constructor
    · rintro ⟨hdigits, hx⟩
      refine ⟨⟨cs, [], hne, hdigits, isDigits_nil⟩, (if_pos rfl).symm, Nat.zero_le _, ?_⟩
      rw [DecimalText.value_mul_pow_eq_iff (Nat.zero_le _), hx]
      simp
    · rintro ⟨d, rfl, hlen, hvalue⟩
      rw [DecimalText.value_mul_pow_eq_iff hlen] at hvalue
      rw [splitAtPoint_chars, Prod.mk.injEq] at hsplit
      obtain ⟨hinteger, hfraction⟩ := hsplit
      have hnone : d.fraction = [] := by
        by_contra hsome
        simp [if_neg hsome] at hfraction
      rw [hnone, Nat.ofDigitChars_nil, Nat.zero_mul, Nat.add_zero] at hvalue
      rw [← hinteger]
      exact ⟨d.isDigits_integer, hvalue⟩
  · rw [heq, bind_eq_ok_iff, and_iff_right hle]
    simp only [bind_eq_ok_iff, ofInteger_eq_ok_iff, ofFraction_eq_ok_iff hle, fit_eq_ok_iff]
    constructor
    · rintro ⟨amount, ⟨hi, hamount⟩, part, ⟨hnil, hf, hlen, hpart⟩, hx⟩
      refine ⟨⟨integer, fraction, hne, hi, hf⟩, hcs.trans (if_neg hnil).symm, hlen, ?_⟩
      rw [DecimalText.value_mul_pow_eq_iff hlen, hx, hamount, hpart]
    · rintro ⟨d, rfl, hlen, hvalue⟩
      rw [DecimalText.value_mul_pow_eq_iff hlen] at hvalue
      rw [splitAtPoint_chars, Prod.mk.injEq] at hsplit
      obtain ⟨rfl, hfraction⟩ := hsplit
      split_ifs at hfraction with hnil
      obtain rfl := Option.some.inj hfraction
      have hamount : Nat.ofDigitChars 10 d.integer 0 * 10 ^ decimals.toNat < 2 ^ 128 :=
        lt_of_le_of_lt (Nat.le_add_right _ _) (hvalue ▸ x.isLt)
      have hpart := ofDigitChars_mul_pow_lt hle d.isDigits_fraction hlen
      refine ⟨_, ⟨d.isDigits_integer, toNat_ofNat_of_lt hamount⟩, _,
        ⟨hnil, d.isDigits_fraction, hlen, toNat_ofNat_of_lt hpart⟩, ?_⟩
      rw [toNat_ofNat_of_lt hamount, toNat_ofNat_of_lt hpart, hvalue]

theorem ofChars_ne_fault : ofChars cs decimals ≠ .error .fault := by
  rcases ofChars_cases cs decimals with ⟨-, heq⟩ | ⟨-, -, heq⟩ | ⟨-, -, -, heq⟩ |
    ⟨hle, integer, fraction, -, -, -, heq⟩
  · simp [heq]
  · simp [heq]
  · rw [heq]
    exact ofInteger_ne_fault
  · rw [heq, Ne, bind_eq_error_iff, not_or]
    refine ⟨ofInteger_ne_fault, ?_⟩
    rintro ⟨amount, -, hrest⟩
    rcases bind_eq_error_iff.mp hrest with hfault | ⟨part, -, hsum⟩
    · exact ofFraction_ne_fault hle hfault
    · exact absurd (fit_eq_error_iff.mp hsum).2 (by decide)

end

/-! ### Reading -/

/-- The text is a decimal with at most so many places, and the amount is the number that it denotes,
in least units. -/
def IsTextOf (text : String) (decimals : UInt8) (amount : Amount) : Prop :=
  decimals ≤ maxDecimals ∧ ∃ d : DecimalText, text.toList = d.chars ∧
    d.fraction.length ≤ decimals.toNat ∧ d.value * 10 ^ decimals.toNat = amount.toNat

theorem parse_eq_ok_iff {text : String} {decimals : UInt8} {amount : Amount} :
    parse text decimals = .ok amount ↔ IsTextOf text decimals amount := by
  rw [parse, mapError_eq_ok_iff, ofChars_eq_ok_iff]
  rfl

/-- The texts of an amount are read as the amount. Every other text is refused as it was written,
and no step of reading leaves its register. -/
theorem parse_eq_ok_iff_isTextOf (text : String) (decimals : UInt8) :
    (∀ amount, parse text decimals = .ok amount ↔ IsTextOf text decimals amount) ∧
    ((∃ amount, IsTextOf text decimals amount) ∨
      ∃ reason, parse text decimals = .error ⟨text, reason⟩ ∧ reason ≠ .fault) := by
  refine ⟨fun amount => parse_eq_ok_iff, ?_⟩
  cases hchars : ofChars text.toList decimals with
  | ok amount =>
    exact .inl ⟨amount, parse_eq_ok_iff.mp (mapError_eq_ok_iff.mpr hchars)⟩
  | error reason =>
    refine .inr ⟨reason, ?_, ?_⟩
    · rw [parse, hchars, mapError_error]
    · rintro rfl
      exact ofChars_ne_fault hchars

/-! ### Writing -/

theorem toList_format (amount : Amount) (decimals : UInt8) : (format amount decimals).toList =
    (DecimalText.fixedPoint decimals.toNat amount.toNat).chars := by
  rw [format, String.toList_ofList, DecimalText.chars_fixedPoint]

theorem value_fixedPoint (amount : Amount) (decimals : UInt8) :
    (DecimalText.fixedPoint decimals.toNat amount.toNat).value =
      amount.toNat / 10 ^ decimals.toNat := by
  rw [DecimalText.value_eq, DecimalText.units_fixedPoint, DecimalText.length_fraction_fixedPoint]

theorem isTextOf_format (amount : Amount) {decimals : UInt8} (h : decimals ≤ maxDecimals) :
    IsTextOf (format amount decimals) decimals amount := by
  refine ⟨h, _, toList_format amount decimals, (DecimalText.length_fraction_fixedPoint _ _).le, ?_⟩
  rw [value_fixedPoint, div_mul_cancel₀ _ (by positivity)]

/-- A canonical text of an amount is the one that is written. -/
theorem IsTextOf.toList_eq {text : String} {decimals : UInt8} {amount : Amount} {d : DecimalText}
    (h : IsTextOf text decimals amount) (hd : text.toList = d.chars)
    (hcanonical : d.IsCanonical decimals.toNat) :
    text.toList = (format amount decimals).toList := by
  obtain ⟨-, d', hd', -, hvalue⟩ := h
  obtain rfl := chars_injective (hd.symm.trans hd')
  rw [DecimalText.value_mul_pow hcanonical.length_fraction.le, hcanonical.length_fraction,
    Nat.sub_self, Nat.pow_zero, Nat.mul_one, Nat.cast_inj] at hvalue
  rw [hd, hcanonical.chars_eq, hvalue, toList_format, DecimalText.chars_fixedPoint]

/-- An amount is written as a canonical decimal of it. This text is read as the amount again, unless
there are too many decimals, and of the texts that are read as the amount it is the only canonical
one. -/
theorem format_isCanonical :
    (∀ (amount : Amount) (decimals : UInt8), ∃ d : DecimalText,
      (format amount decimals).toList = d.chars ∧ d.IsCanonical decimals.toNat ∧
        d.value = amount.toNat / 10 ^ decimals.toNat) ∧
    (∀ (amount : Amount) (decimals : UInt8), decimals ≤ maxDecimals →
      parse (format amount decimals) decimals = .ok amount) ∧
    ∀ (text : String) (decimals : UInt8) (amount : Amount),
      parse text decimals = .ok amount →
        (format amount decimals = text ↔
          ∃ d : DecimalText, text.toList = d.chars ∧ d.IsCanonical decimals.toNat) := by
  refine ⟨?_, ?_, ?_⟩
  · intro amount decimals
    exact ⟨_, toList_format amount decimals, DecimalText.isCanonical_fixedPoint _ _,
      value_fixedPoint amount decimals⟩
  · intro amount decimals h
    exact parse_eq_ok_iff.mpr (isTextOf_format amount h)
  · intro text decimals amount h
    constructor
    · rintro rfl
      exact ⟨_, toList_format amount decimals, DecimalText.isCanonical_fixedPoint _ _⟩
    · rintro ⟨d, hd, hcanonical⟩
      exact String.toList_inj.mp ((parse_eq_ok_iff.mp h).toList_eq hd hcanonical).symm

/-- The least amount at the greatest number of decimals, and a text with a zero in vain. -/
theorem format_isCanonical_at_bounds :
    (38 : UInt8) ≤ maxDecimals ∧ parse (format 1 38) 38 = .ok 1 ∧
      parse "007.10" 2 = .ok 710 ∧
      (format 710 2 = "007.10" ↔
        ∃ d : DecimalText, "007.10".toList = d.chars ∧ d.IsCanonical (2 : UInt8).toNat) := by
  have hdecimals : (38 : UInt8) ≤ maxDecimals := by decide
  have hparse : parse "007.10" 2 = .ok 710 := by decide +kernel
  exact ⟨hdecimals, format_isCanonical.2.1 1 38 hdecimals, hparse,
    format_isCanonical.2.2 "007.10" 2 710 hparse⟩

end LiquidityBand.Amount
