import LiquidityBand.Proofs.Amount.Rescale
import LiquidityBand.Proofs.Amount.Text
import LiquidityBand.Proofs.Guarded.Register

/-!
# Amounts with guards

Reading, writing and rescaling an amount, each step with its guard. The digits behind a point are
counted in eight bits only after they are known to be no more than the decimals, and with no more
than 38 decimals their product with a power of ten is below `10 ^ 38`. A field of digits is cut
between two digits, each of which takes one byte.

* `splitAtByte` cuts a text at a byte, with `splitAtByte_eq` for digits;
* `parse`, `format` and `rescale` are the operations, each with its `_isSafe`.
-/

namespace LiquidityBand.Guarded

open Numeral

instance : Faulty AmountReason := ⟨(· = .fault)⟩

instance (r : AmountReason) : Decidable (Faulty.isFault r) :=
  inferInstanceAs (Decidable (r = .fault))

instance : Faulty AmountError := ⟨fun e => e.reason = .fault⟩

/-- A step in registers as one of an operation on amounts. -/
def amountStep {α : Type} (r : Except Error α) : Except AmountReason α :=
  r.mapError fun _ => .fault

/-! ### Reading -/

/-- The places that digits behind the point leave open. -/
def openPlaces (decimals : UInt8) (digits : Nat) : Except Error Nat := do
  difference decimals.toNat (← store 8 digits)

/-- The least units that a fractional part stands for. -/
def ofFraction (cs : List Char) (decimals : UInt8) : Except AmountReason Amount :=
  Amount.ofFractionBy (fun decimals digits => amountStep (openPlaces decimals digits)) cs decimals

/-- The amount that a list of characters stands for. -/
def ofChars (cs : List Char) (decimals : UInt8) : Except AmountReason Amount :=
  Amount.ofCharsBy ofFraction cs decimals

/-- The amount that a text stands for. -/
def parse (text : String) (decimals : UInt8) : Except AmountError Amount :=
  (ofChars text.toList decimals).mapError (⟨text, ·⟩)

theorem openPlaces_eq {decimals : UInt8} {n : ℕ} (h : n ≤ decimals.toNat) :
    amountStep (openPlaces decimals n) = Amount.openPlaces decimals n := by
  have hlt : n < 2 ^ 8 := h.trans_lt decimals.toNat_lt
  rw [openPlaces, store_eq hlt, ok_bind, difference_eq_ok h, Amount.openPlaces_eq h]
  rfl

theorem ofFraction_eq (cs : List Char) (decimals : UInt8) :
    ofFraction cs decimals = Amount.ofFraction cs decimals := by
  rw [ofFraction, Amount.ofFraction, Amount.ofFractionBy, Amount.ofFractionBy]
  by_cases hlong : decimals.toNat < Amount.byteLength cs
  · rw [if_pos hlong, if_pos hlong]
    rfl
  · rw [if_neg hlong, if_neg hlong, openPlaces_eq (Nat.not_lt.mp hlong)]

theorem parse_isSafe (text : String) (decimals : UInt8) :
    IsSafe (parse text decimals) (Amount.parse text decimals) := by
  have heq : ofChars text.toList decimals = Amount.ofChars text.toList decimals := by
    have hfraction : ofFraction = Amount.ofFraction := funext₂ ofFraction_eq
    rw [ofChars, hfraction]
    rfl
  have hsafe : IsSafe (ofChars text.toList decimals) (Amount.ofChars text.toList decimals) :=
    ⟨heq, fun e he hfault => Amount.ofChars_ne_fault (he.trans (congrArg _ hfault))⟩
  exact hsafe.mapError fun _ h => h

/-! ### Writing -/

/-- What stands before a byte of a text and from it on; the byte has to begin a character. -/
def splitAtByte : List Char → Nat → Except Error (List Char × List Char)
  | cs, 0 => return ([], cs)
  | [], _ + 1 => throw .fault
  | c :: cs, n + 1 => do
      let rest ← difference (n + 1) c.utf8Size
      let (before, after) ← splitAtByte cs rest
      return (c :: before, after)

/-- The amount in tokens, with all of its decimals. -/
def format (amount : Amount) (decimals : UInt8) : Except Error String :=
  if decimals = 0 then return String.ofList (digits amount.toNat)
  else do
    let width ← store 64 (decimals.toNat + 1)
    let field := paddedDigits width amount.toNat
    let point ← difference (← store 64 (Amount.byteLength field)) decimals.toNat
    let (integer, fraction) ← splitAtByte field point
    return String.ofList (integer ++ '.' :: fraction)

theorem utf8Size_of_isDigit {c : Char} (h : c.isDigit) : c.utf8Size = 1 := by
  have hdigits : IsDigits [c] := fun d hd => List.mem_singleton.mp hd ▸ h
  simpa [Amount.byteLength] using Amount.byteLength_of_isDigits hdigits

/-- Digits are cut after as many of them as there are bytes. -/
theorem splitAtByte_eq {ds : List Char} {n : ℕ} (h : IsDigits ds) (hn : n ≤ ds.length) :
    splitAtByte ds n = .ok (ds.take n, ds.drop n) := by
  induction ds generalizing n with
  | nil =>
    obtain rfl : n = 0 := Nat.le_zero.mp hn
    rfl
  | cons c cs ih =>
    cases n with
    | zero => rfl
    | succ n =>
      obtain ⟨hc, hcs⟩ := isDigits_cons.mp h
      have hrest : difference (n + 1) 1 = .ok n := difference_eq_ok (Nat.succ_le_succ n.zero_le)
      rw [splitAtByte, utf8Size_of_isDigit hc, hrest, ok_bind,
        ih hcs (Nat.le_of_succ_le_succ hn), ok_bind]
      rfl

theorem paddedDigits_one (n : ℕ) : paddedDigits 1 n = digits n := by
  have hpos := List.length_pos_iff.mpr (digits_ne_nil n)
  rw [paddedDigits, List.leftpad, Nat.sub_eq_zero_of_le hpos, List.replicate_zero, List.nil_append]

theorem format_isSafe (amount : Amount) (decimals : UInt8) :
    IsSafe (format amount decimals) (.ok (Amount.format amount decimals)) := by
  refine isSafe_of_eq_ok ?_ rfl
  have hdecimals := decimals.toNat_lt
  rw [format, Amount.format]
  split_ifs with h0
  · rw [h0, UInt8.toNat_zero, fixedPoint_zero, paddedDigits_one]
    rfl
  · have hplaces : decimals.toNat ≠ 0 := fun h => h0 (UInt8.toNat_inj.mp h)
    have hdigits := isDigits_paddedDigits (decimals.toNat + 1) amount.toNat
    have hlength := length_paddedDigits (decimals.toNat + 1) amount.toNat
    have hshort : (digits amount.toNat).length ≤ 39 :=
      (Nat.length_toDigits_le_iff (by decide) (by decide)).mpr (amount.isLt.trans (by decide))
    rw [store_eq (by omega), ok_bind]
    dsimp only
    rw [Amount.byteLength_of_isDigits hdigits, hlength,
      store_eq (by omega), ok_bind, difference_eq_ok (by omega), ok_bind, ← hlength,
      splitAtByte_eq hdigits (Nat.sub_le _ _), fixedPoint, pointed, if_neg hplaces]
    rfl

/-! ### Rescaling -/

/-- The amount, counted in the least units of another precision. -/
def rescaled (amount : Amount) (source target : UInt8) : Except AmountReason Amount :=
  if source ≤ target then do
    let scale ← Amount.unitsPerToken (← amountStep (difference target.toNat source.toNat))
    fit 128 .tooLarge (amount.toNat * scale.toNat)
  else do
    let places ← amountStep (difference source.toNat target.toNat)
    match Amount.unitsPerToken places with
    | .ok scale => return BitVec.ofNat 128 (← amountStep (quotient amount.toNat scale.toNat))
    | .error _ => return 0

/-- The amount at the precision `target`; it was counted at the precision `source`. -/
def rescale (amount : Amount) (source target : UInt8) : Except AmountError Amount :=
  (rescaled amount source target).mapError (⟨String.ofList (digits amount.toNat), ·⟩)

theorem rescaled_isSafe (amount : Amount) (source target : UInt8) :
    IsSafe (rescaled amount source target) (Amount.rescaled amount source target) := by
  rw [rescaled, Amount.rescaled]
  refine .ite (fun hle => ?_) fun hle => ?_
  · rw [UInt8.le_iff_toNat_le] at hle
    rw [difference_eq_ok hle]
    have hunits : IsSafe (Amount.unitsPerToken (target.toNat - source.toNat))
        (Amount.unitsPerToken (target.toNat - source.toNat)) := isSafe_fit (by decide)
    exact hunits.bind fun _ _ => isSafe_fit (by decide)
  · rw [UInt8.le_iff_toNat_le, Nat.not_le] at hle
    rw [difference_eq_ok hle.le]
    change IsSafe (match Amount.unitsPerToken (source.toNat - target.toNat) with
      | .ok scale => _
      | .error _ => _) _
    cases hscale : Amount.unitsPerToken (source.toNat - target.toNat) with
    | error e => exact isSafe_ok 0
    | ok scale =>
      have hvalue : scale.toNat = 10 ^ (source.toNat - target.toNat) :=
        fit_eq_ok_iff.mp hscale
      have hpos : scale.toNat ≠ 0 := by
        rw [hvalue]
        positivity
      have hfit := (Nat.div_le_self amount.toNat scale.toNat).trans_lt amount.isLt
      dsimp only
      rw [quotient_eq_ok hpos, fit_eq_ok hfit]
      exact isSafe_ok _

theorem rescale_isSafe (amount : Amount) (source target : UInt8) :
    IsSafe (rescale amount source target) (Amount.rescale amount source target) :=
  (rescaled_isSafe amount source target).mapError fun _ h => h

end LiquidityBand.Guarded
