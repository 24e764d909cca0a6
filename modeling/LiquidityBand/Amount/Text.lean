import LiquidityBand.Amount.Basic
import LiquidityBand.Numeral

/-!
# Texts of token amounts

An amount is written in tokens: an integer part, and behind a point at most as many digits as the
token has decimals. There are no signs, exponents or separators.

* `Amount.parse` reads such a text;
* `Amount.format` writes an amount with all of its decimals.
-/

namespace LiquidityBand.Amount

/-- The amount that digits stand for. -/
def ofDigits (cs : List Char) : Except AmountReason Amount :=
  match Numeral.value? cs with
  | none => .error .notDecimal
  | some n => fit 128 .tooLarge n

/-- The integer part of a text, and what stands behind its first point if it has one. -/
def splitAtPoint (cs : List Char) : List Char × Option (List Char) :=
  let integer := cs.takeWhile (· != '.')
  match cs.dropWhile (· != '.') with
  | [] => (integer, none)
  | _ :: fraction => (integer, some fraction)

/-- The number of bytes of a text. -/
def byteLength (cs : List Char) : Nat := cs.foldr (fun c n => c.utf8Size + n) 0

/-- The places that digits behind the point leave open. Both are counted in eight bits, and a fault
is reported if there are more digits than places. -/
def openPlaces (decimals : UInt8) (digits : Nat) : Except AmountReason Nat :=
  let digits := digits % 2 ^ 8
  if digits ≤ decimals.toNat then .ok (decimals.toNat - digits) else .error .fault

/-- The least units that a fractional part stands for, by the count of the places left open. -/
def ofFractionBy (openPlaces : UInt8 → Nat → Except AmountReason Nat) (cs : List Char)
    (decimals : UInt8) : Except AmountReason Amount := do
  if cs.isEmpty then throw .missingFraction
  if decimals.toNat < byteLength cs then throw .tooManyPlaces
  let scale ← unitsPerToken (← openPlaces decimals (byteLength cs))
  let digits ← ofDigits cs
  fit 128 .fault (digits.toNat * scale.toNat)

/-- The least units that a fractional part stands for. -/
def ofFraction (cs : List Char) (decimals : UInt8) : Except AmountReason Amount :=
  ofFractionBy openPlaces cs decimals

/-- The amount that a list of characters stands for, by that of a fractional part. -/
def ofCharsBy (ofFraction : List Char → UInt8 → Except AmountReason Amount) (cs : List Char)
    (decimals : UInt8) : Except AmountReason Amount := do
  if maxDecimals < decimals then throw .tooManyDecimals
  let (integer, fraction) := splitAtPoint cs
  if integer.isEmpty then throw .missingInteger
  let scale ← unitsPerToken decimals.toNat
  let digits ← ofDigits integer
  let amount ← fit 128 .tooLarge (digits.toNat * scale.toNat)
  match fraction with
  | none => return amount
  | some cs => do
    let part ← ofFraction cs decimals
    fit 128 .tooLarge (amount.toNat + part.toNat)

/-- The amount that a list of characters stands for. -/
def ofChars (cs : List Char) (decimals : UInt8) : Except AmountReason Amount :=
  ofCharsBy ofFraction cs decimals

/-- The amount that a text stands for, in least units of a token with so many decimals. -/
def parse (text : String) (decimals : UInt8) : Except AmountError Amount :=
  (ofChars text.toList decimals).mapError (⟨text, ·⟩)

/-- The amount in tokens, with all of its decimals. -/
def format (amount : Amount) (decimals : UInt8) : String :=
  String.ofList (Numeral.fixedPoint decimals.toNat amount.toNat)

end LiquidityBand.Amount
