import LiquidityBand.Json.Skip
import LiquidityBand.Numeral

/-!
# Integers of a JSON text

The values of a record are integers. They are written as numbers, or, where they can be too wide
for a reader of numbers, as numerals between quotes.

* `Json.IntegerForm` says how an integer is written and which integers there are;
* `Json.IntegerForm.read` and `Json.IntegerForm.write` read and write one.
-/

namespace LiquidityBand.Json

/-- How an integer is written, and which integers there are. -/
inductive IntegerForm where
  /-- A number between two bounds, and the name of its range. -/
  | number (low high : Int) (name : String)
  /-- A number of so many bits, without a sign. -/
  | natural (bits : Nat)
  /-- A numeral of so many bits, between quotes. -/
  | quotedNatural (bits : Nat)
  deriving DecidableEq, Repr

/-- The form allows the integer. -/
def IntegerForm.allows : IntegerForm → Int → Bool
  | number low high _, z => low ≤ z && z ≤ high
  | natural bits, z => 0 ≤ z && z < 2 ^ bits
  | quotedNatural bits, z => 0 ≤ z && z < 2 ^ bits

/-! ### Reading -/

/-- What stands at the head of a text, as far as the message on a wrong type shows it. -/
def found? (cs : List Char) : Option Found :=
  match cs with
  | [] => none
  | '[' :: _ => some .sequence
  | '{' :: _ => some .object
  | '"' :: rest => (scan true .plain rest).map fun (text, _) => .text (String.ofList text)
  | c :: _ =>
    if c = '-' ∨ c.isDigit then do
      let (parts, _) ← numberParts? cs
      match ← parts.value? with
      | .integer z => some (.integer z)
      | .double x => some (.double x)
    else
      (word? ['n', 'u', 'l', 'l'] cs).map (fun _ => .null)
        <|> (word? ['t', 'r', 'u', 'e'] cs).map (fun _ => .boolean true)
        <|> (word? ['f', 'a', 'l', 's', 'e'] cs).map (fun _ => .boolean false)

/-- The fault of a text at whose head something else was expected. -/
def wrongType (expected : String) (cs : List Char) : Problem :=
  match found? cs with
  | some found => .invalidType found expected
  | none => .malformed

/-- The number between two bounds at the head of a text, and what follows. -/
def readNumber (low high : Int) (name : String) (cs : List Char) :
    Except Problem (Int × List Char) :=
  match cs with
  | [] => .error .malformed
  | c :: _ =>
    if c = '-' ∨ c.isDigit then
      match numberParts? cs with
      | none => .error .malformed
      | some (parts, rest) =>
        match parts.value? with
        | none => .error .malformed
        | some (.double x) => .error (.invalidType (.double x) name)
        | some (.integer z) =>
          if low ≤ z ∧ z ≤ high then .ok (z, rest) else .error (.invalidValue (.integer z) name)
    else .error (wrongType name cs)

/-- The number of so many bits at the head of a text, and what follows. -/
def readNatural (bits : Nat) (cs : List Char) : Except Problem (Int × List Char) :=
  match integerDigits? cs with
  | none => .error .malformed
  | some (ds, rest) =>
    let n := Nat.ofDigitChars 10 ds 0
    if n < 2 ^ bits then .ok (n, rest) else .error .malformed

/-- The number that digits stand for behind `n`, in so many bits; the first fault counts. -/
def numeralDigits (bits : Nat) : Nat → List Char → Except NumeralProblem Nat
  | n, [] => .ok n
  | n, c :: cs =>
    if !c.isDigit then .error .invalidDigit
    else
      let next := 10 * n + (c.toNat - '0'.toNat)
      if next < 2 ^ bits then numeralDigits bits next cs else .error .tooLarge

/-- The number of so many bits that a numeral stands for. It may have a plus sign and leading
zeros. -/
def numeralValue (bits : Nat) (cs : List Char) : Except NumeralProblem Nat :=
  match cs with
  | [] => .error .empty
  | ['+'] => .error .invalidDigit
  | '+' :: ds => numeralDigits bits 0 ds
  | ds => numeralDigits bits 0 ds

/-- The numeral between quotes at the head of a text, and what follows. -/
def readQuotedNatural (bits : Nat) (cs : List Char) : Except Problem (Int × List Char) :=
  match cs with
  | '"' :: cs =>
    match scan true .plain cs with
    | none => .error .malformed
    | some (text, rest) =>
      match numeralValue bits text with
      | .error e => .error (.numeral e)
      | .ok n => .ok (n, rest)
  | cs => .error (wrongType "a string" cs)

/-- The integer at the head of a text, and what follows. -/
def IntegerForm.read (form : IntegerForm) (cs : List Char) : Except Problem (Int × List Char) :=
  match form with
  | number low high name => readNumber low high name (skipSpace cs)
  | natural bits => readNatural bits (skipSpace cs)
  | quotedNatural bits => readQuotedNatural bits (skipSpace cs)

/-! ### Writing -/

/-- The numeral of an integer. -/
def integerText (z : Int) : List Char :=
  if z < 0 then '-' :: Numeral.digits z.natAbs else Numeral.digits z.natAbs

/-- The text of an integer. -/
def IntegerForm.write (form : IntegerForm) (z : Int) : List Char :=
  match form with
  | number _ _ _ => integerText z
  | natural _ => integerText z
  | quotedNatural _ => quoted (integerText z)

end LiquidityBand.Json
