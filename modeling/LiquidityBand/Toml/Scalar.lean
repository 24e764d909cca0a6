import LiquidityBand.Double.Rounding
import LiquidityBand.Toml.Text

/-!
# Bare values of a TOML document

A value that is neither a string nor a collection is a word: a truth value, a number, or a date or
a time. Of these only integers matter later; of the others it is checked that they are well formed.

* `Toml.integer?` is the integer that a word stands for;
* `Toml.isFloat` and `Toml.isMoment` recognise other numbers, and dates and times;
* `Toml.bareValue?` reads a word.
-/

namespace LiquidityBand.Toml

/-- Digits with single underscores between them, without the underscores; `inside` says that a
digit stands in front. -/
def separated? (isDigit : Char → Bool) : Bool → List Char → Option (List Char)
  | inside, [] => if inside then some [] else none
  | inside, c :: cs =>
    if c = '_' then if inside then separated? isDigit false cs else none
    else if isDigit c then (separated? isDigit true cs).map (c :: ·)
    else none

/-- Decimal digits, without their underscores. -/
def decimalDigits? (cs : List Char) : Option (List Char) := separated? Char.isDigit false cs

/-- The digits of a decimal integer, which has no leading zero. -/
def wholeDigits? (cs : List Char) : Option (List Char) := do
  let ds ← decimalDigits? cs
  if ds.head? = some '0' ∧ ds.length ≠ 1 then none else some ds

/-- A sign, if there is one, and what follows. -/
def sign : List Char → Option Bool × List Char
  | '+' :: cs => (some false, cs)
  | '-' :: cs => (some true, cs)
  | cs => (none, cs)

/-! ### Integers -/

/-- An integer of 64 bits. -/
def fitting? (z : Int) : Option Int := if -2 ^ 63 ≤ z ∧ z < 2 ^ 63 then some z else none

/-- The integer that digits of a base stand for. -/
def ofBase? (base : Nat) (cs : List Char) : Option Int := do
  let isDigit (c : Char) : Bool := (hexDigit? c).any (· < base)
  let ds ← separated? isDigit false cs
  fitting? (ds.foldl (fun n c => n * base + (hexDigit? c).getD 0) 0 : Nat)

/-- The integer that a word stands for. -/
def integer? (word : List Char) : Option Int :=
  match word with
  | '0' :: 'x' :: cs => ofBase? 16 cs
  | '0' :: 'o' :: cs => ofBase? 8 cs
  | '0' :: 'b' :: cs => ofBase? 2 cs
  | _ => do
    let (negative, cs) := sign word
    let n : Int := Nat.ofDigitChars 10 (← wholeDigits? cs) 0
    fitting? (if negative = some true then -n else n)

/-! ### Other numbers -/

/-- The exponent that a text from its mark on stands for; nothing stands for zero. -/
def exponent? : List Char → Option Int
  | [] => some 0
  | c :: cs => do
    if c ≠ 'e' ∧ c ≠ 'E' then none
    else
      let (negative, cs) := sign cs
      let n : Int := Nat.ofDigitChars 10 (← decimalDigits? cs) 0
      some (if negative = some true then -n else n)

/-- The number `n * 10 ^ e` lies beyond the largest double. -/
def isBeyond (n : Nat) (e : Int) : Bool :=
  n ≠ 0 && 0 ≤ e + (Nat.toDigits 10 n).length - 309 &&
    (310 ≤ e + (Nat.toDigits 10 n).length ||
      Double.infinityBits ≤
        Double.quotientBits (n * 10 ^ e.toNat) (10 ^ (-e).toNat))

/-- The digits of a number with a fraction or an exponent, and its exponent of ten. -/
def floatParts? (cs : List Char) : Option (Nat × Int) := do
  let isPart (c : Char) : Bool := c.isDigit || c == '_'
  let whole ← wholeDigits? (cs.takeWhile isPart)
  match cs.dropWhile isPart with
  | [] => none
  | '.' :: rest => do
    let places ← decimalDigits? (rest.takeWhile isPart)
    let e ← exponent? (rest.dropWhile isPart)
    some (Nat.ofDigitChars 10 (whole ++ places) 0, e - places.length)
  | rest => do
    let e ← exponent? rest
    some (Nat.ofDigitChars 10 whole 0, e)

/-- The word is a number with a fraction or an exponent, or no finite number. A number that is
not negative lies below infinity. -/
def isFloat (word : List Char) : Bool :=
  let (negative, cs) := sign word
  cs == ['i', 'n', 'f'] || cs == ['n', 'a', 'n'] ||
    match floatParts? cs with
    | none => false
    | some (n, e) => negative == some true || !isBeyond n e

/-! ### Dates and times -/

/-- The number of the first `count` characters, which are digits, and what follows. -/
def field? (count : Nat) (cs : List Char) : Option (Nat × List Char) :=
  let ds := cs.take count
  if ds.length = count ∧ ds.all Char.isDigit then some (Nat.ofDigitChars 10 ds 0, cs.drop count)
  else none

/-- What follows the given character. -/
def behind? (c : Char) : List Char → Option (List Char)
  | [] => none
  | d :: cs => if d = c then some cs else none

/-- The number of days of a month. -/
def daysOf (year month : Nat) : Nat :=
  if month = 2 then
    if year % 4 = 0 ∧ (year % 100 ≠ 0 ∨ year % 400 = 0) then 29 else 28
  else if month = 4 ∨ month = 6 ∨ month = 9 ∨ month = 11 then 30
  else 31

/-- What follows the date at the head of a text. -/
def afterDate? (cs : List Char) : Option (List Char) := do
  let (year, cs) ← field? 4 cs
  let (month, cs) ← field? 2 (← behind? '-' cs)
  let (day, cs) ← field? 2 (← behind? '-' cs)
  if 1 ≤ month ∧ month ≤ 12 ∧ 1 ≤ day ∧ day ≤ daysOf year month then some cs else none

/-- What follows the hour and the minute at the head of a text. -/
def afterMinute? (cs : List Char) : Option (List Char) := do
  let (hour, cs) ← field? 2 cs
  let (minute, cs) ← field? 2 (← behind? ':' cs)
  if hour ≤ 23 ∧ minute ≤ 59 then some cs else none

/-- What follows the time at the head of a text. -/
def afterTime? (cs : List Char) : Option (List Char) := do
  let (second, cs) ← field? 2 (← behind? ':' (← afterMinute? cs))
  if 60 < second then none
  else
    match cs with
    | '.' :: rest =>
      if (rest.takeWhile Char.isDigit).isEmpty then none else some (rest.dropWhile Char.isDigit)
    | cs => some cs

/-- The text is empty or an offset from universal time. -/
def isOffset (cs : List Char) : Bool :=
  match cs with
  | [] => true
  | [c] => c == 'Z' || c == 'z'
  | c :: cs => (c == '+' || c == '-') && afterMinute? cs == some []

/-- The word is a date, a time, or both with an offset. -/
def isMoment (word : List Char) : Bool :=
  afterTime? word == some [] ||
    match afterDate? word with
    | none => false
    | some [] => true
    | some (c :: cs) => (c == 'T' || c == 't' || c == ' ') && (afterTime? cs).any isOffset

/-! ### Words -/

/-- The character may stand in a word. -/
def isWordChar (c : Char) : Bool :=
  c.isAlphanum || c == '+' || c == '-' || c == '_' || c == '.' || c == ':'

/-- The word at the head of a text, and what follows; a blank may stand between a date and a
time. -/
def splitWord (cs : List Char) : List Char × List Char :=
  let word := cs.takeWhile isWordChar
  match cs.dropWhile isWordChar with
  | ' ' :: rest =>
    if afterDate? word = some [] ∧ (rest.head?.any Char.isDigit) then
      (word ++ ' ' :: rest.takeWhile isWordChar, rest.dropWhile isWordChar)
    else (word, ' ' :: rest)
  | rest => (word, rest)

/-- The value of a word: the integer that it stands for, or none of interest. -/
def wordValue? (word : List Char) : Option (Option Int) :=
  match integer? word with
  | some z => some (some z)
  | none =>
    if word == ['t', 'r', 'u', 'e'] || word == ['f', 'a', 'l', 's', 'e'] || isFloat word
        || isMoment word then some none
    else none

/-- The value of the word at the head of a text, and what follows. -/
def bareValue? (cs : List Char) : Option (Option Int × List Char) :=
  let (word, rest) := splitWord cs
  (wordValue? word).map (·, rest)

end LiquidityBand.Toml
