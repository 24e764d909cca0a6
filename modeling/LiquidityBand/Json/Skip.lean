import LiquidityBand.Json.Number

/-!
# Skipped values

The value of an unknown field is skipped, whatever it is, as long as it is JSON. The open lists and
objects are kept on a stack, so their nesting is not limited.

* `Json.skipSpace` drops white space;
* `Json.skipValue?` drops a value.
-/

namespace LiquidityBand.Json

/-- The white space of JSON. -/
def isSpace (c : Char) : Bool := c == ' ' || c == '\n' || c == '\t' || c == '\r'

/-- The text without the white space at its head. -/
def skipSpace (cs : List Char) : List Char := cs.dropWhile isSpace

/-- The text behind a word that stands at its head. -/
def word? (w cs : List Char) : Option (List Char) :=
  if w.isPrefixOf cs then some (cs.drop w.length) else none

/-- What is open around the place of reading. -/
inductive Frame where
  | sequence
  | object
  deriving DecidableEq, Repr

/-- What is to be read next while a value is skipped. -/
inductive Stage where
  | value
  | key
  | rest
  deriving DecidableEq, Repr

/-- One step: the next stage, the open frames and what remains of the text. -/
def skipStep? : Stage → List Frame → List Char → Option (Stage × List Frame × List Char)
  | .value, frames, cs =>
    match skipSpace cs with
    | [] => none
    | c :: cs =>
      if c = '"' then do
        let (_, cs) ← scan false .plain cs
        some (.rest, frames, cs)
      else if c = '[' then
        match skipSpace cs with
        | ']' :: cs => some (.rest, frames, cs)
        | cs => some (.value, .sequence :: frames, cs)
      else if c = '{' then
        match skipSpace cs with
        | '}' :: cs => some (.rest, frames, cs)
        | cs => some (.key, .object :: frames, cs)
      else if c = '-' ∨ c.isDigit then do
        let (_, cs) ← numberParts? (c :: cs)
        some (.rest, frames, cs)
      else do
        let cs ← word? ['n', 'u', 'l', 'l'] (c :: cs) <|> word? ['t', 'r', 'u', 'e'] (c :: cs)
          <|> word? ['f', 'a', 'l', 's', 'e'] (c :: cs)
        some (.rest, frames, cs)
  | .key, frames, cs =>
    match skipSpace cs with
    | '"' :: cs => do
      let (_, cs) ← scan false .plain cs
      match skipSpace cs with
      | ':' :: cs => some (.value, frames, cs)
      | _ => none
    | _ => none
  | .rest, [], cs => some (.rest, [], cs)
  | .rest, frame :: frames, cs =>
    match skipSpace cs, frame with
    | ',' :: cs, .sequence => some (.value, frame :: frames, cs)
    | ',' :: cs, .object => some (.key, frame :: frames, cs)
    | ']' :: cs, .sequence => some (.rest, frames, cs)
    | '}' :: cs, .object => some (.rest, frames, cs)
    | _, _ => none

/-- The steps up to the end of the value, of which there are at most `fuel`. -/
def skipSteps? : Nat → Stage → List Frame → List Char → Option (List Char)
  | _, .rest, [], cs => some cs
  | 0, _, _, _ => none
  | fuel + 1, stage, frames, cs => do
    let (stage, frames, cs) ← skipStep? stage frames cs
    skipSteps? fuel stage frames cs

/-- What follows the value at the head of a text. Every step but the last takes a character. -/
def skipValue? (cs : List Char) : Option (List Char) := skipSteps? (cs.length + 1) .value [] cs

end LiquidityBand.Json
