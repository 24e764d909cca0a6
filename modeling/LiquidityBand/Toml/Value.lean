import LiquidityBand.Toml.Scalar
import LiquidityBand.Toml.Table

/-!
# Keys and values of a TOML document

* `Toml.key?` reads a key, whose parts are divided by points;
* `Toml.value?` reads a value: a string, a word, an array or an inline table.

Arrays and inline tables are nested less than `nestingLimit` deep, and a key has fewer parts than
that.
-/

namespace LiquidityBand.Toml

/-- The bound of the nesting of values and of the parts of a key. -/
def nestingLimit : Nat := 80

/-- The text without the blanks at its head. -/
def skipBlanks (cs : List Char) : List Char := cs.dropWhile isBlank

/-- What follows the line break at the head of a text. -/
def afterBreak? : List Char → Option (List Char)
  | '\n' :: cs => some cs
  | '\r' :: '\n' :: cs => some cs
  | _ => none

/-- What follows the comment at the head of a text, if there is one. -/
def skipComment : List Char → List Char
  | '#' :: cs => cs.dropWhile isText
  | cs => cs

/-! ### Keys -/

/-- The character may stand in a key without quotes. -/
def isKeyChar (c : Char) : Bool := c.isAlphanum || c == '_' || c == '-'

/-- The part of a key at the head of a text, and what follows. -/
def keyPart? (cs : List Char) : Option (String × List Char) :=
  match cs with
  | '"' :: rest => (lineString? '"' rest).map fun (text, rest) => (String.ofList text, rest)
  | '\'' :: rest => (lineString? '\'' rest).map fun (text, rest) => (String.ofList text, rest)
  | cs =>
    match cs.takeWhile isKeyChar with
    | [] => none
    | part => some (String.ofList part, cs.dropWhile isKeyChar)

/-- The parts of a key at the head of a text, of which there are at most `fuel`, and what follows
the blanks behind it. -/
def keyParts? : Nat → List Char → Option (List String × List Char)
  | 0, _ => none
  | fuel + 1, cs => do
    let (part, cs) ← keyPart? (skipBlanks cs)
    match skipBlanks cs with
    | '.' :: cs => do
      let (parts, cs) ← keyParts? fuel cs
      some (part :: parts, cs)
    | cs => some ([part], cs)

/-- The key at the head of a text, as the path of its first parts and its last part, and what
follows the blanks behind it. -/
def key? (cs : List Char) : Option (List String × String × List Char) := do
  let (parts, cs) ← keyParts? (nestingLimit - 1) cs
  let last ← parts.getLast?
  some (parts.dropLast, last, cs)

/-! ### Values -/

/-- The text behind blanks, line breaks and comments, of which there are at most `fuel` lines. -/
def skipLines? : Nat → List Char → Option (List Char)
  | 0, _ => none
  | fuel + 1, cs =>
    match skipBlanks cs with
    | '#' :: cs => do skipLines? fuel (← afterBreak? (skipComment ('#' :: cs)))
    | '\n' :: cs => skipLines? fuel cs
    | '\r' :: cs => do skipLines? fuel (← afterBreak? ('\r' :: cs))
    | cs => some cs

/-- The same for a text of any number of lines. -/
def skipSpace? (cs : List Char) : Option (List Char) := skipLines? (cs.length + 1) cs

mutual

/-- The value at the head of a text and what follows; `depth` values are open around it. -/
def readValue : Nat → Nat → List Char → Option (Option Int × List Char)
  | 0, _, _ => none
  | fuel + 1, depth, cs =>
    match cs with
    | '"' :: _ | '\'' :: _ => (string? cs).map fun (_, rest) => (none, rest)
    | '[' :: cs =>
      if nestingLimit ≤ depth + 1 then none
      else (readElements fuel (depth + 1) cs).map (none, ·)
    | '\x7b' :: cs =>
      if nestingLimit ≤ depth + 1 then none
      else
        match skipBlanks cs with
        | '\x7d' :: cs => some (none, cs)
        | cs => (readPairs fuel (depth + 1) [] cs).map (none, ·)
    | cs => bareValue? cs

/-- What follows the elements of an array and its closing bracket. -/
def readElements : Nat → Nat → List Char → Option (List Char)
  | 0, _, _ => none
  | fuel + 1, depth, cs => do
    match ← skipSpace? cs with
    | ']' :: cs => some cs
    | cs => do
      let (_, cs) ← readValue fuel depth cs
      match ← skipSpace? cs with
      | ',' :: cs => readElements fuel depth cs
      | ']' :: cs => some cs
      | _ => none

/-- What follows the pairs of an inline table and its closing brace; `t` holds the pairs so
far. -/
def readPairs : Nat → Nat → Table → List Char → Option (List Char)
  | 0, _, _, _ => none
  | fuel + 1, depth, t, cs => do
    let (path, key, cs) ← key? cs
    match cs with
    | '=' :: cs => do
      let (value, cs) ← readValue fuel depth (skipBlanks cs)
      let t ← t.insert? path key value
      match skipBlanks cs with
      | ',' :: cs => readPairs fuel depth t cs
      | '\x7d' :: cs => some cs
      | _ => none
    | _ => none

end

/-- The value at the head of a text and what follows. Every step takes a character. -/
def value? (cs : List Char) : Option (Option Int × List Char) :=
  readValue (2 * cs.length + 2) 0 cs

end LiquidityBand.Toml
