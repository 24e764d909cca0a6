/-!
# Strings of a TOML document

There are four kinds of strings: basic ones with escapes and literal ones without, on one line or
on many. They are read one character at a time by a machine whose states say where in an escape, a
line break or a run of quotes it stands.

* `Toml.Quotation` says which kind of string is read;
* `Toml.string?` reads a string from its opening quotes on.
-/

namespace LiquidityBand.Toml

/-- The kind of a string: its quote, and whether it has escapes and many lines. -/
structure Quotation where
  quote : Char
  escapes : Bool
  multiline : Bool
  deriving DecidableEq, Repr

/-- Where the machine stands in a string. -/
inductive Place where
  /-- Between characters. -/
  | plain
  /-- Behind so many quotes in a row, in a string of many lines. -/
  | quotes (count : Nat)
  /-- Behind a backslash. -/
  | escape
  /-- In the digits of a code point: so many are left, with their value so far. -/
  | code (left value : Nat)
  /-- Behind a carriage return. -/
  | carriage
  /-- Behind a backslash and blanks, in front of a line break. -/
  | joinLine
  /-- Behind a backslash, blanks and a carriage return. -/
  | joinCarriage
  /-- In the white space behind a backslash at the end of a line. -/
  | joined
  /-- Behind a carriage return in that white space. -/
  | joinedCarriage
  deriving DecidableEq, Repr

/-- A blank: a space or a tab. -/
def isBlank (c : Char) : Bool := c == ' ' || c == '\t'

/-- The character may stand in a string or a comment: it is a tab or no control character. -/
def isText (c : Char) : Bool := c == '\t' || (32 ≤ c.toNat && c.toNat != 127)

/-- The value of a hexadecimal digit. -/
def hexDigit? (c : Char) : Option Nat :=
  if c.isDigit then some (c.toNat - '0'.toNat)
  else if 'a' ≤ c ∧ c ≤ 'f' then some (c.toNat - 'a'.toNat + 10)
  else if 'A' ≤ c ∧ c ≤ 'F' then some (c.toNat - 'A'.toNat + 10)
  else none

/-- The character of a short escape. -/
def shortEscape? : Char → Option Char
  | '"' => some '"'
  | '\\' => some '\\'
  | 'b' => some '\x08'
  | 'f' => some '\x0c'
  | 'n' => some '\n'
  | 'r' => some '\r'
  | 't' => some '\t'
  | _ => none

/-- The character of a code point, if it has one. -/
def character? (n : Nat) : Option Char := if n.isValidChar then some (Char.ofNat n) else none

/-- A character between characters that is no quote. -/
def advancePlain (q : Quotation) (c : Char) : Option (Place × List Char) :=
  if q.escapes && c == '\\' then some (.escape, [])
  else if isText c then some (.plain, [c])
  else if q.multiline && c == '\n' then some (.plain, ['\n'])
  else if q.multiline && c == '\r' then some (.carriage, [])
  else none

/-- A character behind a backslash. -/
def advanceEscape (q : Quotation) (c : Char) : Option (Place × List Char) :=
  match shortEscape? c with
  | some e => some (.plain, [e])
  | none =>
    if c = 'u' then some (.code 4 0, [])
    else if c = 'U' then some (.code 8 0, [])
    else if !q.multiline then none
    else if isBlank c then some (.joinLine, [])
    else if c = '\n' then some (.joined, [])
    else if c = '\r' then some (.joinCarriage, [])
    else none

/-- A character that does not end the string: where the machine stands behind it, and the
characters that are complete. -/
def advance (q : Quotation) (place : Place) (c : Char) : Option (Place × List Char) :=
  match place with
  | .plain =>
    if q.multiline && c == q.quote then some (.quotes 1, []) else advancePlain q c
  | .quotes n =>
    if c = q.quote then if n < 5 then some (.quotes (n + 1), []) else none
    else (advancePlain q c).map fun (next, cs) => (next, List.replicate n q.quote ++ cs)
  | .escape => advanceEscape q c
  | .code left value => do
    let d ← hexDigit? c
    if left ≤ 1 then (character? (16 * value + d)).map fun e => (.plain, [e])
    else some (.code (left - 1) (16 * value + d), [])
  | .carriage => if c = '\n' then some (.plain, ['\n']) else none
  | .joinLine =>
    if isBlank c then some (.joinLine, [])
    else if c = '\n' then some (.joined, [])
    else if c = '\r' then some (.joinCarriage, [])
    else none
  | .joinCarriage | .joinedCarriage => if c = '\n' then some (.joined, []) else none
  | .joined =>
    if isBlank c || c == '\n' then some (.joined, [])
    else if c = '\r' then some (.joinedCarriage, [])
    else if c = q.quote then some (.quotes 1, [])
    else advancePlain q c

/-- The quotes at the end of a string of many lines that still belong to it, if the string ends at
this place in front of the given character. -/
def ending? (q : Quotation) (place : Place) (next : Option Char) : Option (List Char) :=
  match place with
  | .quotes n => if 3 ≤ n ∧ next ≠ some q.quote then some (List.replicate (n - 3) q.quote) else none
  | _ => none

/-- The rest of a string from a place on, and what follows. -/
def scan (q : Quotation) : Place → List Char → Option (List Char × List Char)
  | place, [] => (ending? q place none).map (·, [])
  | place, c :: cs =>
    match ending? q place (some c) with
    | some ds => some (ds, c :: cs)
    | none =>
      if !q.multiline && place == .plain && c == q.quote then some ([], cs)
      else
        match advance q place c with
        | none => none
        | some (next, done) => (scan q next cs).map fun (text, rest) => (done ++ text, rest)

/-- The text without the line break at its head, if there is one. -/
def skipLineBreak : List Char → List Char
  | '\n' :: cs => cs
  | '\r' :: '\n' :: cs => cs
  | cs => cs

/-- The basic or literal string of one line behind its opening quote, and what follows. -/
def lineString? (quote : Char) (cs : List Char) : Option (List Char × List Char) :=
  scan ⟨quote, quote == '"', false⟩ .plain cs

/-- The string at the head of a text, and what follows. -/
def string? (cs : List Char) : Option (List Char × List Char) :=
  match cs with
  | '"' :: '"' :: '"' :: cs => scan ⟨'"', true, true⟩ .plain (skipLineBreak cs)
  | '\'' :: '\'' :: '\'' :: cs => scan ⟨'\'', false, true⟩ .plain (skipLineBreak cs)
  | '"' :: cs => lineString? '"' cs
  | '\'' :: cs => lineString? '\'' cs
  | _ => none

end LiquidityBand.Toml
