import LiquidityBand.Toml.Value

/-!
# TOML documents

A document is a sequence of lines: keys with values, and headers of tables, below which the keys
of the lines that follow stand.

* `Toml.parse?` reads a document as the table of its keys.
-/

namespace LiquidityBand.Toml

/-- What is read so far: the table of the document, and the path of the last header. -/
structure Document where
  root : Table
  header : List String

/-- What follows the end of the line at the head of a text: blanks, a comment, and a line break or
the end of the document. -/
def afterLine? (cs : List Char) : Option (List Char) :=
  match skipComment (skipBlanks cs) with
  | [] => some []
  | cs => afterBreak? cs

/-- The document behind a header of a list of tables, whose brackets are read. -/
def Document.listHeader? (d : Document) (cs : List Char) : Option (Document × List Char) := do
  let (path, key, cs) ← key? cs
  match cs with
  | ']' :: ']' :: cs =>
    some (⟨← d.root.append? path key, path ++ [key]⟩, ← afterLine? cs)
  | _ => none

/-- The document behind a header of a table, whose bracket is read. -/
def Document.tableHeader? (d : Document) (cs : List Char) : Option (Document × List Char) := do
  let (path, key, cs) ← key? cs
  match cs with
  | ']' :: cs => some (⟨← d.root.define? path key, path ++ [key]⟩, ← afterLine? cs)
  | _ => none

/-- The document behind a key with its value. -/
def Document.pair? (d : Document) (cs : List Char) : Option (Document × List Char) := do
  let (path, key, cs) ← key? cs
  match cs with
  | '=' :: cs => do
    let (value, cs) ← value? (skipBlanks cs)
    let cs ← afterLine? cs
    some (⟨← d.root.insertBelow? d.header path key value, d.header⟩, cs)
  | _ => none

/-- The document behind the line at the head of a text, which is not empty. -/
def Document.line? (d : Document) (cs : List Char) : Option (Document × List Char) :=
  match cs with
  | '#' :: _ => (afterLine? cs).map (d, ·)
  | '\n' :: _ => (afterBreak? cs).map (d, ·)
  | '\r' :: _ => (afterBreak? cs).map (d, ·)
  | '[' :: '[' :: cs => d.listHeader? cs
  | '[' :: cs => d.tableHeader? cs
  | cs => d.pair? cs

/-- The document behind the lines of a text, of which there are at most `fuel`. -/
def Document.lines? : Nat → Document → List Char → Option Document
  | 0, _, _ => none
  | fuel + 1, d, cs =>
    match skipBlanks cs with
    | [] => some d
    | cs => do
      let (d, cs) ← d.line? cs
      lines? fuel d cs

/-- The text without the mark of its byte order. -/
def skipMark : List Char → List Char
  | '\uFEFF' :: cs => cs
  | cs => cs

/-- The table that a text stands for. -/
def parse? (text : String) : Option Table :=
  let cs := skipMark text.toList
  (Document.lines? (cs.length + 1) ⟨[], []⟩ cs).map Document.root

end LiquidityBand.Toml
