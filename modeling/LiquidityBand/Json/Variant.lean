import LiquidityBand.Json.Record

/-!
# Variants of a JSON text

A value of an enumeration is the name of its variant in quotes, or an object whose only member has
that name and holds null.

* `Json.Variants` is the list of the variants with their names;
* `Json.Variants.decode` reads a variant, and `Json.Variants.encode` writes one.
-/

namespace LiquidityBand.Json

/-- The variants of an enumeration, with their names. -/
abbrev Variants (α : Type) := List (String × α)

namespace Variants
variable {α : Type}

/-- The variant of a name. -/
def named (variants : Variants α) (name : String) : Except Problem α :=
  match variants.find? fun v => v.1 == name with
  | some v => .ok v.2
  | none => .error (.unknownVariant name (variants.map Prod.fst))

/-- The variant whose name is the string at the head of a text, and what follows. -/
def readName (variants : Variants α) (cs : List Char) : Except Problem (α × List Char) :=
  match cs with
  | '"' :: cs =>
    match scan true .plain cs with
    | none => .error .malformed
    | some (text, rest) => (variants.named (String.ofList text)).map (·, rest)
  | _ => .error .malformed

/-- What follows the null at the head of a text. -/
def readNull (cs : List Char) : Except Problem (List Char) :=
  match cs with
  | 'n' :: _ =>
    match word? ['n', 'u', 'l', 'l'] cs with
    | some rest => .ok rest
    | none => .error .malformed
  | _ => .error (wrongType "unit" cs)

/-- The variant in an object whose brace is read, and what follows. -/
def readObject (variants : Variants α) (cs : List Char) : Except Problem (α × List Char) := do
  let (a, cs) ← variants.readName (skipSpace cs)
  let cs ← afterColon cs
  let cs ← readNull (skipSpace cs)
  match skipSpace cs with
  | '}' :: cs => return (a, cs)
  | _ => throw .malformed

/-- The variant at the head of a text, and what follows. -/
def read (variants : Variants α) (cs : List Char) : Except Problem (α × List Char) :=
  match skipSpace cs with
  | '"' :: cs => variants.readName ('"' :: cs)
  | '{' :: cs => variants.readObject cs
  | _ => .error .malformed

/-- The variant that a text stands for. -/
def decode (variants : Variants α) (text : String) : Except Problem α :=
  atEnd (variants.read text.toList)

/-- The name of a variant. -/
def nameOf [DecidableEq α] (variants : Variants α) (a : α) : String :=
  match variants.find? fun v => v.2 = a with
  | some v => v.1
  | none => ""

/-- The text of a variant. -/
def encode [DecidableEq α] (variants : Variants α) (a : α) : String :=
  String.ofList (quoted (variants.nameOf a).toList)

end Variants

end LiquidityBand.Json
