import LiquidityBand.Json.Value

/-!
# Records of a JSON text

A record is an object whose members are its fields, in any order, or a list of the values of its
fields in their order. Members of other names are skipped.

The text is read from left to right and the first fault counts. A field that stands twice is
reported at its second name, one that is missing at the end of the object.

* `Json.Shape` lists the fields of a record;
* `Json.Shape.decode` reads the values of the fields, and `Json.Shape.encode` writes them.
-/

namespace LiquidityBand.Json

/-- A field of a record; a field with a default may be missing. -/
structure Field where
  name : String
  form : IntegerForm
  default? : Option Int
  deriving DecidableEq, Repr

/-- The fields of a record, in order, and the name of the record. -/
structure Shape where
  name : String
  fields : List Field
  deriving DecidableEq, Repr

/-- What a text is expected to hold for a record. -/
def Shape.expected (shape : Shape) : String := "struct " ++ shape.name

/-- What a list is expected to hold for a record. -/
def Shape.expectedLength (shape : Shape) : String :=
  shape.expected ++ " with " ++ toString shape.fields.length ++ " elements"

/-- A field with its value, once that is read. -/
abbrev Slot := Field × Option Int

/-! ### Reading a list -/

/-- The place of the next element of a list, if there is one. -/
def nextElement (first : Bool) (cs : List Char) : Except Problem (Option (List Char)) :=
  match skipSpace cs with
  | [] => .error .malformed
  | ']' :: _ => .ok none
  | c :: cs =>
    if first then .ok (some (c :: cs))
    else if c = ',' then
      match skipSpace cs with
      | ']' :: _ => .error .malformed
      | cs => .ok (some cs)
    else .error .malformed

/-- The values of the fields from the one at `index` on, and what follows. -/
def readElements (expected : String) : Nat → List Field → List Char →
    Except Problem (List Int × List Char)
  | _, [], cs => .ok ([], cs)
  | index, field :: fields, cs => do
    match ← nextElement (index == 0) cs with
    | none =>
      match field.default? with
      | none => .error (.invalidLength index expected)
      | some z => do
        let (zs, cs) ← readElements expected (index + 1) fields cs
        return (z :: zs, cs)
    | some cs => do
      let (z, cs) ← field.form.read cs
      let (zs, cs) ← readElements expected (index + 1) fields cs
      return (z :: zs, cs)

/-- The values of the fields in a list whose bracket is read, and what follows. -/
def Shape.readList (shape : Shape) (cs : List Char) : Except Problem (List Int × List Char) := do
  let (zs, cs) ← readElements shape.expectedLength 0 shape.fields cs
  match skipSpace cs with
  | ']' :: cs => return (zs, cs)
  | _ => throw .malformed

/-! ### Reading an object -/

/-- The name of the next member of an object and what follows it, if there is one. -/
def nextName (first : Bool) (cs : List Char) : Except Problem (Option String × List Char) :=
  let name (cs : List Char) : Except Problem (Option String × List Char) :=
    match cs with
    | '"' :: cs =>
      match scan true .plain cs with
      | none => .error .malformed
      | some (text, rest) => .ok (some (String.ofList text), rest)
    | _ => .error .malformed
  match skipSpace cs with
  | '}' :: cs => .ok (none, cs)
  | ',' :: cs => if first then .error .malformed else name (skipSpace cs)
  | cs => if first then name cs else .error .malformed

/-- What follows the colon at the head of a text. -/
def afterColon (cs : List Char) : Except Problem (List Char) :=
  match skipSpace cs with
  | ':' :: cs => .ok cs
  | _ => .error .malformed

/-- The slots with a value for the field of a name. -/
def setSlot (name : String) (z : Int) (slots : List Slot) : List Slot :=
  slots.map fun slot => if slot.1.name == name then (slot.1, some z) else slot

/-- The slots behind the member of a name, and what follows it. -/
def readMember (slots : List Slot) (name : String) (cs : List Char) :
    Except Problem (List Slot × List Char) :=
  match slots.find? fun slot => slot.1.name == name with
  | none => do
    let cs ← afterColon cs
    match skipValue? cs with
    | none => throw .malformed
    | some cs => return (slots, cs)
  | some (_, some _) => .error (.duplicateField name)
  | some (field, none) => do
    let cs ← afterColon cs
    let (z, cs) ← field.form.read cs
    return (setSlot name z slots, cs)

/-- The slots behind the members of an object, of which there are at most `fuel`, and what
follows. -/
def readMembers : Nat → Bool → List Slot → List Char → Except Problem (List Slot × List Char)
  | 0, _, _, _ => .error .malformed
  | fuel + 1, first, slots, cs => do
    match ← nextName first cs with
    | (none, cs) => return (slots, cs)
    | (some name, cs) => do
      let (slots, cs) ← readMember slots name cs
      readMembers fuel false slots cs

/-- The value of a slot, or that of its default. -/
def Slot.value (slot : Slot) : Except Problem Int :=
  match slot.2 <|> slot.1.default? with
  | some z => .ok z
  | none => .error (.missingField slot.1.name)

/-- The values of the fields in an object whose brace is read, and what follows. Every member
takes a character. -/
def Shape.readObject (shape : Shape) (cs : List Char) :
    Except Problem (List Int × List Char) := do
  let (slots, cs) ← readMembers (cs.length + 1) true (shape.fields.map (·, none)) cs
  let zs ← slots.mapM Slot.value
  return (zs, cs)

/-- The values of the fields, and what follows. -/
def Shape.read (shape : Shape) (cs : List Char) : Except Problem (List Int × List Char) :=
  match skipSpace cs with
  | '[' :: cs => shape.readList cs
  | '{' :: cs => shape.readObject cs
  | cs => .error (wrongType shape.expected cs)

/-- What is read, if only white space follows it. -/
def atEnd {α : Type} (r : Except Problem (α × List Char)) : Except Problem α :=
  match r with
  | .error e => .error e
  | .ok (a, rest) => if (skipSpace rest).isEmpty then .ok a else .error .malformed

/-- The values of the fields in a text. -/
def Shape.decode (shape : Shape) (text : String) : Except Problem (List Int) :=
  atEnd (shape.read text.toList)

/-! ### Writing -/

/-- A field with its value. -/
def Field.write (field : Field) (z : Int) : List Char :=
  quoted field.name.toList ++ ':' :: field.form.write z

/-- The text of the fields with their values, without white space. -/
def Shape.encode (shape : Shape) (zs : List Int) : String :=
  String.ofList
    ('{' :: [','].intercalate (List.zipWith Field.write shape.fields zs) ++ ['}'])

end LiquidityBand.Json
