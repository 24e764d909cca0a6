import LiquidityBand.Json.Problem

/-!
# Strings of a JSON text

A string is read one character at a time by a machine whose states say where in an escape it
stands. The code points beyond `0xffff` are written as two escapes, a high and a low half, and a
half alone stands for nothing; where a string is skipped, a half alone does no harm.

* `Json.scan` reads what follows the opening quote;
* `Json.quoted` writes a text that needs no escapes.
-/

namespace LiquidityBand.Json

/-- Where the machine stands in a string. -/
inductive Place where
  /-- Between characters. -/
  | plain
  /-- Behind a backslash. -/
  | escape
  /-- In the digits of a code point: so many are left, with their value so far, behind a high
  half if there was one. -/
  | code (left value : Nat) (high : Option Nat)
  /-- Behind a high half. -/
  | afterHigh (high : Nat)
  /-- Behind a high half and a backslash. -/
  | afterHighEscape (high : Nat)
  deriving DecidableEq, Repr

/-- The character of a short escape. -/
def shortEscape? : Char → Option Char
  | '"' => some '"'
  | '\\' => some '\\'
  | '/' => some '/'
  | 'b' => some '\x08'
  | 'f' => some '\x0c'
  | 'n' => some '\n'
  | 'r' => some '\r'
  | 't' => some '\t'
  | _ => none

/-- The value of a hexadecimal digit. -/
def hexDigit? (c : Char) : Option Nat :=
  if c.isDigit then some (c.toNat - '0'.toNat)
  else if 'a' ≤ c ∧ c ≤ 'f' then some (c.toNat - 'a'.toNat + 10)
  else if 'A' ≤ c ∧ c ≤ 'F' then some (c.toNat - 'A'.toNat + 10)
  else none

/-- A code is the high half of a code point. -/
def isHigh (n : Nat) : Bool := 0xd800 ≤ n && n ≤ 0xdbff

/-- A code is the low half of a code point. -/
def isLow (n : Nat) : Bool := 0xdc00 ≤ n && n ≤ 0xdfff

/-- The machine behind the last digit of a code: where it stands, and the character that is
complete, if there is one. -/
def codeEnd (strict : Bool) (n : Nat) (high : Option Nat) : Option (Place × Option Char) :=
  if !strict then some (.plain, none)
  else
    match high with
    | some h =>
      if isLow n then
        some (.plain, some (Char.ofNat ((h - 0xd800) * 2 ^ 10 + (n - 0xdc00) + 0x10000)))
      else none
    | none =>
      if isLow n then none
      else if isHigh n then some (.afterHigh n, none)
      else some (.plain, some (Char.ofNat n))

/-- One character inside a string that does not end it. -/
def advance (strict : Bool) : Place → Char → Option (Place × Option Char)
  | .plain, c =>
      if c = '\\' then some (.escape, none)
      else if c.toNat < 32 then none
      else some (.plain, some c)
  | .escape, c =>
      if c = 'u' then some (.code 4 0 none, none)
      else (shortEscape? c).map fun e => (.plain, some e)
  | .code left value high, c => do
      let d ← hexDigit? c
      if left ≤ 1 then codeEnd strict (16 * value + d) high
      else some (.code (left - 1) (16 * value + d) high, none)
  | .afterHigh h, c => if c = '\\' then some (.afterHighEscape h, none) else none
  | .afterHighEscape h, c => if c = 'u' then some (.code 4 0 (some h), none) else none

/-- The rest of a string from a place on, up to its closing quote, and what follows. -/
def scan (strict : Bool) : Place → List Char → Option (List Char × List Char)
  | _, [] => none
  | place, c :: cs =>
    if place = .plain ∧ c = '"' then some ([], cs)
    else
      match advance strict place c with
      | none => none
      | some (next, produced) =>
        (scan strict next cs).map fun (text, rest) => (produced.toList ++ text, rest)

/-- A text between quotes; it needs no escapes. -/
def quoted (cs : List Char) : List Char := '"' :: cs ++ ['"']

/-- The character stands for itself in a string. -/
def isPlain (c : Char) : Bool := c != '"' && c != '\\' && 32 ≤ c.toNat

/-- Reading a text between quotes gives the text. -/
theorem scan_append_quote {cs : List Char} (h : ∀ c ∈ cs, isPlain c) (rest : List Char) :
    scan true .plain (cs ++ '"' :: rest) = some (cs, rest) := by
  induction cs with
  | nil => rfl
  | cons c cs ih =>
    have hc := h c (List.mem_cons_self ..)
    simp only [isPlain, Bool.and_eq_true, bne_iff_ne, decide_eq_true_iff, ne_eq] at hc
    obtain ⟨⟨hq, hb⟩, hs⟩ := hc
    rw [List.cons_append, scan, if_neg (by simp [hq]), advance, if_neg hb,
      if_neg (Nat.not_lt.mpr hs)]
    show (scan true .plain (cs ++ '"' :: rest)).map _ = _
    rw [ih fun c hc => h c (List.mem_cons_of_mem _ hc)]
    rfl

end LiquidityBand.Json
