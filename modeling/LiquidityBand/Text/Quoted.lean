import LiquidityBand.Text.Hidden

/-!
# Quoted texts

* `Quoted.quote` puts a text between double quotes and escapes what would not show as itself.
-/

namespace LiquidityBand.Quoted

/-- The code point of a character in braces. -/
def codePoint (c : Char) : List Char :=
  '\\' :: 'u' :: '{' :: Nat.toDigits 16 c.toNat ++ ['}']

/-- A character as it stands between quotes. -/
def escape (c : Char) : List Char :=
  match c with
  | '\x00' => ['\\', '0']
  | '\t' => ['\\', 't']
  | '\r' => ['\\', 'r']
  | '\n' => ['\\', 'n']
  | '\\' => ['\\', '\\']
  | '"' => ['\\', '"']
  | c => if isHidden c then codePoint c else [c]

/-- The text between quotes. -/
def quote (text : String) : String :=
  String.ofList ('"' :: (text.toList.map escape).flatten ++ ['"'])

end LiquidityBand.Quoted
