import ScriptSyntax.Text.Unprintable

/-!
# Quoted text

Text between double quotes, on one line: quotes, backslashes and the common control characters
have short escapes, any other character that is not shown is written by its code point.
-/

namespace ScriptSyntax.Text

/-- Lower-case hexadecimal without padding. -/
def hexadecimal (n : Nat) : List Char :=
  Nat.toDigits 16 n

def escape (c : Char) : List Char :=
  match c with
  | '\x00' => ['\\', '0']
  | '\t' => ['\\', 't']
  | '\n' => ['\\', 'n']
  | '\r' => ['\\', 'r']
  | '"' => ['\\', '"']
  | '\\' => ['\\', '\\']
  | c =>
      if c.toNat < 0x7f ∧ 0x20 ≤ c.toNat ∨ isShown c then [c]
      else ['\\', 'u', '\x7b'] ++ hexadecimal c.toNat ++ ['\x7d']

def quote (text : List Char) : List Char :=
  '"' :: text.flatMap escape ++ ['"']

end ScriptSyntax.Text
