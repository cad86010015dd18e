import ScriptSyntax.Lexeme.Trivia

/-!
# Numerals

A numeral is a radix mark with the digits valid in that radix, or a decimal number with an optional
fraction, exponent and float mark.  Every part after the first is optional and taken greedily.
-/

namespace ScriptSyntax.Lexeme

def radix? : Char → Option Nat
  | 'b' | 'B' => some 2
  | 'o' | 'O' => some 8
  | 'd' | 'D' => some 10
  | 'x' | 'X' => some 16
  | _ => none

def digitValue? (c : Char) : Option Nat :=
  if '0' ≤ c ∧ c ≤ '9' then some (c.toNat - '0'.toNat)
  else if 'a' ≤ c ∧ c ≤ 'f' then some (c.toNat - 'a'.toNat + 10)
  else if 'A' ≤ c ∧ c ≤ 'F' then some (c.toNat - 'A'.toNat + 10)
  else none

def isDigitIn (radix : Nat) (c : Char) : Bool :=
  (digitValue? c).any (· < radix)

def fraction : List Char → Nat
  | '.' :: rest => run Char.isDigit rest + 1
  | _ => 0

def signedDigits : List Char → Nat
  | '+' :: rest | '-' :: rest => run Char.isDigit rest + 1
  | text => run Char.isDigit text

def exponent : List Char → Nat
  | 'e' :: rest | 'E' :: rest => signedDigits rest + 1
  | _ => 0

/-- A trailing `f` makes the number a float, otherwise a fraction or an exponent makes it a
double. -/
def decimal (text : List Char) : TokenKind × Nat :=
  let whole := run Char.isDigit text
  let point := fraction (text.drop whole)
  let power := exponent (text.drop (whole + point))
  let length := whole + point + power
  match text.drop length with
  | 'f' :: _ | 'F' :: _ => (.floatConstant, length + 1)
  | _ => (if point + power = 0 then .intConstant else .doubleConstant, length)

def startsNumeral : List Char → Bool
  | '.' :: c :: _ => c.isDigit
  | c :: _ => c.isDigit
  | [] => false

def bits? : List Char → Option (TokenKind × Nat)
  | '0' :: mark :: rest =>
      (radix? mark).map fun radix => (.bitsConstant, run (isDigitIn radix) rest + 2)
  | _ => none

def numeral? (text : List Char) : Option (TokenKind × Nat) :=
  if startsNumeral text then some ((bits? text).getD (decimal text)) else none

theorem fraction_le_length (text : List Char) : fraction text ≤ text.length := by
  unfold fraction
  split
  · simpa using run_le_length _ _
  · exact Nat.zero_le _

theorem signedDigits_le_length (text : List Char) : signedDigits text ≤ text.length := by
  unfold signedDigits
  split
  · simpa using run_le_length _ _
  · simpa using run_le_length _ _
  · exact run_le_length _ _

theorem exponent_le_length (text : List Char) : exponent text ≤ text.length := by
  unfold exponent
  split
  · simpa using signedDigits_le_length _
  · simpa using signedDigits_le_length _
  · exact Nat.zero_le _

theorem decimal_le_length (text : List Char) : (decimal text).2 ≤ text.length := by
  have hwhole := run_le_length Char.isDigit text
  have hpoint := fraction_le_length (text.drop (run Char.isDigit text))
  have hpower := exponent_le_length
    (text.drop (run Char.isDigit text + fraction (text.drop (run Char.isDigit text))))
  simp only [List.length_drop] at hpoint hpower
  simp only [decimal]
  split
  · rename_i h
    have hmark := congrArg List.length h
    simp only [List.length_drop, List.length_cons] at hmark
    omega
  · rename_i h
    have hmark := congrArg List.length h
    simp only [List.length_drop, List.length_cons] at hmark
    omega
  · dsimp only
    omega

end ScriptSyntax.Lexeme
