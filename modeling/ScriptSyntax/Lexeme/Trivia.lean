import ScriptSyntax.Token.Kind

/-!
# Blanks and comments

Each reader answers the kind of the piece at the start of a text and its length in characters.
-/

namespace ScriptSyntax.Lexeme

/-- How many characters at the start of a text satisfy the test. -/
def run (test : Char → Bool) (text : List Char) : Nat :=
  (text.takeWhile test).length

/-- The characters up to and including the first occurrence of `mark`; all of them if there is
none. -/
def through (mark : List Char) : List Char → Nat
  | [] => 0
  | c :: rest => if mark.isPrefixOf (c :: rest) then mark.length else through mark rest + 1

def byteOrderMark : Char := '\uFEFF'

def isBlank (c : Char) : Bool :=
  c == ' ' || c == '\t' || c == '\r' || c == '\n'

/-- A byte order mark on its own, or a run of blanks. -/
def blank? : List Char → Option (TokenKind × Nat)
  | [] => none
  | c :: rest =>
      if c = byteOrderMark then some (.whitespace, 1)
      else if isBlank c then some (.whitespace, run isBlank rest + 1)
      else none

/-- A comment to the end of the line, the line break included, or a delimited comment.  A comment
that is never closed takes the rest of the text. -/
def comment? : List Char → Option (TokenKind × Nat)
  | '/' :: '/' :: rest => some (.lineComment, through ['\n'] rest + 2)
  | '/' :: '*' :: rest => some (.blockComment, through ['*', '/'] rest + 2)
  | _ => none

theorem run_le_length (test : Char → Bool) (text : List Char) : run test text ≤ text.length :=
  (List.takeWhile_sublist test).length_le

theorem through_le_length (mark text : List Char) : through mark text ≤ text.length := by
  induction text with
  | nil => exact Nat.le_refl 0
  | cons c rest ih =>
      rw [through]
      split
      · rename_i h
        exact (List.isPrefixOf_iff_prefix.mp h).length_le
      · simpa using ih

end ScriptSyntax.Lexeme
