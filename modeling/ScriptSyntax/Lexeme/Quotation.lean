import ScriptSyntax.Lexeme.Trivia

/-!
# Quotations

A plain quotation ends at its own quote unless an odd run of backslashes stands before it.  A
heredoc stands between triple quotes and knows no escape.
-/

namespace ScriptSyntax.Lexeme

/-- The length up to and including the closing quote.  `even` says whether the backslashes directly
before the text are even in number. -/
def closing? (quote : Char) : Bool → List Char → Option Nat
  | _, [] => none
  | even, c :: rest =>
      if c = quote ∧ even then some 1
      else (closing? quote (c ≠ '\\' || !even) rest).map (· + 1)

def quoted (quote : Char) (rest : List Char) : TokenKind × Nat :=
  match closing? quote true rest with
  | some length =>
      (if '\n' ∈ rest.take length then .multilineString else .stringConstant, length + 1)
  | none => (.unterminatedString, rest.length + 1)

def quotation? : List Char → Option (TokenKind × Nat)
  | '"' :: '"' :: '"' :: rest => some (.heredocString, through ['"', '"', '"'] rest + 3)
  | '"' :: rest => some (quoted '"' rest)
  | '\'' :: rest => some (quoted '\'' rest)
  | _ => none

theorem closing?_bounds {quote : Char} {even : Bool} {text : List Char} {length : Nat}
    (h : closing? quote even text = some length) : 0 < length ∧ length ≤ text.length := by
  induction text generalizing even length with
  | nil => simp [closing?] at h
  | cons c rest ih =>
      rw [closing?] at h
      split at h
      · cases h
        simp
      · obtain ⟨inner, hinner, rfl⟩ := Option.map_eq_some_iff.mp h
        have := ih hinner
        simp only [List.length_cons]
        omega

end ScriptSyntax.Lexeme
