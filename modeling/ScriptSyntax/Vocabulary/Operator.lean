import ScriptSyntax.Vocabulary.Lexicon

/-!
# Operators

Symbol operators and word operators.  `and`, `or`, `xor` and `not` are second spellings of symbol
operators; `is` and `!is` have one spelling each.  A handle mark `@` is listed here because it may
stand before a value in an expression.
-/

namespace ScriptSyntax

inductive Operator
  | plus | minus | star | slash | percent | starStar
  | plusPlus | minusMinus
  | assign | plusAssign | minusAssign | starAssign | slashAssign | percentAssign | starStarAssign
  | ampersandAssign | pipeAssign | caretAssign | shiftLeftAssign | shiftRightAssign
  | shiftRightArithAssign
  | equal | notEqual | less | lessEqual | greater | greaterEqual
  | ampersand | pipe | caret | tilde | shiftLeft | shiftRight | shiftRightArith
  | and | or | xor | not
  | is | isNot
  | handle
  deriving DecidableEq

/-- The places an operator can take in an expression. -/
inductive Fixity
  | betweenTerms | beforeValue | afterValue | assignment
  deriving DecidableEq

namespace Fixity

def entries : List Fixity :=
  [betweenTerms, beforeValue, afterValue, assignment]

def name : Fixity → String
  | betweenTerms => "Infix"
  | beforeValue => "Prefix"
  | afterValue => "Postfix"
  | assignment => "Assign"

end Fixity

namespace Operator

def entries : List Operator :=
  [plus, minus, star, slash, percent, starStar,
    plusPlus, minusMinus,
    assign, plusAssign, minusAssign, starAssign, slashAssign, percentAssign, starStarAssign,
    ampersandAssign, pipeAssign, caretAssign, shiftLeftAssign, shiftRightAssign,
    shiftRightArithAssign,
    equal, notEqual, less, lessEqual, greater, greaterEqual,
    ampersand, pipe, caret, tilde, shiftLeft, shiftRight, shiftRightArith,
    and, or, xor, not,
    is, isNot,
    handle]

def name : Operator → String
  | plus => "Plus"
  | minus => "Minus"
  | star => "Star"
  | slash => "Slash"
  | percent => "Percent"
  | starStar => "StarStar"
  | plusPlus => "PlusPlus"
  | minusMinus => "MinusMinus"
  | assign => "Eq"
  | plusAssign => "PlusEq"
  | minusAssign => "MinusEq"
  | starAssign => "StarEq"
  | slashAssign => "SlashEq"
  | percentAssign => "PercentEq"
  | starStarAssign => "StarStarEq"
  | ampersandAssign => "AmpEq"
  | pipeAssign => "PipeEq"
  | caretAssign => "CaretEq"
  | shiftLeftAssign => "ShlEq"
  | shiftRightAssign => "ShrEq"
  | shiftRightArithAssign => "ShrArithEq"
  | equal => "EqEq"
  | notEqual => "NotEq"
  | less => "Lt"
  | lessEqual => "LtEq"
  | greater => "Gt"
  | greaterEqual => "GtEq"
  | ampersand => "Amp"
  | pipe => "Pipe"
  | caret => "Caret"
  | tilde => "Tilde"
  | shiftLeft => "Shl"
  | shiftRight => "Shr"
  | shiftRightArith => "ShrArith"
  | and => "And"
  | or => "Or"
  | xor => "Xor"
  | not => "Not"
  | is => "Is"
  | isNot => "NotIs"
  | handle => "At"

def canonical : Operator → String
  | plus => "+"
  | minus => "-"
  | star => "*"
  | slash => "/"
  | percent => "%"
  | starStar => "**"
  | plusPlus => "++"
  | minusMinus => "--"
  | assign => "="
  | plusAssign => "+="
  | minusAssign => "-="
  | starAssign => "*="
  | slashAssign => "/="
  | percentAssign => "%="
  | starStarAssign => "**="
  | ampersandAssign => "&="
  | pipeAssign => "|="
  | caretAssign => "^="
  | shiftLeftAssign => "<<="
  | shiftRightAssign => ">>="
  | shiftRightArithAssign => ">>>="
  | equal => "=="
  | notEqual => "!="
  | less => "<"
  | lessEqual => "<="
  | greater => ">"
  | greaterEqual => ">="
  | ampersand => "&"
  | pipe => "|"
  | caret => "^"
  | tilde => "~"
  | shiftLeft => "<<"
  | shiftRight => ">>"
  | shiftRightArith => ">>>"
  | and => "&&"
  | or => "||"
  | xor => "^^"
  | not => "!"
  | is => "is"
  | isNot => "!is"
  | handle => "@"

def aliases : Operator → List String
  | and => ["and"]
  | or => ["or"]
  | xor => ["xor"]
  | not => ["not"]
  | _ => []

def fixities : Operator → List Fixity
  | plus | minus => [.betweenTerms, .beforeValue]
  | plusPlus | minusMinus => [.beforeValue, .afterValue]
  | tilde | not | handle => [.beforeValue]
  | assign | plusAssign | minusAssign | starAssign | slashAssign | percentAssign | starStarAssign
  | ampersandAssign | pipeAssign | caretAssign | shiftLeftAssign | shiftRightAssign
  | shiftRightArithAssign => [.assignment]
  | _ => [.betweenTerms]

instance : Lexicon Operator := ⟨entries, name, canonical, aliases⟩

theorem mem_entries (word : Operator) : word ∈ (Lexicon.entries : List Operator) := by
  cases word <;> decide

def hasFixity (word : Operator) (fixity : Fixity) : Bool :=
  word.fixities.contains fixity

/-- Only `is` has a word as its canonical spelling. -/
def isKeywordSpelling (word : Operator) : Bool :=
  word = is

/-- Some spelling consists of letters alone. -/
def hasWordSpelling (word : Operator) : Bool :=
  (Lexicon.spellings word).any fun text => text.toList.all Char.isAlpha

end Operator

end ScriptSyntax
