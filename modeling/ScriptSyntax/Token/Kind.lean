import ScriptSyntax.Vocabulary.Keyword
import ScriptSyntax.Vocabulary.Operator
import ScriptSyntax.Vocabulary.Punctuation

/-!
# Token kinds

A kind is a word of the vocabulary, an identifier, a constant, a piece of trivia, a character that
starts nothing, or the end of the source.
-/

namespace ScriptSyntax

inductive TokenKind
  | keyword (word : Keyword)
  | operator (word : Operator)
  | punctuation (mark : Punctuation)
  | identifier
  | intConstant | floatConstant | doubleConstant | bitsConstant
  | stringConstant | multilineString | heredocString | unterminatedString
  | whitespace | lineComment | blockComment
  | unrecognized
  | endOfSource
  deriving DecidableEq

namespace TokenKind

def name : TokenKind → String
  | keyword word => s!"Keyword({word.name})"
  | operator word => s!"Operator({word.name})"
  | punctuation mark => s!"Punctuation({mark.name})"
  | identifier => "Identifier"
  | intConstant => "IntConstant"
  | floatConstant => "FloatConstant"
  | doubleConstant => "DoubleConstant"
  | bitsConstant => "BitsConstant"
  | stringConstant => "StringConstant"
  | multilineString => "MultilineStringConstant"
  | heredocString => "HeredocStringConstant"
  | unterminatedString => "NonTerminatedStringConstant"
  | whitespace => "WhiteSpace"
  | lineComment => "OnelineComment"
  | blockComment => "MultilineComment"
  | unrecognized => "Unrecognized"
  | endOfSource => "End"

/-- How messages speak of a kind: the canonical spelling of a word, else a placeholder. -/
def describe : TokenKind → String
  | keyword word => word.canonical
  | operator word => word.canonical
  | punctuation mark => mark.canonical
  | identifier => "<identifier>"
  | intConstant => "<integer constant>"
  | floatConstant => "<float constant>"
  | doubleConstant => "<double constant>"
  | bitsConstant => "<bits constant>"
  | stringConstant => "<string constant>"
  | multilineString => "<multiline string constant>"
  | heredocString => "<heredoc string constant>"
  | unterminatedString => "<nonterminated string constant>"
  | whitespace => "<white space>"
  | lineComment => "<one line comment>"
  | blockComment => "<multiple lines comment>"
  | unrecognized => "<unrecognized token>"
  | endOfSource => "<end of file>"

def isIdentifier (kind : TokenKind) : Bool :=
  kind = identifier

def isEnd (kind : TokenKind) : Bool :=
  kind = endOfSource

/-- Blanks and comments, which stand between the significant tokens. -/
def isTrivia : TokenKind → Bool
  | whitespace | lineComment | blockComment => true
  | _ => false

def isPrimitiveType : TokenKind → Bool
  | keyword word => word.isPrimitiveType
  | _ => false

/-- A terminated string literal. -/
def isString : TokenKind → Bool
  | stringConstant | multilineString | heredocString => true
  | _ => false

/-- A number, a terminated string, `true`, `false` or `null`. -/
def isConstant : TokenKind → Bool
  | intConstant | floatConstant | doubleConstant | bitsConstant => true
  | keyword .true_ | keyword .false_ | keyword .null => true
  | kind => kind.isString

def isBinaryOperator : TokenKind → Bool
  | operator word => word.hasFixity .betweenTerms
  | _ => false

def isAssignment : TokenKind → Bool
  | operator word => word.hasFixity .assignment
  | _ => false

def isBeforeValue : TokenKind → Bool
  | operator word => word.hasFixity .beforeValue
  | _ => false

/-- What may follow a value: `++`, `--`, a member access, an index or a call. -/
def isAfterValue : TokenKind → Bool
  | operator word => word.hasFixity .afterValue
  | punctuation .dot | punctuation .openBracket | punctuation .openParen => true
  | _ => false

/-- Keywords, and the operators that some spelling writes with letters. -/
def isReservedWord : TokenKind → Bool
  | keyword _ => true
  | operator word => word.hasWordSpelling || word = .isNot
  | _ => false

/-- The operators whose text starts with `>`, and which a template list may therefore close with. -/
def startsWithGreater : TokenKind → Bool
  | operator .greater | operator .greaterEqual | operator .shiftRight
  | operator .shiftRightAssign | operator .shiftRightArith
  | operator .shiftRightArithAssign => true
  | _ => false

theorem isConstant_of_isString {kind : TokenKind} (h : kind.isString = true) :
    kind.isConstant = true := by
  cases kind <;> simp_all [isString, isConstant]

@[match_pattern] abbrev semicolon : TokenKind := punctuation .semicolon
@[match_pattern] abbrev comma : TokenKind := punctuation .comma
@[match_pattern] abbrev colon : TokenKind := punctuation .colon
@[match_pattern] abbrev question : TokenKind := punctuation .question
@[match_pattern] abbrev dot : TokenKind := punctuation .dot
@[match_pattern] abbrev scope : TokenKind := punctuation .scope
@[match_pattern] abbrev openParen : TokenKind := punctuation .openParen
@[match_pattern] abbrev closeParen : TokenKind := punctuation .closeParen
@[match_pattern] abbrev openBracket : TokenKind := punctuation .openBracket
@[match_pattern] abbrev closeBracket : TokenKind := punctuation .closeBracket
@[match_pattern] abbrev openBrace : TokenKind := punctuation .openBrace
@[match_pattern] abbrev closeBrace : TokenKind := punctuation .closeBrace
@[match_pattern] abbrev assign : TokenKind := operator .assign
@[match_pattern] abbrev less : TokenKind := operator .less
@[match_pattern] abbrev greater : TokenKind := operator .greater
@[match_pattern] abbrev ampersand : TokenKind := operator .ampersand
@[match_pattern] abbrev handle : TokenKind := operator .handle
@[match_pattern] abbrev plus : TokenKind := operator .plus
@[match_pattern] abbrev tilde : TokenKind := operator .tilde
@[match_pattern] abbrev const : TokenKind := keyword .const

end TokenKind

end ScriptSyntax
