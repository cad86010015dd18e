import ScriptSyntax.Vocabulary.Lexicon

/-!
# Punctuation

Delimiters, separators and access marks.  Each mark has one spelling.
-/

namespace ScriptSyntax

inductive Punctuation
  | semicolon | comma | colon | question | dot | scope
  | openParen | closeParen | openBracket | closeBracket | openBrace | closeBrace
  deriving DecidableEq

inductive PunctuationCategory
  | delimiter | separator | access | marker
  deriving DecidableEq

namespace PunctuationCategory

def name : PunctuationCategory → String
  | delimiter => "Delimiter"
  | separator => "Separator"
  | access => "Access"
  | marker => "Marker"

end PunctuationCategory

namespace Punctuation

def entries : List Punctuation :=
  [semicolon, comma, colon, question, dot, scope,
    openParen, closeParen, openBracket, closeBracket, openBrace, closeBrace]

def name : Punctuation → String
  | semicolon => "Semicolon"
  | comma => "Comma"
  | colon => "Colon"
  | question => "Question"
  | dot => "Dot"
  | scope => "ColonColon"
  | openParen => "LParen"
  | closeParen => "RParen"
  | openBracket => "LBracket"
  | closeBracket => "RBracket"
  | openBrace => "LBrace"
  | closeBrace => "RBrace"

def canonical : Punctuation → String
  | semicolon => ";"
  | comma => ","
  | colon => ":"
  | question => "?"
  | dot => "."
  | scope => "::"
  | openParen => "("
  | closeParen => ")"
  | openBracket => "["
  | closeBracket => "]"
  | openBrace => "\x7b"
  | closeBrace => "\x7d"

def category : Punctuation → PunctuationCategory
  | semicolon | comma | colon => .separator
  | question => .marker
  | dot | scope => .access
  | openParen | closeParen | openBracket | closeBracket | openBrace | closeBrace => .delimiter

instance : Lexicon Punctuation := ⟨entries, name, canonical, fun _ => []⟩

theorem mem_entries (word : Punctuation) : word ∈ (Lexicon.entries : List Punctuation) := by
  cases word <;> decide

end Punctuation

end ScriptSyntax
