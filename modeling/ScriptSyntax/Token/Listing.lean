import ScriptSyntax.Lexeme
import ScriptSyntax.Text.Quoted

/-!
# Token listings

One line for each token of a source: its kind, its span and its quoted text.
-/

namespace ScriptSyntax

def Token.listingLine (token : Token) : List Char :=
  s!"{token.kind.name} {token.span.start}..{token.span.stop} ".toList ++
    Text.quote token.text.toList ++ ['\n']

def Source.listing (source : Source) : List Char :=
  source.tokens.flatMap Token.listingLine

end ScriptSyntax
