import ScriptSyntax.Span
import ScriptSyntax.Token.Kind
import ScriptSyntax.Vocabulary.ContextualWord

/-!
# Tokens

A token is a kind, the span it covers and the text found there.
-/

namespace ScriptSyntax

structure Token where
  kind : TokenKind
  span : Span
  text : String
  deriving DecidableEq

namespace Token

/-- The token that stands for the end of a source. -/
def endAt (offset : Nat) : Token :=
  ⟨.endOfSource, ⟨offset, offset⟩, ""⟩

/-- An identifier spelled as the contextual word. -/
def isWord (token : Token) (word : ContextualWord) : Bool :=
  token.kind.isIdentifier && token.text == word.canonical

/-- An identifier spelled as some contextual word that can play the role. -/
def hasRole (token : Token) (role : ContextualRole) : Bool :=
  token.kind.isIdentifier &&
    (Lexicon.spelled token.text : Option ContextualWord).any (·.hasRole role)

def isAccessModifier (token : Token) : Bool :=
  token.kind = .keyword .private_ || token.kind = .keyword .protected_

/-- A primitive type or any identifier; whether an identifier names a type is not known here. -/
def isTypeName (token : Token) : Bool :=
  token.kind.isIdentifier || token.kind.isPrimitiveType

end Token

end ScriptSyntax
