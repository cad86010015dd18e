import ScriptSyntax.Lexeme.Numeral
import ScriptSyntax.Lexeme.Quotation
import ScriptSyntax.Lexeme.Word
import ScriptSyntax.Source
import ScriptSyntax.Token

/-!
# Lexemes

A source is cut into pieces from left to right.  The first reader that accepts the text decides
the kind and the length of the next piece; a character that no reader accepts is a piece of its
own.  The significant pieces, with their positions, are the tokens.
-/

namespace ScriptSyntax

namespace Lexeme

/-- The kind of the first piece of a text and its length in characters. -/
def classify : List Char → TokenKind × Nat
  | [] => (.endOfSource, 0)
  | text =>
      (blank? text <|> comment? text <|> numeral? text <|> quotation? text <|> identifier? text <|>
        spelling? text).getD (.unrecognized, 1)

end Lexeme

/-- A stretch of source text of one kind. -/
structure Piece where
  kind : TokenKind
  text : Source
  deriving DecidableEq

namespace Piece

def size (piece : Piece) : Nat :=
  piece.text.size

/-- At most `count` pieces from the start of the text. -/
def cut : Nat → Source → List Piece
  | 0, _ => []
  | _, [] => []
  | count + 1, text =>
      let (kind, length) := Lexeme.classify text
      ⟨kind, text.take length⟩ :: cut count (text.drop length)

/-- The tokens of consecutive pieces, the first of which starts at `offset`. -/
def place : Nat → List Piece → List Token
  | _, [] => []
  | offset, piece :: rest =>
      let after := offset + piece.size
      if piece.kind.isTrivia then place after rest
      else ⟨piece.kind, ⟨offset, after⟩, String.ofList piece.text⟩ :: place after rest

end Piece

namespace Source

/-- The pieces of a source.  No piece is empty, so there are at most as many as characters. -/
def pieces (source : Source) : List Piece :=
  Piece.cut source.length source

/-- The significant tokens from a byte offset on.  There are none past the end of the source and
none from inside a character. -/
def tokensFrom (source : Source) (offset : Nat) : List Token :=
  match source.suffix? offset with
  | some rest => Piece.place offset rest.pieces
  | none => []

/-- The significant tokens, followed by the end of the source. -/
def tokens (source : Source) : List Token :=
  source.tokensFrom 0 ++ [Token.endAt source.size]

end Source

end ScriptSyntax
