import ScriptSyntax.Lexeme.Trivia

/-!
# Identifiers, words and symbols

A run of letters, digits and underscores is an identifier unless it is exactly a reserved spelling.
Everything else is matched against the spellings of the vocabulary, the longest one winning.
-/

namespace ScriptSyntax.Lexeme

def isWordStart (c : Char) : Bool :=
  c.isAlpha || c == '_'

def isWordPart (c : Char) : Bool :=
  c.isAlphanum || c == '_'

/-- A keyword or an operator in either of its spellings. -/
def isReserved (text : String) : Bool :=
  (Lexicon.spelled text : Option Keyword).isSome ||
    (Lexicon.spelled text : Option Operator).isSome

def identifier? : List Char → Option (TokenKind × Nat)
  | [] => none
  | c :: rest =>
      let length := run isWordPart rest + 1
      if isWordStart c && !isReserved (String.ofList ((c :: rest).take length)) then
        some (.identifier, length)
      else none

/-- Every spelling with the kind of token it makes. -/
def vocabulary : List (List Char × TokenKind) :=
  ((Lexicon.allSpellings Keyword).map fun (text, word) => (text.toList, .keyword word)) ++
    ((Lexicon.allSpellings Operator).map fun (text, word) => (text.toList, .operator word)) ++
    (Lexicon.allSpellings Punctuation).map fun (text, mark) => (text.toList, .punctuation mark)

/-- The spelling ends in a letter or digit and the text after it goes on with the same word. -/
def splitsWord (spelling rest : List Char) : Bool :=
  spelling.getLast?.any Char.isAlphanum && rest.head?.any isWordPart

def spells (text : List Char) (entry : List Char × TokenKind) : Bool :=
  entry.1.isPrefixOf text && !splitsWord entry.1 (text.drop entry.1.length)

def longer (best : Option (TokenKind × Nat)) (entry : List Char × TokenKind) :
    Option (TokenKind × Nat) :=
  match best with
  | some (_, length) => if length ≤ entry.1.length then some (entry.2, entry.1.length) else best
  | none => some (entry.2, entry.1.length)

/-- The longest spelling at the start of the text. -/
def spelling? (text : List Char) : Option (TokenKind × Nat) :=
  (vocabulary.filter (spells text)).foldl longer none

end ScriptSyntax.Lexeme
