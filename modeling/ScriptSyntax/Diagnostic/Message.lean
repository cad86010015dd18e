import ScriptSyntax.Token

/-!
# Messages

Everything a parse can report, and how it is worded.
-/

namespace ScriptSyntax

/-- A construct that a note can name as the one that was being read. -/
inductive Construct
  | argumentList | expression | initializationList | namespaceBody | statementBlock
  deriving DecidableEq

namespace Construct

def name : Construct → String
  | argumentList => "argument list"
  | expression => "expression"
  | initializationList => "initialization list"
  | namespaceBody => "namespace"
  | statementBlock => "statement block"

end Construct

inductive Message
  | autoNotAllowed
  | expectedConstant
  | expectedDataType
  | expectedExpressionValue
  | expectedIdentifier
  | expectedMethodOrProperty
  | expectedOperator
  | expectedPostOperator
  | expectedPreOperator
  | expectedString
  | maximumNestingDepth
  | oldNamedArgument
  | unterminatedString
  | unexpectedEndOfFile
  | unexpectedVariableDeclaration
  | whileParsing (construct : Construct)
  | expected (what : String)
  | expectedEither (first second : String)
  | expectedOneOf (options : List String)
  | unexpectedToken (what : String)
  | insteadFound (token : Token)
  deriving DecidableEq

namespace Message

/-- What was met in the place of what was expected. -/
def insteadFoundText (token : Token) : String :=
  if token.kind.isIdentifier then s!"Instead found identifier '{token.text}'"
  else if token.kind.isReservedWord then
    s!"Instead found reserved keyword '{token.kind.describe}'"
  else s!"Instead found '{token.kind.describe}'"

def text : Message → String
  | autoNotAllowed => "Auto is not allowed here"
  | expectedConstant => "Expected constant"
  | expectedDataType => "Expected data type"
  | expectedExpressionValue => "Expected expression value"
  | expectedIdentifier => "Expected identifier"
  | expectedMethodOrProperty => "Expected method or property"
  | expectedOperator => "Expected operator"
  | expectedPostOperator => "Expected post operator"
  | expectedPreOperator => "Expected pre operator"
  | expectedString => "Expected string"
  | maximumNestingDepth => "Maximum nesting depth exceeded"
  | oldNamedArgument => "Detected named argument with old syntax"
  | unterminatedString => "Non-terminated string literal"
  | unexpectedEndOfFile => "Unexpected end of file"
  | unexpectedVariableDeclaration => "Unexpected variable declaration"
  | whileParsing construct => s!"While parsing {construct.name}"
  | expected what => s!"Expected '{what}'"
  | expectedEither first second => s!"Expected '{first}' or '{second}'"
  | expectedOneOf options => "Expected one of: " ++ ", ".intercalate options
  | unexpectedToken what => s!"Unexpected token '{what}'"
  | insteadFound token => insteadFoundText token

/-- A kind of token was expected. -/
def expectedKind (kind : TokenKind) : Message :=
  expected kind.describe

def expectedEitherKind (first second : TokenKind) : Message :=
  expectedEither first.describe second.describe

def expectedOneOfKinds (kinds : List TokenKind) : Message :=
  expectedOneOf (kinds.map TokenKind.describe)

def unexpectedKind (kind : TokenKind) : Message :=
  unexpectedToken kind.describe

end Message

end ScriptSyntax
