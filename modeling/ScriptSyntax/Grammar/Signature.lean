import ScriptSyntax.Grammar.Capture
import ScriptSyntax.Grammar.Type

/-!
# Signatures

A signature is a return type, a name and a list of parameters.  The signature of a list factory is
followed by a pattern for the lists it takes.
-/

namespace ScriptSyntax.Grammar

/-- A word that may open a list pattern. -/
def isPatternMarker (token : Token) : Bool :=
  token.isWord .repeat_ || token.isWord .repeatSame

namespace Parse

def returnType (room : Nat) : Parse Unit := do
  dataType room {}
  typeModifier false

/-- A type, then perhaps a name and a default argument. -/
def parameter (room : Nat) : Parse Unit := do
  dataType room { anyType := (← read).application }
  typeModifier true
  if (← peek).kind.isIdentifier then identifier
  if ← nextIs .assign then
    skip
    defaultArgument

/-- Parameters in parentheses.  A single `void` stands for none. -/
def parameterList (room : Nat) : Parse Unit :=
  node .parameterList do
    coverRequired .openParen
    if ← nextIs .closeParen then cover
    else if (← nextIs (.keyword .void)) && (← peekSecond).kind = .closeParen then
      skip
      cover
    else
      commaSeparated (parameter room)
      if ← nextIs .closeParen then cover else failExpected (.expectedEitherKind .closeParen .comma)

def methodAttributes : Parse Unit :=
  whileNext (·.hasRole .methodAttribute) identifier

def signature (room : Nat) : Parse Unit := do
  returnType room
  scope room
  identifier
  parameterList room
  markIf .const
  methodAttributes

def functionSignature (room : Nat) : Parse Unit :=
  node .function (signature room)

/-! ## List patterns -/

/-- One element of a list pattern.  The node covers its first token even if that may not stand
there. -/
def patternElement (room : Nat) (nested : Parse Unit) (start : List Token) : Parse Unit := do
  let token ← peek
  widen token.span
  match token.kind with
  | .closeBrace | .comma => failExpected .expectedDataType
  | .endOfSource => failAtEnd .statementBlock start
  | .openBrace => nested
  | _ =>
      if isPatternMarker token then fail (.unexpectedToken token.text)
      else dataType room { anyType := true }

/-- What follows an element; says whether there is another one. -/
def patternSeparator (start : List Token) : Parse Bool := do
  let token ← peek
  widen token.span
  match token.kind with
  | .closeBrace =>
      skip
      return false
  | .comma =>
      skip
      return true
  | .endOfSource => failAtEnd .statementBlock start
  | _ =>
      if isPatternMarker token then fail (.unexpectedToken token.text)
      else failExpected (.expectedEitherKind .comma .closeBrace)

def listPatternBody (room : Nat) (nested : Parse Unit) : Parse Unit :=
  node .listPattern do
    let start ← ahead
    coverRequired .openBrace
    if isPatternMarker (← peek) then identifier
    repeatRule do
      patternElement room nested start
      patternSeparator start

/-- Types and nested patterns in braces. -/
def listPattern : Nat → Parse Unit
  | 0 => tooDeep .listPattern
  | room + 1 => deferred fun _ => listPatternBody room (listPattern room)

end Parse

end ScriptSyntax.Grammar
