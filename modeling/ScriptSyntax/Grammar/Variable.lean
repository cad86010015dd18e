import ScriptSyntax.Grammar.Capture
import ScriptSyntax.Grammar.Type

/-!
# Variables

A declaration is a type and names with initializers.  Those of globals and of class members are
captured; only a class member has an access modifier, and only a class member cannot leave its type
to be inferred.
-/

namespace ScriptSyntax.Grammar.Parse

/-- Names with their initializers, up to and with the semicolon. -/
def variableNames (initializer : Parse Unit) : Parse Unit := do
  commaSeparated do
    identifier
    initializer
  if ← nextIs .semicolon then cover else failExpected (.expectedEitherKind .comma .semicolon)

def laterInitializer : Parse Unit := do
  if (← nextIs .assign) || (← nextIs .openParen) then capturedInitializer

def accessModifier : Parse Unit := do
  if (← peek).isAccessModifier then mark

def globalVariable (room : Nat) : Parse Unit :=
  node .declaration do
    dataType room { auto := true }
    variableNames laterInitializer

def memberVariable (room : Nat) : Parse Unit :=
  node .declaration do
    accessModifier
    dataType room {}
    variableNames laterInitializer

end ScriptSyntax.Grammar.Parse
