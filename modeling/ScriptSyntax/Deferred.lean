import ScriptSyntax.Entry

/-!
# Deferred parts

Parsing a script leaves the bodies of its functions and the initializers of its variables captured.
They are parsed afterwards, in the order in which they stand.  The lambdas in them have captured
bodies in turn; those are parsed once everything found before them is done.
-/

namespace ScriptSyntax

/-- A captured block or initializer. -/
structure Deferred where
  isBlock : Bool
  span : Span
  deriving DecidableEq

namespace Deferred

def entry (part : Deferred) : Entry :=
  if part.isBlock then .statementBlock part.span.start else .initializer part.span.start

/-- The part that a node of a script stands for. -/
def ofScriptNode? (node : Node) : Option Deferred :=
  match node.kind with
  | .statementBlock => node.span.map (⟨true, ·⟩)
  | .assignment => node.span.map (⟨false, ·⟩)
  | _ => none

/-- The body of a lambda. -/
def ofLambda? (node : Node) : Option Deferred :=
  if node.kind = .function then
    (node.children.getLast?.filter (·.kind = .statementBlock)).bind fun body =>
      body.span.map (⟨true, ·⟩)
  else none

/-- The parts parsed in order, then the lambda bodies found in them, and so on, as often as
`rounds` says. -/
def parseRounds (options : Options) (source : Source) :
    Nat → List Deferred → List (Deferred × Outcome)
  | 0, _ => []
  | _, [] => []
  | rounds + 1, parts =>
      let done := parts.map fun part => (part, part.entry.parse options source)
      let found := done.flatMap fun (_, outcome) => outcome.root.descendants.filterMap ofLambda?
      done ++ parseRounds options source rounds found

/-- Everything that a script left for later.  The body of a lambda starts behind the start of the
part that it was found in, which bounds the number of rounds. -/
def parseAll (options : Options) (source : Source) (script : Outcome) :
    List (Deferred × Outcome) :=
  parseRounds options source (source.size + 1) (script.root.descendants.filterMap ofScriptNode?)

end Deferred

end ScriptSyntax
