import ScriptSyntax.Diagnostic
import ScriptSyntax.Diagnostic.LineIndex
import ScriptSyntax.Diagnostic.Message
import ScriptSyntax.Lexeme
import ScriptSyntax.Node
import ScriptSyntax.Options

/-!
# Grammar rules

A grammar rule reads the tokens ahead, adds to the node that is being built and reports what is
wrong.  Reporting an error stops the rule and every rule around it, up to the nearest one that
recovers; each node that was being built on the way is kept as far as it got.
-/

namespace ScriptSyntax.Grammar

/-- What stays the same while one source is parsed. -/
structure Setting where
  source : Source
  options : Options
  lines : LineIndex
  /-- The token that stands behind the last one. -/
  finish : Token
  /-- In a signature registered by an application `?` is a parameter type. -/
  application : Bool

structure Session where
  /-- The tokens that have not been consumed. -/
  ahead : List Token
  diagnostics : Diagnostics
  /-- The node that is being built. -/
  building : Node

/-- Why a rule ends early. -/
inductive Interruption
  | syntaxError
  deriving DecidableEq

abbrev Parse := ReaderT Setting (ExceptT Interruption (StateM Session))

/-- The number of bytes that the tokens take together. -/
def byteCount (tokens : List Token) : Nat :=
  tokens.foldr (fun token total => token.span.length + total) 0

@[simp] theorem byteCount_cons (token : Token) (rest : List Token) :
    byteCount (token :: rest) = token.span.length + byteCount rest := rfl

@[simp] theorem byteCount_append (first second : List Token) :
    byteCount (first ++ second) = byteCount first + byteCount second := by
  induction first with
  | nil => simp [byteCount]
  | cons token rest ih => rw [List.cons_append, byteCount_cons, byteCount_cons, ih, Nat.add_assoc]

/-- A list of template arguments may be closed by the first byte of any token that starts with
`>`.  What is left of `>>` is always `>`; what is left of a longer token, or of `>=`, is read anew
together with the text after it. -/
def Setting.afterGreater? (setting : Setting) : List Token → Option (List Token)
  | [] => none
  | token :: rest =>
      let next := token.span.start + 1
      match token.kind with
      | .greater => some rest
      | .operator .shiftRight => some (⟨.greater, ⟨next, token.span.stop⟩, ">"⟩ :: rest)
      | kind =>
          if kind.startsWithGreater then some (setting.source.tokensFrom next) else none

def Setting.isTemplateName (setting : Setting) (token : Token) : Bool :=
  token.kind.isIdentifier && setting.options.isTemplateType token.text

namespace Parse

variable {α σ : Type}

/-! ## Tokens -/

def ahead : Parse (List Token) :=
  return (← get).ahead

/-- Go back or forth to other tokens. -/
def goTo (tokens : List Token) : Parse Unit :=
  modify fun session => { session with ahead := tokens }

/-- The next token, which stays where it is. -/
def peek : Parse Token :=
  return (← ahead).headD (← read).finish

/-- The token after the next one. -/
def peekSecond : Parse Token :=
  return (← ahead).tail.headD (← read).finish

def skip : Parse Unit :=
  modify fun session => { session with ahead := session.ahead.tail }

def next : Parse Token := do
  let token ← peek
  skip
  return token

def nextIs (kind : TokenKind) : Parse Bool :=
  return (← peek).kind = kind

/-! ## Reports -/

def diagnose (severity : Severity) (message : Message) (token : Token) : Parse Unit := do
  let lines := (← read).lines
  let start := token.span.start
  modify fun session =>
    { session with
      diagnostics := session.diagnostics.push
        ⟨severity, message.text, token.span, lines.row start, lines.column start⟩ }

def interrupt : Parse α :=
  throw .syntaxError

/-- Report an error at the next token. -/
def fail (message : Message) : Parse α := do
  diagnose .error message (← peek)
  interrupt

/-- Report at the next token what was expected, and what stands there instead. -/
def reportExpected (message : Message) : Parse Unit := do
  let found ← peek
  diagnose .error message found
  diagnose .error (.insteadFound found) found

def failExpected (message : Message) : Parse α := do
  reportExpected message
  interrupt

/-- Go back to where a construct started and name it. -/
def failInside (construct : Construct) (start : List Token) : Parse α := do
  goTo start
  diagnose .info (.whileParsing construct) (← peek)
  interrupt

/-- Report that the source ended inside a construct. -/
def failAtEnd (construct : Construct) (start : List Token) : Parse α := do
  diagnose .error .unexpectedEndOfFile (← peek)
  failInside construct start

/-- Consume a token of one kind. -/
def require (kind : TokenKind) : Parse Token := do
  if ← nextIs kind then next else failExpected (.expectedKind kind)

/-! ## Nodes -/

/-- Grow the node that is being built. -/
def widen (span : Span) : Parse Unit :=
  modify fun session => { session with building := session.building.widen span }

def anchor (token : Token) : Parse Unit :=
  modify fun session => { session with building := session.building.anchor token }

/-- Build a node and make it the last child of the one around it, also when its rule stops
early. -/
def node (kind : NodeKind) (rule : Parse α) : Parse α := fun setting session =>
  let (result, inner) := rule setting { session with building := .empty kind }
  (result, { inner with building := session.building.append inner.building })

/-- A node over the next token. -/
def leaf (kind : NodeKind) : Parse Unit :=
  node kind do anchor (← next)

/-- A node without a kind of its own over the next token. -/
def mark : Parse Unit :=
  leaf .undefined

/-- A mark over the next token if it is of the kind. -/
def markIf (kind : TokenKind) : Parse Unit := do
  if ← nextIs kind then mark

/-- Cover the next token and consume it. -/
def cover : Parse Unit := do
  widen (← next).span

/-- Consume a token of one kind and cover it. -/
def coverRequired (kind : TokenKind) : Parse Unit := do
  widen (← require kind).span

def identifier : Parse Unit :=
  node .identifier do
    if (← peek).kind.isIdentifier then anchor (← next) else failExpected .expectedIdentifier

/-! ## Control -/

/-- A rule that is only looked at when it runs. -/
def deferred (rule : Unit → Parse α) : Parse α := fun setting =>
  rule () setting

/-- Whether the rule came to its end. -/
def attempt (rule : Parse α) : Parse (Option α) :=
  try return some (← rule) catch _ => return none

/-- Runs the body at most `count` times, as long as it asks to be run again. -/
def repeatUpTo : Nat → Parse Bool → Parse Unit
  | 0, _ => return
  | count + 1, body => do
      if ← body then repeatUpTo count body

/-- Runs the body as long as it asks to be run again.  Each run but the last consumes text, which
bounds their number. -/
def repeatRule (body : Parse Bool) : Parse Unit := do
  repeatUpTo (byteCount (← ahead) + 1) body

/-- An item, then more of them for as long as a comma follows. -/
def commaSeparated (item : Parse Unit) : Parse Unit :=
  repeatRule do
    item
    if ← nextIs .comma then
      skip
      return true
    else return false

/-- What stands for a construct that is nested too deeply. -/
def tooDeep (kind : NodeKind) : Parse Unit :=
  node kind (fail .maximumNestingDepth)

/-- Runs the rule as long as the test holds of the next token. -/
def whileNext (test : Token → Bool) (rule : Parse Unit) : Parse Unit :=
  repeatRule do
    if test (← peek) then
      rule
      return true
    else return false

end Parse

end ScriptSyntax.Grammar
