import ScriptSyntax.Grammar.Expression
import ScriptSyntax.Grammar.Recovery
import ScriptSyntax.Grammar.Variable

/-!
# Statements

A block is a row of declarations and statements in braces.  A broken one is passed over, and the
block goes on with the next.  Each statement takes a level of room.
-/

namespace ScriptSyntax.Grammar

/-- The rules of one level for statements. -/
structure BlockRules extends ValueRules where
  statement : Parse Unit

/-- What ends the statements of a case label. -/
def endsCase (kind : TokenKind) : Bool :=
  kind = .keyword .case_ || kind = .keyword .default_ || kind = .closeBrace ||
    kind = .keyword .break_

namespace Parse

def localVariable (rules : ValueRules) : Parse Unit :=
  node .declaration do
    dataType rules.room { auto := true }
    variableNames do
      match (← peek).kind with
      | .openParen => argumentList rules true
      | .assign =>
          skip
          assignedValue rules
      | _ => return

/-! ## Blocks -/

/-- A declaration or a statement. -/
def blockItem (rules : BlockRules) : Parse Unit := do
  if ← sees (variableAhead rules.room) then localVariable rules.toValueRules else rules.statement

/-- One item of a block, or the brace that closes it; says whether the block goes on. -/
def blockStep (rules : BlockRules) (start : List Token) : Parse Bool := do
  if ← nextIs .closeBrace then
    cover
    return false
  if (← attempt (blockItem rules)).isNone then
    if (nextStop true (← ahead)).isEmpty then
      goTo []
      failAtEnd .statementBlock start
    recover true
  return true

def block (rules : BlockRules) : Parse Unit :=
  node .statementBlock do
    let start ← ahead
    coverRequired .openBrace
    repeatRule (blockStep rules start)

/-! ## Statements -/

def expressionStatement (rules : BlockRules) : Parse Unit :=
  node .expressionStatement do
    unless ← nextIs .semicolon do rules.assignment
    coverRequired .semicolon

/-- A keyword and a condition in parentheses. -/
def keywordCondition (rules : BlockRules) (keyword : Keyword) : Parse Unit := do
  coverRequired (.keyword keyword)
  let _ ← require .openParen
  rules.assignment
  let _ ← require .closeParen

/-- `break` or `continue`.  The token in the place of the semicolon is covered whatever it is. -/
def jump (kind : NodeKind) : Parse Unit :=
  node kind do
    cover
    widen (← peek).span
    let _ ← require .semicolon

def caseLabel (rules : BlockRules) : Parse Unit :=
  node .case_ do
    let hasValue ← nextIs (.keyword .case_)
    cover
    if hasValue then expression rules.toValueRules
    coverRequired .colon
    whileNext (fun token => !endsCase token.kind) (blockItem rules)
    if ← nextIs (.keyword .break_) then jump .break_

def switchStatement (rules : BlockRules) : Parse Unit :=
  node .switch do
    keywordCondition rules .switch
    let _ ← require .openBrace
    repeatRule do
      match (← peek).kind with
      | .closeBrace =>
          cover
          return false
      | .keyword .case_ | .keyword .default_ =>
          caseLabel rules
          return true
      | _ => failExpected (.expectedOneOfKinds [.keyword .case_, .keyword .default_])

def ifStatement (rules : BlockRules) : Parse Unit :=
  node .if_ do
    keywordCondition rules .if_
    rules.statement
    if ← nextIs (.keyword .else_) then
      skip
      rules.statement

def whileStatement (rules : BlockRules) : Parse Unit :=
  node .while_ do
    keywordCondition rules .while_
    rules.statement

def doStatement (rules : BlockRules) : Parse Unit :=
  node .doWhile do
    cover
    rules.statement
    keywordCondition rules .while_
    coverRequired .semicolon

/-- Each of the steps between the second semicolon and the parenthesis is a statement. -/
def forStatement (rules : BlockRules) : Parse Unit :=
  node .for_ do
    cover
    let _ ← require .openParen
    if ← sees (variableAhead rules.room) then localVariable rules.toValueRules
    else expressionStatement rules
    expressionStatement rules
    unless ← nextIs .closeParen do
      commaSeparated (node .expressionStatement rules.assignment)
    if ← nextIs .closeParen then skip else failExpected (.expectedOneOfKinds [.comma, .closeParen])
    rules.statement

def returnStatement (rules : BlockRules) : Parse Unit :=
  node .return_ do
    cover
    unless ← nextIs .semicolon do rules.assignment
    coverRequired .semicolon

def tryStatement (rules : BlockRules) : Parse Unit :=
  node .tryCatch do
    cover
    block rules
    let _ ← require (.keyword .catch_)
    block rules

/-- A statement, which may not be a declaration. -/
def statementBody (rules : BlockRules) : Parse Unit := do
  match (← peek).kind with
  | .openBrace => block rules
  | .keyword .if_ => ifStatement rules
  | .keyword .for_ => forStatement rules
  | .keyword .while_ => whileStatement rules
  | .keyword .do_ => doStatement rules
  | .keyword .switch => switchStatement rules
  | .keyword .return_ => returnStatement rules
  | .keyword .break_ => jump .break_
  | .keyword .continue_ => jump .continue_
  | .keyword .try_ => tryStatement rules
  | _ =>
      if ← sees (variableAhead rules.room) then fail .unexpectedVariableDeclaration
      else expressionStatement rules

end Parse

open Parse

def blockRules : Nat → BlockRules
  | 0 => { valueRules 0 with statement := fail .maximumNestingDepth }
  | room + 1 =>
      { valueRules (room + 1) with statement := deferred fun _ => statementBody (blockRules room) }

theorem blockRules_toValueRules (room : Nat) : (blockRules room).toValueRules = valueRules room := by
  cases room <;> rfl

theorem blockRules_room (room : Nat) : (blockRules room).room = room := by
  rw [blockRules_toValueRules, valueRules_room]

end ScriptSyntax.Grammar
