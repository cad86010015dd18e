import ScriptSyntax.Grammar.Capture
import ScriptSyntax.Grammar.Type

/-!
# Expressions

An expression is a flat row of terms with operators between them; which operator binds tighter is
not decided here.  A condition wraps an expression and its `?` branches, and an assignment wraps a
condition and what is assigned to it.  Assignments and initialization lists take a level of room
each; every rule in between is written over the rules of the level that it runs on.
-/

namespace ScriptSyntax.Grammar

/-- The rules that take a level of room, as they are seen from one level. -/
structure ValueRules where
  room : Nat
  assignment : Parse Unit
  initList : Parse Unit

namespace Parse

/-! ## Arguments and lists -/

/-- An argument, which may be named. -/
def argument (rules : ValueRules) : Parse Unit := do
  let separator := (← peekSecond).kind
  let old := (← read).options.legacyNamedArguments && separator = .assign
  if (← peek).kind.isIdentifier && (separator = .colon || old) then
    node .namedArgument do
      identifier
      if old then diagnose .warning .oldNamedArgument (← peek)
      skip
      rules.assignment
  else rules.assignment

/-- The arguments of a call, with their parentheses, or of an index, without its brackets. -/
def argumentList (rules : ValueRules) (parenthesized : Bool) : Parse Unit :=
  node .argList do
    if parenthesized then coverRequired .openParen
    match (← peek).kind with
    | .closeParen => if parenthesized then cover
    | .closeBracket => if parenthesized then fail (.unexpectedKind .closeBracket)
    | _ =>
        commaSeparated (argument rules)
        if parenthesized then
          if ← nextIs .closeParen then cover else failExpected (.expectedEitherKind .closeParen .comma)

/-- Stands for an element that was left out, over the first byte of what follows it. -/
def emptySlot : Parse Unit :=
  node .undefined do
    widen (.ofLength (← peek).span.start 1)

def listElement (rules : ValueRules) : Parse Unit := do
  match (← peek).kind with
  | .comma | .closeBrace => emptySlot
  | .openBrace => rules.initList
  | _ => rules.assignment

def initListBody (rules : ValueRules) : Parse Unit :=
  node .initList do
    coverRequired .openBrace
    unless ← nextIs .closeBrace do
      commaSeparated (listElement rules)
    if ← nextIs .closeBrace then cover else failExpected (.expectedEitherKind .closeBrace .comma)

/-! ## Values -/

/-- A constant.  Adjacent strings are gathered as children of one constant. -/
def constant : Parse Unit :=
  node .constant do
    let first ← peek
    anchor first
    if first.kind.isString then whileNext (·.kind.isString) (leaf .constant) else skip

def functionCall (rules : ValueRules) : Parse Unit :=
  node .functionCall do
    scope rules.room
    identifier
    argumentList rules true

def variableAccess (room : Nat) : Parse Unit :=
  node .variableAccess do
    scope room
    identifier

def constructCall (rules : ValueRules) : Parse Unit :=
  node .constructCall do
    dataType rules.room { const := false }
    argumentList rules true

def cast (rules : ValueRules) : Parse Unit :=
  node .cast do
    cover
    let _ ← require .less
    dataType rules.room {}
    let _ ← require .greater
    let _ ← require .openParen
    rules.assignment
    coverRequired .closeParen

/-- The type of a lambda's parameter; there is one only if a name follows it. -/
def lambdaParameterType (room : Nat) : Parse Unit := do
  match ← tokensBehind (typeAhead room) with
  | some (after :: _) =>
      if after.kind.isIdentifier then
        dataType room {}
        typeModifier true
  | _ => return

/-- A lambda, whose body is only captured. -/
def lambda (room : Nat) : Parse Unit :=
  node .function do
    cover
    skip
    lambdaParameterType room
    if (← peek).kind.isIdentifier then
      identifier
      whileNext (·.kind = .comma) do
        skip
        lambdaParameterType room
        identifier
    if ← nextIs .closeParen then skip else fail (.expectedKind .closeParen)
    capturedBlock

/-- A value that starts with a name. -/
def namedValue (rules : ValueRules) : Parse Unit := do
  if ← sees lambdaAhead then lambda rules.room
  else if ← sees constructionAhead then constructCall rules
  else if ← sees callAhead then functionCall rules
  else variableAccess rules.room

/-- The value at the core of a term.  The token in the place of a closing parenthesis is covered
whatever it is. -/
def value (rules : ValueRules) : Parse Unit :=
  node .exprValue do
    match (← peek).kind with
    | .keyword .void => mark
    | .keyword .cast => cast rules
    | .openParen =>
        cover
        rules.assignment
        widen (← peek).span
        let _ ← require .closeParen
    | .unterminatedString => fail .unterminatedString
    | kind =>
        if kind.isPrimitiveType then constructCall rules
        else if kind.isIdentifier || kind = .scope then namedValue rules
        else if kind.isConstant then constant
        else failExpected .expectedExpressionValue

/-! ## Terms and expressions -/

def postOperator (rules : ValueRules) : Parse Unit :=
  node .exprPostOp do
    let token ← peek
    anchor token
    match token.kind with
    | .dot =>
        skip
        if (← peekSecond).kind = .openParen then functionCall rules else identifier
    | .openBracket =>
        skip
        argumentList rules false
        coverRequired .closeBracket
    | .openParen => argumentList rules true
    | _ => skip

/-- A value between its operators, or an initialization list with or without its type. -/
def term (rules : ValueRules) : Parse Unit :=
  node .exprTerm do
    if ← sees (typedListAhead rules.room) then
      dataType rules.room { const := false }
      skip
      rules.initList
    else if ← nextIs .openBrace then rules.initList
    else
      whileNext (·.kind.isBeforeValue) (leaf .exprPreOp)
      value rules
      whileNext (·.kind.isAfterValue) (postOperator rules)

def expression (rules : ValueRules) : Parse Unit :=
  node .expression do
    term rules
    whileNext (·.kind.isBinaryOperator) do
      leaf .exprOperator
      term rules

def condition (rules : ValueRules) : Parse Unit :=
  node .condition do
    expression rules
    if ← nextIs .question then
      skip
      rules.assignment
      let _ ← require .colon
      rules.assignment

def assignmentBody (rules : ValueRules) : Parse Unit :=
  node .assignment do
    condition rules
    if (← peek).kind.isAssignment then
      leaf .exprOperator
      rules.assignment

end Parse

open Parse

def valueRules : Nat → ValueRules
  | 0 => ⟨0, tooDeep .assignment, tooDeep .initList⟩
  | room + 1 =>
      ⟨room + 1, deferred fun _ => assignmentBody (valueRules room),
        deferred fun _ => initListBody (valueRules room)⟩

theorem valueRules_room (room : Nat) : (valueRules room).room = room := by
  cases room <;> rfl

namespace Parse

/-! ## Initializers -/

/-- What is assigned to a variable: an initialization list or an assignment. -/
def assignedValue (rules : ValueRules) : Parse Unit := do
  if ← nextIs .openBrace then rules.initList else rules.assignment

/-- An initializer on its own, and what may stand behind it. -/
def initializer (rules : ValueRules) : Parse Unit := do
  match (← peek).kind with
  | .assign =>
      skip
      assignedValue rules
  | .openParen => argumentList rules true
  | _ => failExpected (.expectedOneOfKinds [.assign, .openParen])
  let after := (← peek).kind
  unless after.isEnd || Capture.endsInitializer after do
    fail (.unexpectedKind after)

end Parse

end ScriptSyntax.Grammar
