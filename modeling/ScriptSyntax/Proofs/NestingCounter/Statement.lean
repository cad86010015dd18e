import ScriptSyntax.Proofs.NestingCounter.Expression

/-!
# Statements with counted levels

Each statement goes one level further in.
-/

namespace ScriptSyntax.Grammar.Counted

open Parse

structure BlockRules extends ValueRules where
  statement : Counted Unit

/-! ## Blocks -/

def variableNames (initializer : Counted Unit) : Counted Unit := do
  commaSeparated do
    identifier
    initializer
  if ← nextIs .semicolon then cover else failExpected (.expectedEitherKind .comma .semicolon)

def localVariable (rules : ValueRules) : Counted Unit :=
  node .declaration do
    dataType rules.fuel { auto := true }
    variableNames do
      match (← peek).kind with
      | .openParen => argumentList rules true
      | .assign =>
          skip
          assignedValue rules
      | _ => return

def blockItem (rules : BlockRules) : Counted Unit := do
  if ← sees (CountedScan.variableAhead rules.fuel) then localVariable rules.toValueRules
  else rules.statement

def blockStep (rules : BlockRules) (start : List Token) : Counted Bool := do
  if ← nextIs .closeBrace then
    cover
    return false
  if (← attempt (blockItem rules)).isNone then
    if (nextStop true (← ahead)).isEmpty then
      goTo []
      failAtEnd .statementBlock start
    recover true
  return true

def block (rules : BlockRules) : Counted Unit :=
  node .statementBlock do
    let start ← ahead
    coverRequired .openBrace
    repeatRule (blockStep rules start)

/-! ## Statements -/

def expressionStatement (rules : BlockRules) : Counted Unit :=
  node .expressionStatement do
    unless ← nextIs .semicolon do rules.assignment
    coverRequired .semicolon

def keywordCondition (rules : BlockRules) (keyword : Keyword) : Counted Unit := do
  coverRequired (.keyword keyword)
  let _ ← require .openParen
  rules.assignment
  let _ ← require .closeParen

def caseLabel (rules : BlockRules) : Counted Unit :=
  node .case_ do
    let hasValue ← nextIs (.keyword .case_)
    cover
    if hasValue then expression rules.toValueRules
    coverRequired .colon
    whileNext (fun token => !endsCase token.kind) (blockItem rules)
    if ← nextIs (.keyword .break_) then jump .break_

def switchStatement (rules : BlockRules) : Counted Unit :=
  node .switch do
    keywordCondition rules .switch
    let _ ← require .openBrace
    repeatRule do
      match (← peek).kind with
      | .closeBrace =>
          cover
          return false
      | .keyword .case_ | .keyword .default_ =>
          caseLabel rules
          return true
      | _ => failExpected (.expectedOneOfKinds [.keyword .case_, .keyword .default_])

def ifStatement (rules : BlockRules) : Counted Unit :=
  node .if_ do
    keywordCondition rules .if_
    rules.statement
    if ← nextIs (.keyword .else_) then
      skip
      rules.statement

def whileStatement (rules : BlockRules) : Counted Unit :=
  node .while_ do
    keywordCondition rules .while_
    rules.statement

def doStatement (rules : BlockRules) : Counted Unit :=
  node .doWhile do
    cover
    rules.statement
    keywordCondition rules .while_
    coverRequired .semicolon

def forStatement (rules : BlockRules) : Counted Unit :=
  node .for_ do
    cover
    let _ ← require .openParen
    if ← sees (CountedScan.variableAhead rules.fuel) then localVariable rules.toValueRules
    else expressionStatement rules
    expressionStatement rules
    unless ← nextIs .closeParen do
      commaSeparated (node .expressionStatement rules.assignment)
    if ← nextIs .closeParen then skip else failExpected (.expectedOneOfKinds [.comma, .closeParen])
    rules.statement

def returnStatement (rules : BlockRules) : Counted Unit :=
  node .return_ do
    cover
    unless ← nextIs .semicolon do rules.assignment
    coverRequired .semicolon

def tryStatement (rules : BlockRules) : Counted Unit :=
  node .tryCatch do
    cover
    block rules
    let _ ← require (.keyword .catch_)
    block rules

def statementBody (rules : BlockRules) : Counted Unit := do
  match (← peek).kind with
  | .openBrace => block rules
  | .keyword .if_ => ifStatement rules
  | .keyword .for_ => forStatement rules
  | .keyword .while_ => whileStatement rules
  | .keyword .do_ => doStatement rules
  | .keyword .switch => switchStatement rules
  | .keyword .return_ => returnStatement rules
  | .keyword .break_ => jump .break_
  | .keyword .continue_ => jump .continue_
  | .keyword .try_ => tryStatement rules
  | _ =>
      if ← sees (CountedScan.variableAhead rules.fuel) then fail .unexpectedVariableDeclaration
      else expressionStatement rules

def blockRules : Nat → BlockRules
  | 0 => { valueRules 0 with statement := fail .maximumNestingDepth }
  | fuel + 1 =>
      { valueRules (fuel + 1) with
        statement := nested (fail .maximumNestingDepth)
          (deferred fun _ => statementBody (blockRules fuel)) }

/-! ## What the counted rules do -/

section

set_option synthInstance.maxSize 8000

instance {depth room : Nat} {counted : Counted Unit} {rule : Parse Unit}
    [Counts depth room counted rule] :
    Counts depth room (variableNames counted) (Parse.variableNames rule) := by
  unfold variableNames Parse.variableNames
  infer_instance

instance {depth : Nat} {counted : ValueRules} {rules : Grammar.ValueRules}
    [Fact (rules.room < counted.fuel)] [ValuesCount depth counted rules] :
    Counts depth rules.room (localVariable counted) (Parse.localVariable rules) := by
  have hkind (kind : TokenKind) : Counts depth rules.room
      (match kind with
        | .openParen => argumentList counted true
        | .assign => do
            skip
            assignedValue counted
        | _ => return)
      (match kind with
        | .openParen => Parse.argumentList rules true
        | .assign => do
            skip
            Parse.assignedValue rules
        | _ => return) := by
    split <;> infer_instance
  unfold localVariable Parse.localVariable
  infer_instance

/-- Each of the counted rules does at the depth what the other one does. -/
class BlocksCount (depth : Nat) (counted : BlockRules) (rules : Grammar.BlockRules) : Prop where
  values : ValuesCount depth counted.toValueRules rules.toValueRules
  statement : Counts depth rules.room counted.statement rules.statement

section

variable {depth : Nat} {counted : BlockRules} {rules : Grammar.BlockRules}
  [Fact (rules.room < counted.fuel)] [h : BlocksCount depth counted rules]

instance : ValuesCount depth counted.toValueRules rules.toValueRules :=
  h.values

instance : Counts depth rules.room counted.statement rules.statement :=
  h.statement

instance : Counts depth rules.room (blockItem counted) (Parse.blockItem rules) := by
  unfold blockItem Parse.blockItem
  infer_instance

instance (start : List Token) :
    Counts depth rules.room (blockStep counted start) (Parse.blockStep rules start) := by
  unfold blockStep Parse.blockStep
  infer_instance

instance : Counts depth rules.room (block counted) (Parse.block rules) := by
  unfold block Parse.block
  infer_instance

instance : Counts depth rules.room (expressionStatement counted) (Parse.expressionStatement rules) := by
  unfold expressionStatement Parse.expressionStatement
  infer_instance

instance (keyword : Keyword) :
    Counts depth rules.room (keywordCondition counted keyword) (Parse.keywordCondition rules keyword) := by
  unfold keywordCondition Parse.keywordCondition
  infer_instance

instance : Counts depth rules.room (caseLabel counted) (Parse.caseLabel rules) := by
  unfold caseLabel Parse.caseLabel
  infer_instance

instance : Counts depth rules.room (switchStatement counted) (Parse.switchStatement rules) := by
  have hkind (kind : TokenKind) : Counts depth rules.room
      (match kind with
        | .closeBrace => do
            cover
            return false
        | .keyword .case_ | .keyword .default_ => do
            caseLabel counted
            return true
        | _ => failExpected (.expectedOneOfKinds [.keyword .case_, .keyword .default_]))
      (match kind with
        | .closeBrace => do
            cover
            return false
        | .keyword .case_ | .keyword .default_ => do
            Parse.caseLabel rules
            return true
        | _ => failExpected (.expectedOneOfKinds [.keyword .case_, .keyword .default_])) := by
    split <;> infer_instance
  unfold switchStatement Parse.switchStatement
  infer_instance

instance : Counts depth rules.room (ifStatement counted) (Parse.ifStatement rules) := by
  unfold ifStatement Parse.ifStatement
  infer_instance

instance : Counts depth rules.room (whileStatement counted) (Parse.whileStatement rules) := by
  unfold whileStatement Parse.whileStatement
  infer_instance

instance : Counts depth rules.room (doStatement counted) (Parse.doStatement rules) := by
  unfold doStatement Parse.doStatement
  infer_instance

instance : Counts depth rules.room (forStatement counted) (Parse.forStatement rules) := by
  unfold forStatement Parse.forStatement
  infer_instance

instance : Counts depth rules.room (returnStatement counted) (Parse.returnStatement rules) := by
  unfold returnStatement Parse.returnStatement
  infer_instance

instance : Counts depth rules.room (tryStatement counted) (Parse.tryStatement rules) := by
  unfold tryStatement Parse.tryStatement
  infer_instance

instance : Counts depth rules.room (statementBody counted) (Parse.statementBody rules) := by
  have hkind (kind : TokenKind) : Counts depth rules.room
      (match kind with
        | .openBrace => block counted
        | .keyword .if_ => ifStatement counted
        | .keyword .for_ => forStatement counted
        | .keyword .while_ => whileStatement counted
        | .keyword .do_ => doStatement counted
        | .keyword .switch => switchStatement counted
        | .keyword .return_ => returnStatement counted
        | .keyword .break_ => jump .break_
        | .keyword .continue_ => jump .continue_
        | .keyword .try_ => tryStatement counted
        | _ => do
            if ← sees (CountedScan.variableAhead counted.fuel) then
              fail .unexpectedVariableDeclaration
            else expressionStatement counted)
      (match kind with
        | .openBrace => Parse.block rules
        | .keyword .if_ => Parse.ifStatement rules
        | .keyword .for_ => Parse.forStatement rules
        | .keyword .while_ => Parse.whileStatement rules
        | .keyword .do_ => Parse.doStatement rules
        | .keyword .switch => Parse.switchStatement rules
        | .keyword .return_ => Parse.returnStatement rules
        | .keyword .break_ => jump .break_
        | .keyword .continue_ => jump .continue_
        | .keyword .try_ => Parse.tryStatement rules
        | _ => do
            if ← Parse.sees (variableAhead rules.room) then fail .unexpectedVariableDeclaration
            else Parse.expressionStatement rules) := by
    split <;> infer_instance
  unfold statementBody Parse.statementBody
  infer_instance

end

theorem blockRules_toValueRules (fuel : Nat) : (blockRules fuel).toValueRules = valueRules fuel := by
  cases fuel <;> rfl

theorem enough_blockRules {room fuel : Nat} (hfuel : room < fuel) :
    Fact ((Grammar.blockRules room).room < (blockRules fuel).fuel) := by
  rw [blockRules_room, blockRules_toValueRules, valueRules_fuel]
  exact ⟨hfuel⟩

/-- The levels of statements. -/
theorem blocksCount_blockRules {depth room fuel : Nat} (hfuel : room < fuel) :
    BlocksCount depth (blockRules fuel) (Grammar.blockRules room) := by
  have hvalues {depth room fuel : Nat} (hfuel : room < fuel) :
      ValuesCount depth (blockRules fuel).toValueRules (Grammar.blockRules room).toValueRules := by
    rw [blockRules_toValueRules, Grammar.blockRules_toValueRules]
    exact valuesCount_valueRules hfuel
  induction room generalizing depth fuel with
  | zero =>
      obtain ⟨fuel, rfl⟩ : ∃ less, fuel = less + 1 := ⟨fuel - 1, by omega⟩
      exact ⟨hvalues hfuel, counts_nested_zero (fail .maximumNestingDepth)
        (deferred fun _ => statementBody (blockRules fuel))⟩
  | succ room ih =>
      obtain ⟨fuel, rfl⟩ : ∃ less, fuel = less + 1 := ⟨fuel - 1, by omega⟩
      have hless : room < fuel := by omega
      have hinner : BlocksCount (depth + 1) (blockRules fuel) (Grammar.blockRules room) := ih hless
      have henough := enough_blockRules hless
      have hstatement : Counts (depth + 1) (Grammar.blockRules room).room
        (deferred fun _ => statementBody (blockRules fuel))
        (Parse.deferred fun _ => Parse.statementBody (Grammar.blockRules room)) := inferInstance
      rw [blockRules_room] at hstatement
      exact ⟨hvalues hfuel, counts_nested_succ hstatement⟩

end

end ScriptSyntax.Grammar.Counted
