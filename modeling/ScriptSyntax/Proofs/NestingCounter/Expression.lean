import ScriptSyntax.Proofs.NestingCounter.Type

/-!
# Expressions with counted levels

Assignments and initialization lists go one level further in.
-/

namespace ScriptSyntax.Grammar.Counted

open Parse

/-- The rules that go one level further in.  Nothing nests deeper than there is `fuel`. -/
structure ValueRules where
  fuel : Nat
  assignment : Counted Unit
  initList : Counted Unit

/-! ## Arguments and lists -/

def argument (rules : ValueRules) : Counted Unit := do
  let separator := (← peekSecond).kind
  let old := (← read).options.legacyNamedArguments && separator = .assign
  if (← peek).kind.isIdentifier && (separator = .colon || old) then
    node .namedArgument do
      identifier
      if old then diagnose .warning .oldNamedArgument (← peek)
      skip
      rules.assignment
  else rules.assignment

def argumentList (rules : ValueRules) (parenthesized : Bool) : Counted Unit :=
  node .argList do
    if parenthesized then coverRequired .openParen
    match (← peek).kind with
    | .closeParen => if parenthesized then cover
    | .closeBracket => if parenthesized then fail (.unexpectedKind .closeBracket)
    | _ =>
        commaSeparated (argument rules)
        if parenthesized then
          if ← nextIs .closeParen then cover else failExpected (.expectedEitherKind .closeParen .comma)

def listElement (rules : ValueRules) : Counted Unit := do
  match (← peek).kind with
  | .comma | .closeBrace => emptySlot
  | .openBrace => rules.initList
  | _ => rules.assignment

def initListBody (rules : ValueRules) : Counted Unit :=
  node .initList do
    coverRequired .openBrace
    unless ← nextIs .closeBrace do
      commaSeparated (listElement rules)
    if ← nextIs .closeBrace then cover else failExpected (.expectedEitherKind .closeBrace .comma)

/-! ## Values -/

def functionCall (rules : ValueRules) : Counted Unit :=
  node .functionCall do
    scope rules.fuel
    identifier
    argumentList rules true

def variableAccess (fuel : Nat) : Counted Unit :=
  node .variableAccess do
    scope fuel
    identifier

def constructCall (rules : ValueRules) : Counted Unit :=
  node .constructCall do
    dataType rules.fuel { const := false }
    argumentList rules true

def cast (rules : ValueRules) : Counted Unit :=
  node .cast do
    cover
    let _ ← require .less
    dataType rules.fuel {}
    let _ ← require .greater
    let _ ← require .openParen
    rules.assignment
    coverRequired .closeParen

def lambdaParameterType (fuel : Nat) : Counted Unit := do
  match ← tokensBehind (CountedScan.typeAhead fuel) with
  | some (after :: _) =>
      if after.kind.isIdentifier then
        dataType fuel {}
        typeModifier true
  | _ => return

def lambda (fuel : Nat) : Counted Unit :=
  node .function do
    cover
    skip
    lambdaParameterType fuel
    if (← peek).kind.isIdentifier then
      identifier
      whileNext (·.kind = .comma) do
        skip
        lambdaParameterType fuel
        identifier
    if ← nextIs .closeParen then skip else fail (.expectedKind .closeParen)
    capturedBlock

def namedValue (rules : ValueRules) : Counted Unit := do
  if ← Parse.sees lambdaAhead then lambda rules.fuel
  else if ← Parse.sees constructionAhead then constructCall rules
  else if ← Parse.sees callAhead then functionCall rules
  else variableAccess rules.fuel

def value (rules : ValueRules) : Counted Unit :=
  node .exprValue do
    match (← peek).kind with
    | .keyword .void => mark
    | .keyword .cast => cast rules
    | .openParen =>
        cover
        rules.assignment
        widen (← peek).span
        let _ ← require .closeParen
    | .unterminatedString => fail .unterminatedString
    | kind =>
        if kind.isPrimitiveType then constructCall rules
        else if kind.isIdentifier || kind = .scope then namedValue rules
        else if kind.isConstant then constant
        else failExpected .expectedExpressionValue

/-! ## Terms and expressions -/

def postOperator (rules : ValueRules) : Counted Unit :=
  node .exprPostOp do
    let token ← peek
    anchor token
    match token.kind with
    | .dot =>
        skip
        if (← peekSecond).kind = .openParen then functionCall rules else identifier
    | .openBracket =>
        skip
        argumentList rules false
        coverRequired .closeBracket
    | .openParen => argumentList rules true
    | _ => skip

def term (rules : ValueRules) : Counted Unit :=
  node .exprTerm do
    if ← sees (CountedScan.typedListAhead rules.fuel) then
      dataType rules.fuel { const := false }
      skip
      rules.initList
    else if ← nextIs .openBrace then rules.initList
    else
      whileNext (·.kind.isBeforeValue) (leaf .exprPreOp)
      value rules
      whileNext (·.kind.isAfterValue) (postOperator rules)

def expression (rules : ValueRules) : Counted Unit :=
  node .expression do
    term rules
    whileNext (·.kind.isBinaryOperator) do
      leaf .exprOperator
      term rules

def condition (rules : ValueRules) : Counted Unit :=
  node .condition do
    expression rules
    if ← nextIs .question then
      skip
      rules.assignment
      let _ ← require .colon
      rules.assignment

def assignmentBody (rules : ValueRules) : Counted Unit :=
  node .assignment do
    condition rules
    if (← peek).kind.isAssignment then
      leaf .exprOperator
      rules.assignment

def valueRules : Nat → ValueRules
  | 0 => ⟨0, tooDeep .assignment, tooDeep .initList⟩
  | fuel + 1 =>
      ⟨fuel + 1, nested (tooDeep .assignment) (deferred fun _ => assignmentBody (valueRules fuel)),
        nested (tooDeep .initList) (deferred fun _ => initListBody (valueRules fuel))⟩

/-! ## Initializers -/

def assignedValue (rules : ValueRules) : Counted Unit := do
  if ← nextIs .openBrace then rules.initList else rules.assignment

def initializer (rules : ValueRules) : Counted Unit := do
  match (← peek).kind with
  | .assign =>
      skip
      assignedValue rules
  | .openParen => argumentList rules true
  | _ => failExpected (.expectedOneOfKinds [.assign, .openParen])
  let after := (← peek).kind
  unless after.isEnd || Capture.endsInitializer after do
    fail (.unexpectedKind after)

/-! ## What the counted rules do -/

/-- Each of the counted rules does at the depth what the other one does. -/
class ValuesCount (depth : Nat) (counted : ValueRules) (rules : Grammar.ValueRules) : Prop where
  assignment : Counts depth rules.room counted.assignment rules.assignment
  initList : Counts depth rules.room counted.initList rules.initList

section

set_option synthInstance.maxSize 2000

section

variable {depth room fuel : Nat} [Fact (room < fuel)]

instance : Counts depth room (variableAccess fuel) (Parse.variableAccess room) := by
  unfold variableAccess Parse.variableAccess
  infer_instance

instance : Counts depth room (lambdaParameterType fuel) (Parse.lambdaParameterType room) := by
  have hname (behind : Option (List Token)) : Counts depth room
      (match behind with
        | some (after :: _) => do
            if after.kind.isIdentifier then
              dataType fuel {}
              typeModifier true
        | _ => return : Counted Unit)
      (match behind with
        | some (after :: _) => do
            if after.kind.isIdentifier then
              Parse.dataType room {}
              typeModifier true
        | _ => return) := by
    split <;> infer_instance
  unfold lambdaParameterType Parse.lambdaParameterType
  infer_instance

instance : Counts depth room (lambda fuel) (Parse.lambda room) := by
  unfold lambda Parse.lambda
  infer_instance

end

section

variable {depth : Nat} {counted : ValueRules} {rules : Grammar.ValueRules}
  [Fact (rules.room < counted.fuel)] [h : ValuesCount depth counted rules]

instance : Counts depth rules.room counted.assignment rules.assignment :=
  h.assignment

instance : Counts depth rules.room counted.initList rules.initList :=
  h.initList

instance : Counts depth rules.room (argument counted) (Parse.argument rules) := by
  unfold argument Parse.argument
  infer_instance

instance (parenthesized : Bool) :
    Counts depth rules.room (argumentList counted parenthesized)
      (Parse.argumentList rules parenthesized) := by
  have hkind (kind : TokenKind) : Counts depth rules.room
      (match kind with
        | .closeParen => do if parenthesized then cover
        | .closeBracket => do if parenthesized then fail (.unexpectedKind .closeBracket)
        | _ => do
            commaSeparated (argument counted)
            if parenthesized then
              if ← nextIs .closeParen then cover
              else failExpected (.expectedEitherKind .closeParen .comma) : Counted Unit)
      (match kind with
        | .closeParen => do if parenthesized then cover
        | .closeBracket => do if parenthesized then fail (.unexpectedKind .closeBracket)
        | _ => do
            Parse.commaSeparated (Parse.argument rules)
            if parenthesized then
              if ← nextIs .closeParen then cover
              else failExpected (.expectedEitherKind .closeParen .comma)) := by
    split <;> infer_instance
  unfold argumentList Parse.argumentList
  infer_instance

instance : Counts depth rules.room (listElement counted) (Parse.listElement rules) := by
  have hkind (kind : TokenKind) : Counts depth rules.room
      (match kind with
        | .comma | .closeBrace => (emptySlot : Counted Unit)
        | .openBrace => counted.initList
        | _ => counted.assignment)
      (match kind with
        | .comma | .closeBrace => emptySlot
        | .openBrace => rules.initList
        | _ => rules.assignment) := by
    split <;> infer_instance
  unfold listElement Parse.listElement
  infer_instance

instance : Counts depth rules.room (initListBody counted) (Parse.initListBody rules) := by
  unfold initListBody Parse.initListBody
  infer_instance

instance : Counts depth rules.room (functionCall counted) (Parse.functionCall rules) := by
  unfold functionCall Parse.functionCall
  infer_instance

instance : Counts depth rules.room (constructCall counted) (Parse.constructCall rules) := by
  unfold constructCall Parse.constructCall
  infer_instance

instance : Counts depth rules.room (cast counted) (Parse.cast rules) := by
  unfold cast Parse.cast
  infer_instance

instance : Counts depth rules.room (namedValue counted) (Parse.namedValue rules) := by
  unfold namedValue Parse.namedValue
  infer_instance

instance : Counts depth rules.room (value counted) (Parse.value rules) := by
  have hkind (kind : TokenKind) : Counts depth rules.room
      (match kind with
        | .keyword .void => mark
        | .keyword .cast => cast counted
        | .openParen => do
            cover
            counted.assignment
            widen (← peek).span
            let _ ← require .closeParen
        | .unterminatedString => fail .unterminatedString
        | kind =>
            if kind.isPrimitiveType then constructCall counted
            else if kind.isIdentifier || kind = .scope then namedValue counted
            else if kind.isConstant then constant
            else failExpected .expectedExpressionValue)
      (match kind with
        | .keyword .void => mark
        | .keyword .cast => Parse.cast rules
        | .openParen => do
            cover
            rules.assignment
            widen (← peek).span
            let _ ← require .closeParen
        | .unterminatedString => fail .unterminatedString
        | kind =>
            if kind.isPrimitiveType then Parse.constructCall rules
            else if kind.isIdentifier || kind = .scope then Parse.namedValue rules
            else if kind.isConstant then constant
            else failExpected .expectedExpressionValue) := by
    split <;> infer_instance
  unfold value Parse.value
  infer_instance

instance : Counts depth rules.room (postOperator counted) (Parse.postOperator rules) := by
  have hkind (kind : TokenKind) : Counts depth rules.room
      (match kind with
        | .dot => do
            skip
            if (← peekSecond).kind = .openParen then functionCall counted else identifier
        | .openBracket => do
            skip
            argumentList counted false
            coverRequired .closeBracket
        | .openParen => argumentList counted true
        | _ => skip)
      (match kind with
        | .dot => do
            skip
            if (← peekSecond).kind = .openParen then Parse.functionCall rules else identifier
        | .openBracket => do
            skip
            Parse.argumentList rules false
            coverRequired .closeBracket
        | .openParen => Parse.argumentList rules true
        | _ => skip) := by
    split <;> infer_instance
  unfold postOperator Parse.postOperator
  infer_instance

instance : Counts depth rules.room (term counted) (Parse.term rules) := by
  unfold term Parse.term
  infer_instance

instance : Counts depth rules.room (expression counted) (Parse.expression rules) := by
  unfold expression Parse.expression
  infer_instance

instance : Counts depth rules.room (condition counted) (Parse.condition rules) := by
  unfold condition Parse.condition
  infer_instance

instance : Counts depth rules.room (assignmentBody counted) (Parse.assignmentBody rules) := by
  unfold assignmentBody Parse.assignmentBody
  infer_instance

instance : Counts depth rules.room (assignedValue counted) (Parse.assignedValue rules) := by
  unfold assignedValue Parse.assignedValue
  infer_instance

instance : Counts depth rules.room (initializer counted) (Parse.initializer rules) := by
  have hkind (kind : TokenKind) (rest : Unit → Counted Unit) (rest' : Unit → Parse Unit)
      [∀ done, Counts depth rules.room (rest done) (rest' done)] : Counts depth rules.room
      (match kind with
        | .assign => do
            skip
            let done ← assignedValue counted
            rest done
        | .openParen => do
            let done ← argumentList counted true
            rest done
        | _ => do
            let done ← failExpected (.expectedOneOfKinds [.assign, .openParen])
            rest done)
      (match kind with
        | .assign => do
            skip
            let done ← Parse.assignedValue rules
            rest' done
        | .openParen => do
            let done ← Parse.argumentList rules true
            rest' done
        | _ => do
            let done ← failExpected (.expectedOneOfKinds [.assign, .openParen])
            rest' done) := by
    split <;> infer_instance
  unfold initializer Parse.initializer
  infer_instance

end

theorem valueRules_fuel (fuel : Nat) : (valueRules fuel).fuel = fuel := by
  cases fuel <;> rfl

theorem enough_valueRules {room fuel : Nat} (hfuel : room < fuel) :
    Fact ((Grammar.valueRules room).room < (valueRules fuel).fuel) := by
  rw [valueRules_room, valueRules_fuel]
  exact ⟨hfuel⟩

/-- The levels of assignments and lists. -/
theorem valuesCount_valueRules {depth room fuel : Nat} (hfuel : room < fuel) :
    ValuesCount depth (valueRules fuel) (Grammar.valueRules room) := by
  induction room generalizing depth fuel with
  | zero =>
      obtain ⟨fuel, rfl⟩ : ∃ less, fuel = less + 1 := ⟨fuel - 1, by omega⟩
      exact ⟨counts_nested_zero (tooDeep .assignment) (deferred fun _ => assignmentBody (valueRules fuel)),
        counts_nested_zero (tooDeep .initList) (deferred fun _ => initListBody (valueRules fuel))⟩
  | succ room ih =>
      obtain ⟨fuel, rfl⟩ : ∃ less, fuel = less + 1 := ⟨fuel - 1, by omega⟩
      have hless : room < fuel := by omega
      have hinner : ValuesCount (depth + 1) (valueRules fuel) (Grammar.valueRules room) := ih hless
      have henough := enough_valueRules hless
      have hassignment : Counts (depth + 1) (Grammar.valueRules room).room
        (deferred fun _ => assignmentBody (valueRules fuel))
        (Parse.deferred fun _ => Parse.assignmentBody (Grammar.valueRules room)) := inferInstance
      have hinitList : Counts (depth + 1) (Grammar.valueRules room).room
        (deferred fun _ => initListBody (valueRules fuel))
        (Parse.deferred fun _ => Parse.initListBody (Grammar.valueRules room)) := inferInstance
      rw [valueRules_room] at hassignment hinitList
      exact ⟨counts_nested_succ hassignment, counts_nested_succ hinitList⟩

end

end ScriptSyntax.Grammar.Counted
