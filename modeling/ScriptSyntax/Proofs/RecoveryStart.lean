import ScriptSyntax.Proofs.Advance

/-!
# Where recovery starts

A rule that ends early has just reported something, and what it reported last stands at the token
that comes next.  So the text that recovery passes over starts with the token that was reported.
Only the keyword of a namespace is different: a modifier in its place is reported and then kept as
the name of the namespace, and recovery starts one token further on.
-/

namespace ScriptSyntax.Grammar

/-- What was reported last is no warning, and it stands at the given place. -/
def Session.HaltedAt (span : Span) (session : Session) : Prop :=
  ∃ report, session.diagnostics.reported.getLast? = some report ∧ report.severity ≠ .warning ∧
    report.span = span

/-- What was reported last stands at the next token. -/
def Setting.Halted (setting : Setting) (session : Session) : Prop :=
  session.HaltedAt (setting.head session).span

namespace Parse

variable {α β : Type}

/-- Where the rule ends early, it has just reported the token that comes next. -/
class Halts (rule : Parse α) : Prop where
  halted : ∀ setting session interruption after,
    rule setting session = (.error interruption, after) → setting.Halted after

/-! ## Building blocks -/

theorem bind_error {rule : Parse α} {next : α → Parse β} {setting : Setting}
    {session after : Session} {interruption : Interruption}
    (h : (rule >>= next) setting session = (.error interruption, after)) :
    rule setting session = (.error interruption, after) ∨
      ∃ value middle, rule setting session = (.ok value, middle) ∧
        next value setting middle = (.error interruption, after) := by
  rw [bind_run] at h
  rcases hfirst : rule setting session with ⟨stopped | value, middle⟩ <;> rw [hfirst] at h
  · cases h
    exact .inl rfl
  · exact .inr ⟨value, middle, rfl, h⟩

theorem node_error {kind : NodeKind} {rule : Parse α} {setting : Setting}
    {session after : Session} {interruption : Interruption}
    (h : node kind rule setting session = (.error interruption, after)) :
    ∃ inner, rule setting { session with building := .empty kind } = (.error interruption, inner) ∧
      after = { inner with building := session.building.append inner.building } := by
  obtain ⟨herror, hafter⟩ := Prod.mk.inj h
  exact ⟨_, Prod.ext herror rfl, hafter.symm⟩

theorem halts_of_ok {rule : Parse α}
    (h : ∀ setting session, ∃ value after, rule setting session = (.ok value, after)) :
    Halts rule := by
  constructor
  intro setting session interruption after hrun
  obtain ⟨value, other, hvalue⟩ := h setting session
  rw [hvalue] at hrun
  cases hrun

theorem haltedAt_reported (setting : Setting) {severity : Severity} (message : Message)
    (token : Token) (session : Session) (hseverity : severity ≠ .warning) :
    (reported setting severity message token session).HaltedAt token.span := by
  refine ⟨_, List.getLast?_concat, ?_, ?_⟩
  · exact hseverity
  · rfl

instance (value : α) : Halts (pure value) :=
  halts_of_ok fun _ _ => ⟨_, _, rfl⟩

theorem Halts.bind {rule : Parse α} {next : α → Parse β} (hrule : Halts rule)
    (hnext : ∀ value, Halts (next value)) : Halts (rule >>= next) := by
  constructor
  intro setting session interruption after hrun
  rcases bind_error hrun with hfirst | ⟨value, middle, -, hsecond⟩
  · exact hrule.halted setting session interruption after hfirst
  · exact (hnext value).halted setting middle interruption after hsecond

instance (rule : Parse α) (next : α → Parse β) [Halts rule] [∀ value, Halts (next value)] :
    Halts (rule >>= next) :=
  .bind inferInstance inferInstance

instance (condition : Prop) [Decidable condition] (rule other : Parse α) [Halts rule]
    [Halts other] : Halts (if condition then rule else other) := by
  split <;> infer_instance

instance : Halts (read : Parse Setting) :=
  halts_of_ok fun _ _ => ⟨_, _, rfl⟩

instance : Halts ahead :=
  halts_of_ok fun _ _ => ⟨_, _, rfl⟩

instance : Halts peek :=
  halts_of_ok fun _ _ => ⟨_, _, rfl⟩

instance : Halts peekSecond :=
  halts_of_ok fun _ _ => ⟨_, _, rfl⟩

instance (kind : TokenKind) : Halts (nextIs kind) :=
  halts_of_ok fun _ _ => ⟨_, _, rfl⟩

instance (scan : Scan Unit) : Halts (sees scan) :=
  halts_of_ok fun _ _ => ⟨_, _, rfl⟩

instance (scan : Scan Unit) : Halts (tokensBehind scan) :=
  halts_of_ok fun _ _ => ⟨_, _, rfl⟩

instance (tokens : List Token) : Halts (goTo tokens) :=
  halts_of_ok fun _ _ => ⟨_, _, rfl⟩

instance : Halts skip :=
  halts_of_ok fun _ _ => ⟨_, _, rfl⟩

instance : Halts next :=
  halts_of_ok fun _ _ => ⟨_, _, rfl⟩

instance (span : Span) : Halts (widen span) :=
  halts_of_ok fun _ _ => ⟨_, _, rfl⟩

instance (token : Token) : Halts (anchor token) :=
  halts_of_ok fun _ _ => ⟨_, _, rfl⟩

instance (severity : Severity) (message : Message) (token : Token) :
    Halts (diagnose severity message token) :=
  halts_of_ok fun _ _ => ⟨_, _, rfl⟩

instance (message : Message) : Halts (reportExpected message) :=
  halts_of_ok fun _ _ => ⟨_, _, rfl⟩

instance (message : Message) : Halts (fail message : Parse α) := by
  constructor
  intro setting session interruption after hrun
  cases hrun
  exact haltedAt_reported setting message (setting.head session) session (by decide)

instance (message : Message) : Halts (failExpected message : Parse α) := by
  constructor
  intro setting session interruption after hrun
  cases hrun
  exact haltedAt_reported setting (.insteadFound (setting.head session)) (setting.head session) _
    (by decide)

/-- The construct is named where it starts, and there the rule goes back to. -/
instance (construct : Construct) (start : List Token) :
    Halts (failInside construct start : Parse α) := by
  constructor
  intro setting session interruption after hrun
  cases hrun
  exact haltedAt_reported setting (.whileParsing construct) (start.headD setting.finish) _
    (by decide)

instance (construct : Construct) (start : List Token) :
    Halts (failAtEnd construct start : Parse α) := by
  unfold failAtEnd
  infer_instance

instance (rule : Unit → Parse α) [h : Halts (rule ())] : Halts (deferred rule) :=
  ⟨fun setting => h.halted setting⟩

instance (kind : NodeKind) (rule : Parse α) [h : Halts rule] : Halts (node kind rule) := by
  constructor
  intro setting session interruption after hrun
  obtain ⟨inner, hinner, rfl⟩ := node_error hrun
  exact h.halted setting _ interruption inner hinner

/-- What stops inside goes on outside. -/
instance (rule : Parse α) : Halts (attempt rule) := by
  refine halts_of_ok fun setting session => ?_
  rw [attempt_run]
  split <;> exact ⟨_, _, rfl⟩

instance (count : Nat) (body : Parse Bool) [Halts body] : Halts (repeatUpTo count body) := by
  induction count with
  | zero => exact inferInstanceAs (Halts (pure ()))
  | succ count ih =>
      unfold repeatUpTo
      infer_instance

instance (body : Parse Bool) [Halts body] : Halts (repeatRule body) := by
  unfold repeatRule
  infer_instance

instance (item : Parse Unit) [Halts item] : Halts (commaSeparated item) := by
  unfold commaSeparated
  infer_instance

instance (test : Token → Bool) (rule : Parse Unit) [Halts rule] : Halts (whileNext test rule) := by
  unfold whileNext
  infer_instance

instance (kind : TokenKind) : Halts (require kind) := by
  unfold require
  infer_instance

instance : Halts cover := by
  unfold cover
  infer_instance

instance (kind : TokenKind) : Halts (coverRequired kind) := by
  unfold coverRequired
  infer_instance

instance (kind : NodeKind) : Halts (leaf kind) := by
  unfold leaf
  infer_instance

instance : Halts mark := by
  unfold mark
  infer_instance

instance (kind : TokenKind) : Halts (markIf kind) := by
  unfold markIf
  infer_instance

instance : Halts identifier := by
  unfold identifier
  infer_instance

instance (kind : NodeKind) : Halts (tooDeep kind) := by
  unfold tooDeep
  infer_instance

instance (inBraces : Bool) : Halts (recover inBraces) := by
  unfold recover
  infer_instance

instance (inBraces : Bool) (rule : Parse Unit) : Halts (recovering inBraces rule) := by
  unfold recovering
  infer_instance

/-! ## Captured text -/

instance (tokens : List Token) : Halts (tokens.forM fun token => widen token.span) :=
  halts_of_ok fun setting session => ⟨_, _, widen_all_run tokens setting session⟩

instance (construct : Construct) (start : List Token) (captured : Capture) :
    Halts (capture construct start captured) := by
  have hending : Halts (match captured.ending with
      | .complete => pure ()
      | .fault message => fail message
      | .endOfSource => failAtEnd construct start) := by
    split <;> infer_instance
  unfold capture
  infer_instance

instance : Halts defaultArgument := by
  unfold defaultArgument
  infer_instance

instance : Halts capturedInitializer := by
  have htext (kind : TokenKind) : Halts (match kind with
      | .assign => do
          skip
          if Capture.endsInitializer (← peek).kind then failExpected .expectedExpressionValue
          let start ← ahead
          capture .expression start (.initializer 0 0 start)
      | .openParen => do
          let start ← ahead
          capture .argumentList start (.group .openParen .closeParen 0 start.tail)
      | _ => failExpected (.expectedOneOfKinds [.assign, .openParen])) := by
    split <;> infer_instance
  unfold capturedInitializer
  infer_instance

instance : Halts capturedBlock := by
  unfold capturedBlock
  infer_instance

/-! ## Types -/

section

set_option synthInstance.maxSize 2000

instance (forms : TypeForms) : Halts (typeName forms) := by
  unfold typeName
  infer_instance

instance (argument : Parse Unit) [Halts argument] : Halts (templateArguments argument) := by
  have hclosing (rest? : Option (List Token)) : Halts (match rest? with
      | some rest => do
          widen (.ofLength (← peek).span.start 1)
          goTo rest
      | none => failExpected (.expectedKind .greater)) := by
    split <;> infer_instance
  unfold templateArguments
  infer_instance

instance (room : Nat) (argument : Parse Unit) [Halts argument] :
    Halts (scopeOver room argument) := by
  unfold scopeOver
  infer_instance

instance : Halts typeSuffixes := by
  have hsuffix (kind : TokenKind) : Halts (match kind with
      | .openBracket => do
          mark
          coverRequired .closeBracket
          return true
      | .handle => do
          mark
          markIf .const
          return true
      | _ => pure false) := by
    split <;> infer_instance
  unfold typeSuffixes
  infer_instance

instance (room : Nat) (argument : Parse Unit) (forms : TypeForms) [Halts argument] :
    Halts (typeBody room argument forms) := by
  unfold typeBody
  infer_instance

instance (room : Nat) (forms : TypeForms) : Halts (dataType room forms) := by
  induction room generalizing forms with
  | zero => exact inferInstanceAs (Halts (tooDeep _))
  | succ room ih => exact inferInstanceAs (Halts (deferred _))

instance (room : Nat) : Halts (scope room) := by
  unfold scope
  infer_instance

instance (ofParameter : Bool) : Halts (typeModifier ofParameter) := by
  unfold typeModifier
  infer_instance

/-! ## Expressions -/

instance : Halts emptySlot := by
  unfold emptySlot
  infer_instance

instance : Halts constant := by
  unfold constant
  infer_instance

instance (room : Nat) : Halts (variableAccess room) := by
  unfold variableAccess
  infer_instance

instance (room : Nat) : Halts (lambdaParameterType room) := by
  unfold lambdaParameterType
  refine .bind inferInstance ?_
  intro behind
  split <;> infer_instance

instance (room : Nat) : Halts (lambda room) := by
  unfold lambda
  infer_instance

section Values

variable (rules : ValueRules) [Halts rules.assignment] [Halts rules.initList]

instance : Halts (argument rules) := by
  unfold argument
  infer_instance

instance (parenthesized : Bool) : Halts (argumentList rules parenthesized) := by
  have harguments (kind : TokenKind) : Halts (match kind with
      | .closeParen => do if parenthesized then cover
      | .closeBracket => do if parenthesized then fail (.unexpectedKind .closeBracket)
      | _ => do
          commaSeparated (argument rules)
          if parenthesized then
            if ← nextIs .closeParen then cover
            else failExpected (.expectedEitherKind .closeParen .comma)) := by
    split <;> infer_instance
  unfold argumentList
  infer_instance

instance : Halts (listElement rules) := by
  unfold listElement
  refine .bind inferInstance ?_
  intro token
  split <;> infer_instance

instance : Halts (initListBody rules) := by
  unfold initListBody
  infer_instance

instance : Halts (functionCall rules) := by
  unfold functionCall
  infer_instance

instance : Halts (constructCall rules) := by
  unfold constructCall
  infer_instance

instance : Halts (cast rules) := by
  unfold cast
  infer_instance

instance : Halts (namedValue rules) := by
  unfold namedValue
  infer_instance

instance : Halts (value rules) := by
  have hkind (kind : TokenKind) : Halts (match kind with
      | .keyword .void => mark
      | .keyword .cast => cast rules
      | .openParen => do
          cover
          rules.assignment
          widen (← peek).span
          let _ ← require .closeParen
      | .unterminatedString => fail .unterminatedString
      | kind =>
          if kind.isPrimitiveType then constructCall rules
          else if kind.isIdentifier || kind = .scope then namedValue rules
          else if kind.isConstant then constant
          else failExpected .expectedExpressionValue) := by
    split <;> infer_instance
  unfold value
  infer_instance

instance : Halts (postOperator rules) := by
  have hkind (kind : TokenKind) : Halts (match kind with
      | .dot => do
          skip
          if (← peekSecond).kind = .openParen then functionCall rules else identifier
      | .openBracket => do
          skip
          argumentList rules false
          coverRequired .closeBracket
      | .openParen => argumentList rules true
      | _ => skip) := by
    split <;> infer_instance
  unfold postOperator
  infer_instance

instance : Halts (term rules) := by
  unfold term
  infer_instance

instance : Halts (expression rules) := by
  unfold expression
  infer_instance

instance : Halts (condition rules) := by
  unfold condition
  infer_instance

instance : Halts (assignmentBody rules) := by
  unfold assignmentBody
  infer_instance

instance : Halts (assignedValue rules) := by
  unfold assignedValue
  infer_instance

instance (initializer : Parse Unit) [Halts initializer] : Halts (variableNames initializer) := by
  unfold variableNames
  infer_instance

instance : Halts (localVariable rules) := by
  have hkind (kind : TokenKind) : Halts (match kind with
      | .openParen => argumentList rules true
      | .assign => do
          skip
          assignedValue rules
      | _ => return) := by
    split <;> infer_instance
  unfold localVariable
  infer_instance

end Values

theorem valueRules_halts (room : Nat) :
    Halts (valueRules room).assignment ∧ Halts (valueRules room).initList := by
  induction room with
  | zero => exact ⟨inferInstanceAs (Halts (tooDeep _)), inferInstanceAs (Halts (tooDeep _))⟩
  | succ room ih =>
      obtain ⟨hassignment, hlist⟩ := ih
      exact ⟨inferInstanceAs (Halts (deferred fun _ => assignmentBody (valueRules room))),
        inferInstanceAs (Halts (deferred fun _ => initListBody (valueRules room)))⟩

/-! ## Statements -/

section Statements

variable (rules : BlockRules) [Halts rules.assignment] [Halts rules.initList]
  [Halts rules.statement]

instance : Halts (blockItem rules) := by
  unfold blockItem
  infer_instance

instance (start : List Token) : Halts (blockStep rules start) := by
  unfold blockStep
  infer_instance

instance : Halts (block rules) := by
  unfold block
  infer_instance

instance : Halts (expressionStatement rules) := by
  unfold expressionStatement
  infer_instance

instance (keyword : Keyword) : Halts (keywordCondition rules keyword) := by
  unfold keywordCondition
  infer_instance

instance (kind : NodeKind) : Halts (jump kind) := by
  unfold jump
  infer_instance

instance : Halts (caseLabel rules) := by
  unfold caseLabel
  infer_instance

instance : Halts (switchStatement rules) := by
  have hstep (kind : TokenKind) : Halts (match kind with
      | .closeBrace => do
          cover
          return false
      | .keyword .case_ | .keyword .default_ => do
          caseLabel rules
          return true
      | _ => (failExpected (.expectedOneOfKinds [.keyword .case_, .keyword .default_]) :
          Parse Bool)) := by
    split <;> infer_instance
  unfold switchStatement
  infer_instance

instance : Halts (ifStatement rules) := by
  unfold ifStatement
  infer_instance

instance : Halts (whileStatement rules) := by
  unfold whileStatement
  infer_instance

instance : Halts (doStatement rules) := by
  unfold doStatement
  infer_instance

instance : Halts (forStatement rules) := by
  have hbody (rest : Parse Unit) (hrest : Halts rest) : Halts (node .for_ rest) := inferInstance
  unfold forStatement
  refine hbody _ (.bind inferInstance fun _ => .bind inferInstance fun _ => .bind inferInstance
    fun _ => ?_)
  extract_lets rest
  have hrest (first : PUnit) : Halts (rest first) := by
    unfold rest
    infer_instance
  clear_value rest
  infer_instance

instance : Halts (returnStatement rules) := by
  unfold returnStatement
  infer_instance

instance : Halts (tryStatement rules) := by
  unfold tryStatement
  infer_instance

instance : Halts (statementBody rules) := by
  unfold statementBody
  refine .bind inferInstance ?_
  intro token
  split <;> infer_instance

end Statements

instance (room : Nat) : Halts (blockRules room).assignment := by
  rw [blockRules_toValueRules]
  exact (valueRules_halts room).1

instance (room : Nat) : Halts (blockRules room).initList := by
  rw [blockRules_toValueRules]
  exact (valueRules_halts room).2

instance (room : Nat) : Halts (blockRules room).statement := by
  induction room with
  | zero => exact inferInstanceAs (Halts (fail _))
  | succ room ih =>
      exact inferInstanceAs (Halts (deferred fun _ => statementBody (blockRules room)))

/-! ## Declarations -/

instance (room : Nat) : Halts (returnType room) := by
  unfold returnType
  infer_instance

instance (room : Nat) : Halts (parameter room) := by
  unfold parameter
  infer_instance

instance (room : Nat) : Halts (parameterList room) := by
  unfold parameterList
  infer_instance

instance : Halts methodAttributes := by
  unfold methodAttributes
  infer_instance

instance (room : Nat) : Halts (functionSignature room) := by
  unfold functionSignature signature
  infer_instance

instance : Halts laterInitializer := by
  unfold laterInitializer
  infer_instance

instance : Halts accessModifier := by
  unfold accessModifier
  infer_instance

instance (room : Nat) : Halts (globalVariable room) := by
  unfold globalVariable
  infer_instance

instance (room : Nat) : Halts (memberVariable room) := by
  unfold memberVariable
  infer_instance

instance (keyword : Keyword) : Halts (anchorRequired keyword) := by
  unfold anchorRequired
  infer_instance

instance : Halts sharedModifiers := by
  unfold sharedModifiers
  infer_instance

instance : Halts expectIdentifier := by
  unfold expectIdentifier
  infer_instance

instance (room : Nat) : Halts (importDeclaration room) := by
  unfold importDeclaration
  infer_instance

instance : Halts enumerator := by
  unfold enumerator
  infer_instance

instance : Halts enumDeclaration := by
  have hbody (kind : TokenKind) : Halts (match kind with
      | .semicolon => mark
      | .openBrace => do
          skip
          repeatRule enumerator
          coverRequired .closeBrace
      | _ => failExpected (.expectedOneOfKinds [.openBrace, .semicolon])) := by
    split <;> infer_instance
  unfold enumDeclaration
  infer_instance

instance : Halts typedefDeclaration := by
  unfold typedefDeclaration
  infer_instance

instance (room : Nat) : Halts (funcdefDeclaration room) := by
  unfold funcdefDeclaration
  infer_instance

instance : Halts functionBody := by
  unfold functionBody
  infer_instance

instance (room : Nat) : Halts (globalFunction room) := by
  unfold globalFunction
  infer_instance

instance (room : Nat) : Halts (method room) := by
  unfold method
  infer_instance

instance (room : Nat) : Halts (interfaceMethod room) := by
  unfold interfaceMethod
  infer_instance

instance (place : PropertyPlace) : Halts (accessor place) := by
  unfold accessor
  infer_instance

instance (room : Nat) (place : PropertyPlace) : Halts (property room place) := by
  unfold property
  infer_instance

instance (room : Nat) : Halts (baseName room) := by
  unfold baseName
  infer_instance

instance (room : Nat) (member : Parse Unit) [Halts member] : Halts (namedMembers room member) := by
  unfold namedMembers
  infer_instance

instance (room : Nat) : Halts (interfaceMember room) := by
  unfold interfaceMember
  infer_instance

instance (room : Nat) : Halts (interfaceDeclaration room) := by
  unfold interfaceDeclaration
  infer_instance

instance (room : Nat) : Halts (classMember room) := by
  unfold classMember
  infer_instance

instance (room : Nat) : Halts (classDeclaration room) := by
  unfold classDeclaration
  infer_instance

instance (room : Nat) : Halts (mixinDeclaration room) := by
  unfold mixinDeclaration
  infer_instance

instance (room : Nat) : Halts (globalMember room) := by
  unfold globalMember
  infer_instance

/-! ## Namespaces -/

instance (body : Parse Unit) (count : Nat) [Halts body] : Halts (namespacePath body count) := by
  induction count with
  | zero => exact inferInstanceAs (Halts (pure ()))
  | succ count ih =>
      unfold namespacePath
      infer_instance

instance (opening : List Token) : Halts (namespaceClosing opening) := by
  unfold namespaceClosing
  infer_instance

/-- What follows the keyword of a namespace. -/
instance halts_behindNamespaceKeyword (body : Parse Unit) [Halts body] : Halts (do
    let opening := namespaceOpening (← ahead)
    if let some brace := opening.head? then widen brace.span
    namespacePath body ((← ahead).length + 1)
    namespaceClosing opening) := by
  refine .bind inferInstance ?_
  intro tokens
  dsimp only
  split <;> infer_instance

instance (room : Nat) (inBraces : Bool) (nested : Parse Unit) :
    Halts (scriptBody room inBraces nested) := by
  unfold scriptBody scriptStep
  infer_instance

end

section

variable {setting : Setting} {session after : Session} {interruption : Interruption}

/-- The next token of the first session was reported, and then it was passed. -/
structure Overran (setting : Setting) (session after : Session) : Prop where
  reported : after.HaltedAt (setting.head session).span
  passed : after.ahead = session.ahead.tail

/-- A name in the place of the keyword is reported and passed. -/
theorem namespaceKeyword_halted
    (hrun : namespaceKeyword setting session = (.error interruption, after)) :
    setting.Halted after ∨
      (setting.head session).kind ≠ .keyword .namespace_ ∧ Overran setting session after := by
  unfold namespaceKeyword at hrun
  rw [nextIs_bind] at hrun
  split at hrun
  · cases hrun
  rename_i hkeyword
  obtain ⟨noted, hnoted⟩ : ∃ noted, reportExpected (.expectedKind (.keyword .namespace_)) setting
      session = (.ok (), noted) ∧ noted.HaltedAt (setting.head session).span ∧
        noted.ahead = session.ahead :=
    ⟨_, rfl, haltedAt_reported setting (.insteadFound (setting.head session)) _ _ (by decide), rfl⟩
  obtain ⟨hreport, hhalted, hahead⟩ := hnoted
  rw [bind_run, hreport] at hrun
  rcases bind_error hrun with hname | ⟨_, named, hname, hinterrupt⟩
  · exact .inl (Halts.halted setting noted _ _ hname)
  · cases hinterrupt
    obtain ⟨inner, hinner, rfl⟩ := node_ok hname
    rw [peek_bind] at hinner
    split at hinner <;> cases hinner
    refine .inr ⟨fun hkind => hkeyword (decide_eq_true hkind), hhalted, ?_⟩
    rw [← hahead]

theorem namespaceBody_halted {body : Parse Unit} [Halts body]
    (hrun : namespaceBody body setting session = (.error interruption, after)) :
    setting.Halted after ∨
      (setting.head session).kind ≠ .keyword .namespace_ ∧ Overran setting session after := by
  obtain ⟨inner, hinner, rfl⟩ := node_error hrun
  rcases bind_error hinner with hkeyword | ⟨_, middle, -, hrest⟩
  · refine (namespaceKeyword_halted hkeyword).imp_right ?_
    rintro ⟨hkind, hoverran⟩
    exact ⟨hkind, hoverran.reported, hoverran.passed⟩
  · have hhalted : setting.Halted inner :=
      (halts_behindNamespaceKeyword body).halted setting middle _ _ hrest
    exact .inl hhalted

theorem namespaceDeclaration_halted {room : Nat}
    (hrun : namespaceDeclaration room setting session = (.error interruption, after)) :
    setting.Halted after ∨
      (setting.head session).kind ≠ .keyword .namespace_ ∧ Overran setting session after := by
  cases room with
  | zero =>
      have hdeep : Halts (tooDeep .namespace_) := inferInstance
      exact .inl (hdeep.halted setting session interruption after hrun)
  | succ room => exact namespaceBody_halted hrun

/-- Behind a broken member of a class and behind a broken item of a block, recovery starts at the
token that was reported last. -/
theorem halts_recovered (room : Nat) : Halts (classMember room) ∧ Halts (blockItem (blockRules room)) :=
  ⟨inferInstance, inferInstance⟩

/-- Behind a broken declaration recovery starts at the token that was reported last, unless it was
the first of some modifiers in front of a namespace. -/
theorem scriptItem_halted {room : Nat}
    (hrun : scriptItem room (namespaceDeclaration room)
      (session.ahead.dropWhile (·.hasRole .declarationModifier)) setting session =
        (.error interruption, after)) :
    setting.Halted after ∨ ∃ name rest, session.ahead = name :: rest ∧
      name.hasRole .declarationModifier = true ∧
      ((rest.dropWhile (·.hasRole .declarationModifier)).headD setting.finish).kind =
        .keyword .namespace_ ∧
      after.ahead = rest ∧ after.HaltedAt name.span := by
  have hplain (rule : Parse Unit) (h : Halts rule)
      (hrun : rule setting session = (.error interruption, after)) : setting.Halted after :=
    h.halted setting session interruption after hrun
  unfold scriptItem at hrun
  rw [read_bind] at hrun
  generalize hkind : ((session.ahead.dropWhile (·.hasRole .declarationModifier)).headD
    setting.finish).kind = kind at hrun
  split at hrun
  case h_8 =>
    refine (namespaceDeclaration_halted hrun).imp_right ?_
    rintro ⟨hhead, hoverran⟩
    rcases hahead : session.ahead with _ | ⟨name, rest⟩
    · rw [hahead] at hkind
      exact absurd (Setting.head_nil hahead ▸ hkind) hhead
    · have hname : setting.head session = name := Setting.head_cons hahead
      rw [hname] at hhead
      rw [hahead, List.dropWhile_cons] at hkind
      split at hkind
      · rename_i hrole
        refine ⟨name, rest, rfl, hrole, hkind, ?_, hname ▸ hoverran.reported⟩
        rw [hoverran.passed, hahead]
        rfl
      · exact absurd hkind hhead
  all_goals exact .inl (hplain _ inferInstance hrun)

end

end Parse

end ScriptSyntax.Grammar
