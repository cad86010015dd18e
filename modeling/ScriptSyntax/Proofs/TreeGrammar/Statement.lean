import ScriptSyntax.Proofs.TreeGrammar.Expression

/-!
# Rows of statements

A block goes on behind what is broken in it; where no error is reported nothing was.  So the body
of a function, an initializer or an expression that is parsed without an error gives a tree that
follows its form.
-/

namespace ScriptSyntax

namespace Grammar.Parse

open Computability

section

set_option synthInstance.maxSize 2000

/-! ## Variables -/

instance (initializer : Parse Unit) (row : Row) [Adds initializer row] :
    Adds (variableNames initializer) (Row.atLeastOne (Form.identifier * row)) := by
  unfold variableNames
  exact Adds.mono inferInstance (by simp)

instance (rules : ValueRules) [Adds rules.assignment Form.assignment]
    [Adds rules.initList Form.initList] : Adds (localVariable rules) Form.localVariable := by
  have hkind (kind : TokenKind) : Adds (match kind with
      | .openParen => argumentList rules true
      | .assign => do
          skip
          assignedValue rules
      | _ => return) (Row.maybe Form.initializer) := by
    split <;> exact Adds.mono inferInstance (by simp [Form.initializer, le_sup_of_le_left])
  unfold localVariable
  exact .node .localVariable rfl inferInstance (by simp [Form.row, Form.localName])

/-! ## Blocks -/

section Blocks

variable (rules : BlockRules) [Adds rules.assignment Form.assignment]
  [Adds rules.initList Form.initList] [Adds rules.statement Form.statement]

instance : Adds (blockItem rules) Form.blockItem := by
  unfold blockItem
  exact Adds.mono inferInstance (by simp [Form.blockItem])

instance (start : List Token) : Turns (blockStep rules start) Form.blockItem 1 := by
  unfold blockStep recover
  exact Turns.mono inferInstance (by simp) (by simp)

instance : Adds (block rules) Form.block := by
  unfold block
  exact .node .block rfl inferInstance (by simp [Form.row])

/-! ## Statements -/

instance : Adds (expressionStatement rules) Form.expressionStatement := by
  unfold expressionStatement
  exact .node .expressionStatement rfl inferInstance (by simp [Form.row])

instance (keyword : Keyword) : Adds (keywordCondition rules keyword) Form.assignment := by
  unfold keywordCondition
  exact Adds.mono inferInstance (by simp)

instance : Adds (jump .break_) Form.break_ := by
  unfold jump
  exact .node .break_ rfl inferInstance (by simp [Form.row])

instance : Adds (jump .continue_) Form.continue_ := by
  unfold jump
  exact .node .continue_ rfl inferInstance (by simp [Form.row])

instance : Adds (caseLabel rules) Form.case_ := by
  unfold caseLabel
  exact .node .case_ rfl inferInstance (by simp [Form.row, mul_assoc])

instance : Adds (switchStatement rules) Form.switch := by
  have hstep (kind : TokenKind) : Turns (match kind with
      | .closeBrace => do
          cover
          return false
      | .keyword .case_ | .keyword .default_ => do
          caseLabel rules
          return true
      | _ => failExpected (.expectedOneOfKinds [.keyword .case_, .keyword .default_]))
      Form.case_ 1 := by
    split <;> exact Turns.mono inferInstance (by simp) (by simp)
  unfold switchStatement
  exact .node .switch rfl inferInstance (by simp [Form.row])

instance : Adds (ifStatement rules) Form.if_ := by
  unfold ifStatement
  exact .node .if_ rfl inferInstance (by simp [Form.row, mul_assoc])

instance : Adds (whileStatement rules) Form.while_ := by
  unfold whileStatement
  exact .node .while_ rfl inferInstance (by simp [Form.row])

instance : Adds (doStatement rules) Form.doWhile := by
  unfold doStatement
  exact .node .doWhile rfl inferInstance (by simp [Form.row])

instance : Adds (forStatement rules) Form.for_ := by
  have hstep : Adds (node .expressionStatement rules.assignment) Form.expressionStatement :=
    .node .expressionStatement rfl inferInstance (by simp [Form.row])
  unfold forStatement
  exact .node .for_ rfl inferInstance (by simp [Form.row, mul_assoc])

instance : Adds (returnStatement rules) Form.return_ := by
  unfold returnStatement
  exact .node .return_ rfl inferInstance (by simp [Form.row])

instance : Adds (tryStatement rules) Form.tryCatch := by
  unfold tryStatement
  exact .node .tryCatch rfl inferInstance (by simp [Form.row])

instance : Adds (statementBody rules) Form.statement := by
  have hkind (kind : TokenKind) : Adds (match kind with
      | .openBrace => block rules
      | .keyword .if_ => ifStatement rules
      | .keyword .for_ => forStatement rules
      | .keyword .while_ => whileStatement rules
      | .keyword .do_ => doStatement rules
      | .keyword .switch => switchStatement rules
      | .keyword .return_ => returnStatement rules
      | .keyword .break_ => jump .break_
      | .keyword .continue_ => jump .continue_
      | .keyword .try_ => tryStatement rules
      | _ => do
          if ← sees (variableAhead rules.room) then fail .unexpectedVariableDeclaration
          else expressionStatement rules) Form.statement := by
    split <;> exact Adds.mono inferInstance (by simp [Form.statement])
  unfold statementBody
  exact Adds.mono inferInstance (by simp)

end Blocks

instance (room : Nat) : Adds (blockRules room).assignment Form.assignment := by
  cases room <;> exact inferInstanceAs (Adds (valueRules _).assignment _)

instance (room : Nat) : Adds (blockRules room).initList Form.initList := by
  cases room <;> exact inferInstanceAs (Adds (valueRules _).initList _)

theorem adds_statement (room : Nat) : Adds (blockRules room).statement Form.statement := by
  induction room with
  | zero =>
      have hdeep : Adds (fail .maximumNestingDepth : Parse Unit) 0 := inferInstance
      exact hdeep.mono (by simp)
  | succ room ih =>
      exact inferInstanceAs (Adds (deferred fun _ => statementBody (blockRules room)) _)

instance (room : Nat) : Adds (blockRules room).statement Form.statement :=
  adds_statement room

end

end Grammar.Parse

namespace Entry

/-- What a body that is parsed on its own may be: the block of a function, an initializer or an
expression. -/
def bodyForms : Entry → List Form
  | statementBlock _ => [.block]
  | initializer _ => [.argList, .assignment, .initList]
  | expression => [.expression]
  | _ => []

/-- A body that is parsed without an error has a tree that follows its form. -/
theorem parse_body_follows (entry : Entry) (options : Options) (source : Source)
    (hbody : entry.bodyForms ≠ []) (herrors : (entry.parse options source).diagnostics.errors = []) :
    ∃ form ∈ entry.bodyForms, (entry.parse options source).root.Follows form := by
  refine root_follows ?_ herrors
  cases entry with
  | statementBlock start =>
      have hblock : Grammar.Parse.Adds (Grammar.Parse.block (Grammar.blockRules options.maxDepth)) _ :=
        inferInstance
      exact hblock.mono (by simp [bodyForms])
  | initializer start =>
      have hinitializer : Grammar.Parse.Adds
        (Grammar.Parse.initializer (Grammar.valueRules options.maxDepth)) _ := inferInstance
      exact hinitializer
  | expression =>
      have hexpression : Grammar.Parse.Adds
        (Grammar.Parse.expression (Grammar.valueRules options.maxDepth)) _ := inferInstance
      exact hexpression.mono (by simp [bodyForms])
  | _ => exact absurd rfl hbody

/-- A loop with a declaration, and in it the call of a method on an element. -/
theorem parse_body_follows_loop :
    let source := ['{', 'f', 'o', 'r', '(', 'i', 'n', 't', ' ', 'i', '=', '0', ';', ';', ')', 'x', '=', 'a', '[',
      'i', ']', '.', 'b', '(', '-', '1', ')', ';', '}']
    let outcome := (statementBlock 0).parse {} source
    outcome.diagnostics.errors = [] ∧ outcome.root.descendants.length = 49 ∧
      outcome.root.Follows .block := by
  intro source outcome
  have herrors : outcome.diagnostics.errors = [] := by decide +kernel
  obtain ⟨form, hform, hfollows⟩ :=
    parse_body_follows (statementBlock 0) {} source (by decide) herrors
  obtain rfl := List.mem_singleton.mp hform
  exact ⟨herrors, by decide +kernel, hfollows⟩

end Entry

end ScriptSyntax
