import ScriptSyntax.Proofs.TreeGrammar.Signature

/-!
# Rows of expressions
-/

namespace ScriptSyntax.Grammar.Parse

open Computability

section

set_option synthInstance.maxSize 2000

instance : Adds emptySlot Form.mark := by
  unfold emptySlot
  exact .node .mark rfl inferInstance (by simp [Form.row])

instance : Adds constant Form.constant := by
  unfold constant
  exact .node .constant rfl inferInstance (by simp [Form.row])

instance (room : Nat) : Adds (variableAccess room) Form.variableAccess := by
  unfold variableAccess
  exact .node .variableAccess rfl inferInstance (by simp [Form.row])

/-! ## Lambdas -/

instance (room : Nat) : Adds (lambdaParameterType room) Form.lambdaType := by
  have hbehind (behind : Option (List Token)) : Adds (match behind with
      | some (after :: _) => do
          if after.kind.isIdentifier then
            dataType room {}
            typeModifier true
      | _ => pure ()) Form.lambdaType := by
    split <;> exact Adds.mono inferInstance (by simp [Form.lambdaType])
  unfold lambdaParameterType
  exact Adds.mono inferInstance (by simp)

instance (room : Nat) : Adds (lambda room) Form.lambda := by
  unfold lambda
  exact .node .lambda rfl inferInstance (by simp [Form.row, mul_assoc, Row.sup_mul])

/-! ## Values and their operators -/

section Values

variable (rules : ValueRules) [Adds rules.assignment Form.assignment]
  [Adds rules.initList Form.initList]

instance : Adds (argument rules) (Row.oneOf [.assignment, .namedArgument]) := by
  have hnamed (old : Bool) : Adds (node .namedArgument do
      identifier
      if old then diagnose .warning .oldNamedArgument (← peek)
      skip
      rules.assignment) Form.namedArgument :=
    .node .namedArgument rfl inferInstance (by simp [Form.row])
  unfold argument
  exact Adds.mono inferInstance (by simp)

instance (parenthesized : Bool) : Adds (argumentList rules parenthesized) Form.argList := by
  have harguments (kind : TokenKind) : Adds (match kind with
      | .closeParen => do if parenthesized then cover
      | .closeBracket => do if parenthesized then fail (.unexpectedKind .closeBracket)
      | _ => do
          commaSeparated (argument rules)
          if parenthesized then
            if ← nextIs .closeParen then cover
            else failExpected (.expectedEitherKind .closeParen .comma)) Form.argList.row := by
    split <;> exact Adds.mono inferInstance (by simp [Form.row, mul_kstar_le_kstar])
  unfold argumentList
  exact .node .argList rfl inferInstance (by simp)

instance : Adds (listElement rules) (Row.oneOf [.assignment, .initList, .mark]) := by
  have helement (kind : TokenKind) : Adds (match kind with
      | .comma | .closeBrace => emptySlot
      | .openBrace => rules.initList
      | _ => rules.assignment) (Row.oneOf [.assignment, .initList, .mark]) := by
    split <;> exact Adds.mono inferInstance (by simp)
  unfold listElement
  exact Adds.mono inferInstance (by simp)

instance : Adds (initListBody rules) Form.initList := by
  unfold initListBody
  exact .node .initList rfl inferInstance (by simp [Form.row])

instance : Adds (functionCall rules) Form.functionCall := by
  unfold functionCall
  exact .node .functionCall rfl inferInstance (by simp [Form.row, mul_assoc])

instance : Adds (constructCall rules) Form.constructCall := by
  unfold constructCall
  exact .node .constructCall rfl inferInstance (by simp [Form.row])

instance : Adds (cast rules) Form.cast := by
  unfold cast
  exact .node .cast rfl inferInstance (by simp [Form.row])

instance : Adds (namedValue rules) Form.value.row := by
  unfold namedValue
  exact Adds.mono inferInstance (by simp [Form.row])

instance : Adds (value rules) Form.value := by
  have hkind (kind : TokenKind) : Adds (match kind with
      | .keyword .void => mark
      | .keyword .cast => cast rules
      | .openParen => do
          cover
          rules.assignment
          widen (← peek).span
          let _ ← require .closeParen
      | .unterminatedString => fail .unterminatedString
      | kind =>
          if kind.isPrimitiveType then constructCall rules
          else if kind.isIdentifier || kind = .scope then namedValue rules
          else if kind.isConstant then constant
          else failExpected .expectedExpressionValue) Form.value.row := by
    split <;> exact Adds.mono inferInstance (by simp [Form.row])
  unfold value
  exact .node .value rfl inferInstance (by simp)

instance : Adds (postOperator rules) Form.postOperator := by
  have hkind (kind : TokenKind) : Adds (match kind with
      | .dot => do
          skip
          if (← peekSecond).kind = .openParen then functionCall rules else identifier
      | .openBracket => do
          skip
          argumentList rules false
          coverRequired .closeBracket
      | .openParen => argumentList rules true
      | _ => skip) Form.postOperator.row := by
    split <;> exact Adds.mono inferInstance (by simp [Form.row, le_sup_of_le_left])
  unfold postOperator
  exact .node .postOperator rfl inferInstance (by simp)

/-! ## Terms and what is built from them -/

instance : Adds (term rules) Form.term := by
  unfold term
  exact .node .term rfl inferInstance (by simp [Form.row, mul_assoc, le_sup_of_le_left])

instance : Adds (expression rules) Form.expression := by
  unfold expression
  exact .node .expression rfl inferInstance (by simp [Form.row])

instance : Adds (condition rules) Form.condition := by
  unfold condition
  exact .node .condition rfl inferInstance (by simp [Form.row])

instance : Adds (assignmentBody rules) Form.assignment := by
  unfold assignmentBody
  exact .node .assignment rfl inferInstance (by simp [Form.row])

instance : Adds (assignedValue rules) ((Form.initList : Row) + Form.assignment) := by
  unfold assignedValue
  exact Adds.mono inferInstance (by simp)

end Values

theorem adds_valueRules (room : Nat) :
    Adds (valueRules room).assignment Form.assignment ∧
      Adds (valueRules room).initList Form.initList := by
  induction room with
  | zero =>
      have hassignment : Adds (tooDeep .assignment) 0 := inferInstance
      have hlist : Adds (tooDeep .initList) 0 := inferInstance
      exact ⟨hassignment.mono (by simp), hlist.mono (by simp)⟩
  | succ room ih =>
      obtain ⟨hassignment, hlist⟩ := ih
      exact ⟨inferInstanceAs (Adds (deferred fun _ => assignmentBody (valueRules room)) _),
        inferInstanceAs (Adds (deferred fun _ => initListBody (valueRules room)) _)⟩

instance (room : Nat) : Adds (valueRules room).assignment Form.assignment :=
  (adds_valueRules room).1

instance (room : Nat) : Adds (valueRules room).initList Form.initList :=
  (adds_valueRules room).2

instance (rules : ValueRules) [Adds rules.assignment Form.assignment]
    [Adds rules.initList Form.initList] : Adds (initializer rules) Form.initializer := by
  unfold initializer
  refine (Adds.bind (inferInstance : Adds peek 1)
    (?_ : ∀ token : Token, Adds _ Form.initializer)).mono (by simp)
  intro token
  extract_lets after
  have hafter (read : Unit) : Adds (after read) 1 := by
    unfold after
    exact Adds.mono inferInstance (by simp)
  clear_value after
  split <;> exact Adds.mono inferInstance (by simp [Form.initializer])

end

end ScriptSyntax.Grammar.Parse
