import ScriptSyntax.Proofs.TreeGrammar.Rows

/-!
# Rows of types and signatures
-/

namespace ScriptSyntax.Grammar.Parse

open Computability

section

set_option synthInstance.maxSize 2000

/-! ## Types -/

instance (forms : TypeForms) : Adds (typeName forms) Form.typeName := by
  unfold typeName
  exact .node .typeName rfl inferInstance (by simp [Form.row])

section Arguments

variable (room : Nat) (argument : Parse Unit) [Adds argument Form.type]

instance : Adds (templateArguments argument) (Row.atLeastOne Form.type) := by
  have hclosing (rest : Option (List Token)) : Adds (match rest with
      | some rest => do
          widen (.ofLength (← peek).span.start 1)
          goTo rest
      | none => failExpected (.expectedKind .greater)) 1 := by
    split <;> exact Adds.mono inferInstance (by simp)
  unfold templateArguments
  exact Adds.mono inferInstance (by simp)

instance : Adds (scopeOver room argument) (Row.maybe Form.scope) := by
  have hscope : Adds (node .scope do
      markIf .scope
      repeatRule do
        if (← peek).kind.isIdentifier && (← peekSecond).kind = .scope then
          identifier
          mark
          return true
        else return false
      if ← sees (templateScopeAhead room) then
        identifier
        templateArguments argument
        mark) Form.scope :=
    .node .scope rfl inferInstance (by simp [Form.row, mul_assoc])
  unfold scopeOver
  exact Adds.mono inferInstance (by simp)

instance : Adds typeSuffixes (Row.many Form.suffix) := by
  have hsuffix (kind : TokenKind) : Turns (match kind with
      | .openBracket => do
          mark
          coverRequired .closeBracket
          return true
      | .handle => do
          mark
          markIf .const
          return true
      | _ => pure false) Form.suffix 1 := by
    split
    · exact Turns.mono inferInstance (by simpa [Form.suffix] using Row.le_mul_maybe) (by simp)
    · exact Turns.mono inferInstance (by simp [Form.suffix]) (by simp)
    · exact Turns.mono inferInstance (by simp) (by simp)
  unfold typeSuffixes
  exact Adds.mono inferInstance (by simp)

instance (forms : TypeForms) : Adds (typeBody room argument forms) Form.type := by
  unfold typeBody
  exact .node .type rfl inferInstance (by simp [Form.row, mul_assoc])

end Arguments

theorem adds_dataType (room : Nat) (forms : TypeForms) : Adds (dataType room forms) Form.type := by
  induction room generalizing forms with
  | zero =>
      have hdeep : Adds (tooDeep .dataType) 0 := inferInstance
      exact hdeep.mono (by simp)
  | succ room ih =>
      have hbody := ih {}
      exact inferInstanceAs (Adds (deferred fun _ => typeBody room (dataType room {}) forms) _)

instance (room : Nat) (forms : TypeForms) : Adds (dataType room forms) Form.type :=
  adds_dataType room forms

instance (room : Nat) : Adds (scope room) (Row.maybe Form.scope) := by
  unfold scope
  infer_instance

instance (ofParameter : Bool) : Adds (typeModifier ofParameter) Form.modifier := by
  unfold typeModifier
  exact .node .modifier rfl inferInstance (by simp [Form.row, mul_assoc, Row.sup_mul])

/-! ## Signatures -/

section Signatures

variable (room : Nat)

instance : Adds (returnType room) ((Form.type : Row) * Form.modifier) := by
  unfold returnType
  infer_instance

instance : Adds (parameter room) Form.parameter := by
  unfold parameter
  exact Adds.mono inferInstance (by simp [Form.parameter, mul_assoc])

instance : Adds (parameterList room) Form.parameterList := by
  unfold parameterList
  exact .node .parameterList rfl inferInstance (by simp [Form.row, mul_kstar_le_kstar])

instance : Adds methodAttributes (Row.many Form.identifier) := by
  unfold methodAttributes
  infer_instance

instance : Adds (functionSignature room) Form.importedFunction := by
  unfold functionSignature signature
  exact .node .importedFunction rfl inferInstance (by simp [Form.row, mul_assoc])

end Signatures

end

end ScriptSyntax.Grammar.Parse
