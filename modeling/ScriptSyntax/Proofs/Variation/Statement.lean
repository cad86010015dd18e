import ScriptSyntax.Proofs.Variation.Expression

/-!
# Statements under two options

A block passes its brace before its first statement, and every other statement a token before the
next one in it.
-/

namespace ScriptSyntax.Grammar.Variation

open Parse

set_option synthInstance.maxSize 20000

variable {V : Variation} {bound : Nat}

/-- What a statement may hold: values where it starts, and statements behind a token at least. -/
class BlockAgrees (V : Variation) (bound : Nat) (rules rules' : BlockRules) : Prop
    extends V.LevelAgrees bound rules.toValueRules rules'.toValueRules where
  firstAssignment : V.Agrees (bound + 1) rules.assignment rules'.assignment
  statement : V.Agrees bound rules.statement rules'.statement

section

variable {rules rules' : BlockRules} [Advances rules.assignment] [Consumes rules.assignment]
  [Advances rules.initList] [Consumes rules.initList] [Advances rules.statement]

section

variable [hblock : V.BlockAgrees bound rules rules']

instance : V.Agrees bound rules.statement rules'.statement :=
  hblock.statement

instance : V.Agrees (bound + 1) rules.assignment rules'.assignment :=
  hblock.firstAssignment

instance :
    V.Agrees bound (localVariable rules.toValueRules) (localVariable rules'.toValueRules) := by
  have hinitializer (kind : TokenKind) : V.Agrees bound
      (match kind with
        | .openParen => argumentList rules.toValueRules true
        | .assign => do
            skip
            assignedValue rules.toValueRules
        | _ => return)
      (match kind with
        | .openParen => argumentList rules'.toValueRules true
        | .assign => do
            skip
            assignedValue rules'.toValueRules
        | _ => return) := by
    split <;> infer_instance
  refine .node (by decide) ?_
  unfold variableNames
  infer_instance

instance : V.Agrees bound (blockItem rules) (blockItem rules') := by
  unfold blockItem
  infer_instance

/-! ## Blocks -/

instance (start : List Token) [Fact (V.Fine start)] :
    V.Agrees bound (blockStep rules start) (blockStep rules' start) := by
  unfold blockStep
  refine .bind inferInstance fun closes => .ite _ inferInstance (.bind inferInstance fun item => ?_)
  refine .ite _ (.from_start fun here hhere => ?_) inferInstance
  have hend : Fact (V.Fine []) := ⟨hhere.suffix List.nil_suffix⟩
  exact .ite _ (.bind inferInstance fun _ => inferInstance) inferInstance

instance : V.Agrees (bound + 1) (block rules) (block rules') := by
  refine .node (by decide) (.from_start fun start hstart => ?_)
  have hfine : Fact (V.Fine start) := ⟨hstart⟩
  infer_instance

/-! ## Statements -/

theorem agrees_expressionStatement {bound : Nat} {rules rules' : BlockRules}
    [Advances rules.assignment] (hassignment : V.Agrees bound rules.assignment rules'.assignment) :
    V.Agrees bound (expressionStatement rules) (expressionStatement rules') :=
  .node (by decide) inferInstance

instance : V.Agrees bound (expressionStatement rules) (expressionStatement rules') :=
  agrees_expressionStatement inferInstance

instance : V.Agrees (bound + 1) (expressionStatement rules) (expressionStatement rules') :=
  agrees_expressionStatement inferInstance

instance (keyword : Keyword) :
    V.Agrees (bound + 1) (keywordCondition rules keyword) (keywordCondition rules' keyword) := by
  unfold keywordCondition
  infer_instance

instance {kind : NodeKind} [hkind : Fact (kind ≠ .namedArgument)] :
    V.Agrees bound (jump kind) (jump kind) :=
  .node hkind.out inferInstance

instance : Fact (NodeKind.break_ ≠ .namedArgument) :=
  ⟨by decide⟩

instance : Fact (NodeKind.continue_ ≠ .namedArgument) :=
  ⟨by decide⟩

instance : V.Agrees bound (caseLabel rules) (caseLabel rules') := by
  have hexpression : V.Agrees bound (expression rules.toValueRules)
      (expression rules'.toValueRules) :=
    .lower inferInstance
  exact .node (by decide) inferInstance

instance : V.Agrees (bound + 1) (switchStatement rules) (switchStatement rules') := by
  have hlabel (kind : TokenKind) : V.Agrees bound
      (match kind with
        | .closeBrace => do
            cover
            return false
        | .keyword .case_ | .keyword .default_ => do
            caseLabel rules
            return true
        | _ => failExpected (.expectedOneOfKinds [.keyword .case_, .keyword .default_]))
      (match kind with
        | .closeBrace => do
            cover
            return false
        | .keyword .case_ | .keyword .default_ => do
            caseLabel rules'
            return true
        | _ => failExpected (.expectedOneOfKinds [.keyword .case_, .keyword .default_])) := by
    split <;> infer_instance
  exact .node (by decide) inferInstance

instance : V.Agrees (bound + 1) (ifStatement rules) (ifStatement rules') :=
  .node (by decide) inferInstance

instance : V.Agrees (bound + 1) (whileStatement rules) (whileStatement rules') :=
  .node (by decide) inferInstance

instance : V.Agrees (bound + 1) (forStatement rules) (forStatement rules') := by
  have hkind : Fact (NodeKind.expressionStatement ≠ .namedArgument) := ⟨by decide⟩
  exact .node (by decide) inferInstance

instance : V.Agrees (bound + 1) (returnStatement rules) (returnStatement rules') :=
  .node (by decide) inferInstance

instance : V.Agrees (bound + 1) (tryStatement rules) (tryStatement rules') := by
  have hblock : V.Agrees bound (block rules) (block rules') :=
    .lower inferInstance
  exact .node (by decide) inferInstance

omit [Consumes rules.assignment] [Advances rules.initList] [Consumes rules.initList] in
theorem doStatement_meets {n : V.Frame} {s t : Session} (h : V.Related n s t)
    (hbytes : byteCount s.ahead < bound + 1) (hhead : (V.left.head s).kind ≠ .endOfSource) :
    V.Meets n (doStatement rules V.left s) (doStatement rules' V.right t) := by
  have hcondition : V.Agrees bound (keywordCondition rules .while_)
      (keywordCondition rules' .while_) :=
    .lower inferInstance
  have hrest : V.Agrees bound
      (do
        rules.statement
        keywordCondition rules .while_
        coverRequired .semicolon)
      (do
        rules'.statement
        keywordCondition rules' .while_
        coverRequired .semicolon) := inferInstance
  exact .node (by decide) h.same (advance _ V.left _)
    (covered_meets hrest (h.opened .doWhile) hbytes hhead)

instance : V.Agrees (bound + 1) (statementBody rules) (statementBody rules') := by
  constructor
  intro n s t h hbytes
  have meets {rule rule' : Parse Unit} [hrule : V.Agrees (bound + 1) rule rule'] :
      V.Meets n (rule V.left s) (rule' V.right t) := hrule.meets h hbytes
  unfold statementBody
  rw [peek_bind, peek_bind, h.head]
  generalize hkind : (V.left.head s).kind = kind
  split
  · exact meets
  · exact meets
  · exact meets
  · exact meets
  · exact doStatement_meets h hbytes (by rw [hkind]; decide)
  · exact meets
  · exact meets
  · exact meets
  · exact meets
  · exact meets
  · exact meets

end

end

/-! ## All levels -/

variable [V.ArgumentsAgree] {room room' : Nat}

instance : Consumes (blockRules room).assignment := by
  rw [blockRules_toValueRules]
  infer_instance

instance : Consumes (blockRules room).initList := by
  rw [blockRules_toValueRules]
  infer_instance

theorem blockAgrees_of_statement (hrooms : V.Rooms (bound + 1) 2 room room')
    (hstatement : V.Agrees bound (blockRules room).statement (blockRules room').statement) :
    V.BlockAgrees bound (blockRules room) (blockRules room') := by
  have hlevel : V.LevelAgrees bound (blockRules room).toValueRules
      (blockRules room').toValueRules := by
    rw [blockRules_toValueRules, blockRules_toValueRules]
    exact levelAgrees (hrooms.le (by omega))
  have hnested : V.NestedAgrees (bound + 1) (blockRules room).toValueRules
      (blockRules room').toValueRules := by
    rw [blockRules_toValueRules, blockRules_toValueRules]
    exact nestedAgrees hrooms
  exact { hlevel with
    firstAssignment := hnested.assignment
    statement := hstatement }

theorem agrees_statement (hrooms : V.Rooms bound 3 room room') :
    V.Agrees bound (blockRules room).statement (blockRules room').statement := by
  induction bound generalizing room room' with
  | zero => exact ⟨fun _ hbytes => absurd hbytes (Nat.not_lt_zero _)⟩
  | succ bound ih =>
      rcases hrooms.levels with ⟨rfl, rfl⟩ | ⟨less, less', rfl, rfl⟩
      · have hfail : V.Agrees (bound + 1) (fail .maximumNestingDepth : Parse Unit)
            (fail .maximumNestingDepth) := inferInstance
        exact hfail
      · have hblock := blockAgrees_of_statement (hrooms.succ (by omega))
          (@ih less less' (hrooms.succ (by omega)))
        have hbody : V.Agrees (bound + 1) (statementBody (blockRules less))
          (statementBody (blockRules less')) := inferInstance
        exact ⟨hbody.meets⟩

theorem blockAgrees (hrooms : V.Rooms (bound + 1) 2 room room') :
    V.BlockAgrees bound (blockRules room) (blockRules room') :=
  blockAgrees_of_statement hrooms (agrees_statement (hrooms.le (by omega)))

end ScriptSyntax.Grammar.Variation
