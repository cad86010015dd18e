import ScriptSyntax.Proofs.Variation.Type

/-!
# Expressions under two options

A level of rules does the same on both sides if its nested rules do, behind a token at least.  Every
value passes one, which is what keeps the bound on the text ahead.
-/

namespace ScriptSyntax.Grammar

namespace Parse

set_option synthInstance.maxSize 2000

variable {room : Nat}

/-! ## Named arguments -/

/-- An argument with its name, of which is warned if it is old. -/
def namedArgument (old : Bool) (value : Parse Unit) : Parse Unit :=
  node .namedArgument do
    identifier
    if old then diagnose .warning .oldNamedArgument (← peek)
    skip
    value

theorem argument_run (rules : ValueRules) (setting : Setting) (session : Session) :
    argument rules setting session =
      (let old := setting.options.legacyNamedArguments && (setting.second session).kind = .assign
      if (setting.head session).kind.isIdentifier && ((setting.second session).kind = .colon || old)
      then namedArgument old rules.assignment
      else rules.assignment) setting session := rfl

/-! ## Values pass a token -/

theorem whileNext_passes {test : Token → Bool} {rule : Parse Unit} [Advances rule]
    {setting : Setting} {session after : Session} {value : Unit}
    (htest : test (setting.head session) = true)
    (hrule : ∀ value middle, rule setting session = (.ok value, middle) →
      setting.Passes session.ahead middle.ahead)
    (hrun : whileNext test rule setting session = (.ok value, after)) :
    setting.Passes session.ahead after.ahead := by
  unfold whileNext repeatRule at hrun
  rw [ahead_bind] at hrun
  unfold repeatUpTo at hrun
  obtain ⟨again, middle, hbody, hrest⟩ := bind_ok hrun
  rw [peek_bind, htest] at hbody
  obtain ⟨first, behind, hfirst, hend⟩ := bind_ok hbody
  cases hend
  exact (hrule first middle hfirst).trans_left (Forwards.leads setting middle value after hrest)

theorem constant_passes {setting : Setting} {session after : Session} {value : Unit}
    (hended : setting.Ended) (hhead : (setting.head session).kind ≠ .endOfSource)
    (hrun : constant setting session = (.ok value, after)) :
    setting.Passes session.ahead after.ahead := by
  obtain ⟨inner, hinner, rfl⟩ := node_ok hrun
  rw [peek_bind, anchor_bind] at hinner
  split at hinner
  · rename_i hstring
    have hpasses := whileNext_passes hstring (fun value middle hleaf => ?_) hinner
    · exact hpasses
    · exact leaf_passes hended hhead hleaf
  · cases hinner
    exact hended.passes_tail hhead

section

variable (rules : ValueRules) [Advances rules.assignment] [Advances rules.initList]

instance : Consumes (cast rules) := by
  unfold cast
  infer_instance

instance : Consumes (constructCall rules) := by
  unfold constructCall
  infer_instance

instance : Consumes (variableAccess room) := by
  unfold variableAccess
  infer_instance

instance : Consumes capturedBlock := by
  unfold capturedBlock
  infer_instance

instance : Consumes (lambda room) := by
  unfold lambda
  infer_instance

instance : Consumes (namedValue rules) := by
  unfold namedValue
  infer_instance

instance : Consumes (value rules) := by
  refine .node _ ⟨?_⟩
  intro setting session value after hended hrun
  rw [peek_bind] at hrun
  generalize hkind : (setting.head session).kind = kind at hrun
  split at hrun
  · exact leaf_passes hended (by rw [hkind]; decide) hrun
  · exact Consumes.passes setting session value after hended hrun
  · exact Consumes.passes setting session value after hended hrun
  · exact Consumes.passes setting session value after hended hrun
  · split at hrun
    · exact Consumes.passes setting session value after hended hrun
    · split at hrun
      · exact Consumes.passes setting session value after hended hrun
      · split at hrun
        · rename_i hconstant
          refine constant_passes hended ?_ hrun
          rw [hkind]
          rintro rfl
          cases hconstant
        · exact Consumes.passes setting session value after hended hrun

variable [Consumes rules.initList]

instance : Consumes (term rules) := by
  unfold term
  infer_instance

instance : Consumes (expression rules) := by
  unfold expression
  infer_instance

instance : Consumes (condition rules) := by
  unfold condition
  infer_instance

instance : Consumes (assignmentBody rules) := by
  unfold assignmentBody
  infer_instance

end

instance : Consumes (valueRules room).initList := by
  cases room with
  | zero => exact inferInstanceAs (Consumes (node .initList (fail .maximumNestingDepth)))
  | succ room =>
      have hbody : Consumes (initListBody (valueRules room)) := by
        unfold initListBody
        infer_instance
      exact inferInstanceAs (Consumes (deferred fun _ => initListBody (valueRules room)))

instance : Consumes (valueRules room).assignment := by
  cases room with
  | zero => exact inferInstanceAs (Consumes (node .assignment (fail .maximumNestingDepth)))
  | succ room =>
      exact inferInstanceAs (Consumes (deferred fun _ => assignmentBody (valueRules room)))

end Parse

namespace Variation

open Parse

set_option synthInstance.maxSize 20000

variable {V : Variation} {bound : Nat}

/-! ## Rules of a level -/

/-- What assignments and lists may hold. -/
class NestedAgrees (V : Variation) (bound : Nat) (rules rules' : ValueRules) : Prop where
  assignment : V.Agrees bound rules.assignment rules'.assignment
  initList : V.Agrees bound rules.initList rules'.initList

/-- What a level of rules may use: types and lists where the level starts, and its nested rules
behind one token more. -/
class LevelAgrees (V : Variation) (bound : Nat) (rules rules' : ValueRules) : Prop
    extends V.NestedAgrees bound rules rules' where
  rooms : V.Rooms (bound + 1) 1 rules.room rules'.room
  firstList : V.Agrees (bound + 1) rules.initList rules'.initList
  argument : V.Agrees bound (argument rules) (argument rules')

section

variable {room room' : Nat} [Fact (V.Rooms bound 1 room room')]

instance : V.Agrees bound (variableAccess room) (variableAccess room') :=
  .node (by decide) inferInstance

instance : V.Agrees bound (lambdaParameterType room) (lambdaParameterType room') := by
  unfold lambdaParameterType
  refine .bind inferInstance fun behind => ?_
  split <;> infer_instance

instance : V.Agrees bound (lambda room) (lambda room') :=
  .node (by decide) inferInstance

end

/-- Behind a token that is covered, less text is ahead. -/
theorem covered_meets {rule rule' : Parse Unit} (hrule : V.Agrees bound rule rule')
    {n : V.Frame} {s t : Session} (h : V.Related n s t) (hbytes : byteCount s.ahead < bound + 1)
    (hhead : (V.left.head s).kind ≠ .endOfSource) :
    V.Meets n
      ((do
        cover
        rule) V.left s)
      ((do
        cover
        rule') V.right t) := by
  have hcover : V.Agrees (bound + 1) cover cover := inferInstance
  refine hcover.meets_passing (fun _ => hrule) h hbytes ?_
  rintro _ _ ⟨⟩
  exact V.ended.passes_tail hhead

instance : V.Agrees bound emptySlot emptySlot :=
  .node (by decide) inferInstance

instance : V.Agrees bound constant constant := by
  have hleaf : V.Agrees bound (leaf .constant) (leaf .constant) := agrees_leaf (by decide)
  exact .node (by decide) inferInstance

section

variable {rules rules' : ValueRules} [Advances rules.assignment] [Advances rules.initList]

/-! ## Lists -/

section

variable [hnested : V.NestedAgrees bound rules rules']

instance : V.Agrees bound rules.assignment rules'.assignment :=
  hnested.assignment

instance : V.Agrees bound rules.initList rules'.initList :=
  hnested.initList

instance : V.Agrees bound (listElement rules) (listElement rules') := by
  refine .bind inferInstance fun token => ?_
  generalize token.kind = kind
  split <;> infer_instance

instance : V.Agrees (bound + 1) (initListBody rules) (initListBody rules') :=
  .node (by decide) inferInstance

end

/-! ## Arguments -/

variable [hlevel : V.LevelAgrees bound rules rules']

instance : Fact (V.Rooms (bound + 1) 1 rules.room rules'.room) :=
  ⟨hlevel.rooms⟩

instance : Fact (V.Rooms bound 1 rules.room rules'.room) :=
  ⟨hlevel.rooms.le (by omega)⟩

instance : V.Agrees (bound + 1) rules.initList rules'.initList :=
  hlevel.firstList

instance : V.Agrees bound (argument rules) (argument rules') :=
  hlevel.argument

instance argumentsText_agrees (parenthesized : Bool) : V.Agrees bound
    (do
      match (← peek).kind with
      | .closeParen => if parenthesized then cover
      | .closeBracket => if parenthesized then fail (.unexpectedKind .closeBracket)
      | _ =>
          commaSeparated (argument rules)
          if parenthesized then
            if ← nextIs .closeParen then cover
            else failExpected (.expectedEitherKind .closeParen .comma))
    (do
      match (← peek).kind with
      | .closeParen => if parenthesized then cover
      | .closeBracket => if parenthesized then fail (.unexpectedKind .closeBracket)
      | _ =>
          commaSeparated (argument rules')
          if parenthesized then
            if ← nextIs .closeParen then cover
            else failExpected (.expectedEitherKind .closeParen .comma)) := by
  refine .bind inferInstance fun token => ?_
  generalize token.kind = kind
  split <;> infer_instance

instance (parenthesized : Bool) :
    V.Agrees bound (argumentList rules parenthesized) (argumentList rules' parenthesized) := by
  refine .node (by decide) ?_
  infer_instance

instance : V.Agrees (bound + 1) (argumentList rules true) (argumentList rules' true) :=
  .node (by decide) (.bind_passing inferInstance fun _ => argumentsText_agrees true)

/-! ## Values -/

instance : V.Agrees (bound + 1) (functionCall rules) (functionCall rules') :=
  .node (by decide) inferInstance

instance : V.Agrees (bound + 1) (constructCall rules) (constructCall rules') :=
  .node (by decide) inferInstance

instance : V.Agrees (bound + 1) (cast rules) (cast rules') :=
  .node (by decide) inferInstance

instance : V.Agrees (bound + 1) (namedValue rules) (namedValue rules') := by
  unfold namedValue
  infer_instance

instance : V.Agrees (bound + 1) (value rules) (value rules') := by
  refine .node (by decide) ⟨?_⟩
  intro n s t h hbytes
  have meets {rule rule' : Parse Unit} [hrule : V.Agrees (bound + 1) rule rule'] :
      V.Meets n (rule V.left s) (rule' V.right t) := hrule.meets h hbytes
  rw [peek_bind, peek_bind, h.head]
  generalize hkind : (V.left.head s).kind = kind
  split
  · exact meets
  · exact meets
  · have hgroup : V.Agrees bound
        (do
          rules.assignment
          widen (← peek).span
          let _ ← require .closeParen)
        (do
          rules'.assignment
          widen (← peek).span
          let _ ← require .closeParen) := inferInstance
    exact covered_meets hgroup h hbytes (by rw [hkind]; decide)
  · exact meets
  · exact meets

instance : V.Agrees bound (postOperator rules) (postOperator rules') := by
  have hcall : V.Agrees bound (functionCall rules) (functionCall rules') :=
    .lower inferInstance
  refine .node (by decide) (.bind inferInstance fun token => .bind inferInstance fun _ => ?_)
  generalize token.kind = kind
  split <;> infer_instance

/-! ## Terms -/

instance : V.Agrees (bound + 1) (term rules) (term rules') := by
  have hoperator : V.Agrees (bound + 1) (leaf .exprPreOp) (leaf .exprPreOp) :=
    agrees_leaf (by decide)
  exact .node (by decide) inferInstance

instance : V.Agrees bound (term rules) (term rules') :=
  .lower inferInstance

instance : V.Agrees bound (leaf .exprOperator) (leaf .exprOperator) :=
  agrees_leaf (by decide)

section

variable [Consumes rules.initList]

instance : V.Agrees (bound + 1) (expression rules) (expression rules') :=
  .node (by decide) inferInstance

instance : V.Agrees (bound + 1) (condition rules) (condition rules') :=
  .node (by decide) inferInstance

instance : V.Agrees (bound + 1) (assignmentBody rules) (assignmentBody rules') :=
  .node (by decide) inferInstance

end

/-! ## Initializers -/

instance : V.Agrees bound (assignedValue rules) (assignedValue rules') := by
  unfold assignedValue
  infer_instance

instance : V.Agrees (bound + 1) (initializer rules) (initializer rules') := by
  have hskip : V.Agrees (bound + 1) skip skip := inferInstance
  constructor
  intro n s t h hbytes
  unfold initializer
  rw [peek_bind, peek_bind, h.head]
  generalize hkind : (V.left.head s).kind = kind
  dsimp only
  split
  · refine hskip.meets_passing (fun _ => inferInstance) h hbytes ?_
    rintro _ _ ⟨⟩
    exact V.ended.passes_tail (by rw [hkind]; decide)
  · exact Agrees.meets h hbytes
  · exact Agrees.meets h hbytes

end

/-! ## All levels -/

/-- Arguments agree where assignments do, and everything behind a token less. -/
class ArgumentsAgree (V : Variation) : Prop where
  agrees : ∀ {bound room room'}, V.Rooms (bound + 1) 1 room room' →
    V.Agrees bound (valueRules room).assignment (valueRules room').assignment →
    (∀ less room room', less < bound → V.Rooms (less + 1) 1 room room' →
      V.LevelAgrees less (valueRules room) (valueRules room')) →
    V.Agrees bound (argument (valueRules room)) (argument (valueRules room'))

theorem nestedAgrees_of_levels {room room' : Nat} (hrooms : V.Rooms bound 2 room room')
    (hlevels : ∀ less room room', less < bound → V.Rooms (less + 1) 1 room room' →
      V.LevelAgrees less (valueRules room) (valueRules room')) :
    V.NestedAgrees bound (valueRules room) (valueRules room') := by
  cases bound with
  | zero =>
      have hnone {rule rule' : Parse Unit} : V.Agrees 0 rule rule' :=
        ⟨fun _ hbytes => absurd hbytes (Nat.not_lt_zero _)⟩
      exact ⟨hnone, hnone⟩
  | succ bound =>
      rcases hrooms.levels with ⟨rfl, rfl⟩ | ⟨less, less', rfl, rfl⟩
      · exact ⟨agrees_tooDeep (by decide), agrees_tooDeep (by decide)⟩
      · have hlevel := hlevels bound less less' (Nat.lt_succ_self bound) (hrooms.succ (by omega))
        have hassignment : V.Agrees (bound + 1) (assignmentBody (valueRules less))
          (assignmentBody (valueRules less')) := inferInstance
        have hlist : V.Agrees (bound + 1) (initListBody (valueRules less))
          (initListBody (valueRules less')) := inferInstance
        exact ⟨⟨hassignment.meets⟩, ⟨hlist.meets⟩⟩

theorem levelAgrees [harguments : V.ArgumentsAgree] {room room' : Nat}
    (hrooms : V.Rooms (bound + 1) 1 room room') :
    V.LevelAgrees bound (valueRules room) (valueRules room') := by
  induction bound using Nat.strongRecOn generalizing room room' with
  | ind bound ih =>
      have hlevels (less room room' : Nat) (hless : less < bound)
          (hrooms : V.Rooms (less + 1) 1 room room') := ih less hless hrooms
      have hnested {room room' : Nat} (hrooms : V.Rooms bound 2 room room') :=
        nestedAgrees_of_levels hrooms hlevels
      have hhere := hnested (hrooms.le (by omega))
      have hrooms' : V.Rooms (bound + 1) 1 (valueRules room).room (valueRules room').room := by
        rw [valueRules_room, valueRules_room]
        exact hrooms
      have hfirst :
          V.Agrees (bound + 1) (valueRules room).initList (valueRules room').initList := by
        rcases hrooms.levels with ⟨rfl, rfl⟩ | ⟨less, less', rfl, rfl⟩
        · exact agrees_tooDeep (by decide)
        · have hrest : V.Rooms bound 2 less less' := hrooms.succ (by omega)
          have hlist := hnested hrest
          have hbody : V.Agrees (bound + 1) (initListBody (valueRules less))
              (initListBody (valueRules less')) := inferInstance
          exact ⟨hbody.meets⟩
      exact { hhere with
        rooms := hrooms'
        firstList := hfirst
        argument := harguments.agrees hrooms hhere.assignment hlevels }

theorem nestedAgrees [V.ArgumentsAgree] {room room' : Nat} (hrooms : V.Rooms bound 2 room room') :
    V.NestedAgrees bound (valueRules room) (valueRules room') :=
  nestedAgrees_of_levels hrooms fun _ _ _ _ => levelAgrees

end Variation

end ScriptSyntax.Grammar
