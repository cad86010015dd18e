import Mathlib.Data.List.Chain
import ScriptSyntax.Proofs.Advance

/-!
# Heights of trees

A rule that takes a level of room stacks a fixed number of nodes between that level and the next:
two for a type or a list pattern, eight for a value or a statement.  A tree is therefore no higher
than the room it was parsed with allows, whether or not errors were reported on the way.
-/

namespace ScriptSyntax

namespace Node

mutual

/-- The number of nodes on the longest way from the node down to a leaf. -/
def height : Node → Nat
  | ⟨_, _, _, children⟩ => heights children + 1

def heights : List Node → Nat
  | [] => 0
  | node :: rest => max (height node) (heights rest)

end

theorem height_eq (node : Node) : node.height = heights node.children + 1 := by
  obtain ⟨kind, token, span, children⟩ := node
  rw [height]

@[simp] theorem heights_nil : heights [] = 0 := by
  rw [heights]

@[simp] theorem heights_cons (node : Node) (rest : List Node) :
    heights (node :: rest) = max node.height (heights rest) := by
  rw [heights]

@[simp] theorem heights_append (first second : List Node) :
    heights (first ++ second) = max (heights first) (heights second) := by
  induction first with
  | nil => simp
  | cons node rest ih => rw [List.cons_append, heights_cons, heights_cons, ih, Nat.max_assoc]

theorem height_le_heights {node : Node} {nodes : List Node} (h : node ∈ nodes) :
    node.height ≤ heights nodes := by
  induction h with
  | head rest => exact heights_cons node rest ▸ Nat.le_max_left _ _
  | tail first _ ih => exact heights_cons first _ ▸ Nat.le_trans ih (Nat.le_max_right _ _)

theorem height_lt_of_mem {node child : Node} (h : child ∈ node.children) :
    child.height < node.height := by
  rw [height_eq node]
  exact Nat.lt_succ_of_le (height_le_heights h)

/-- No way down from a node is longer than the node is high. -/
theorem length_le_height {node : Node} {path : List Node}
    (h : (node :: path).IsChain fun parent child => child ∈ parent.children) :
    (node :: path).length ≤ node.height := by
  induction path generalizing node with
  | nil =>
      rw [height_eq]
      exact Nat.le_add_left 1 _
  | cons child path ih =>
      obtain ⟨hchild, hpath⟩ := List.isChain_cons_cons.mp h
      have hbelow := ih hpath
      have hlower := height_lt_of_mem hchild
      rw [List.length_cons]
      omega

end Node

namespace Grammar

open Node

namespace Parse

variable {α β : Type}

/-- The nodes that a rule adds are at most so high. -/
class Rises (rule : Parse α) (height : outParam Nat) : Prop where
  heights_le : ∀ setting session,
    heights (rule setting session).2.building.children ≤
      max (heights session.building.children) height

theorem Rises.mono {rule : Parse α} {height high : Nat} (h : Rises rule height)
    (hle : height ≤ high) : Rises rule high :=
  ⟨fun setting session => Nat.le_trans (h.heights_le setting session) (by omega)⟩

/-- A rule that adds no node. -/
theorem rises_of_same {rule : Parse α}
    (h : ∀ setting session,
      (rule setting session).2.building.children = session.building.children) : Rises rule 0 :=
  ⟨fun setting session => by simp [h setting session]⟩

/-! ## Building blocks -/

instance (value : α) : Rises (pure value) 0 :=
  rises_of_same fun _ _ => rfl

theorem Rises.bind {rule : Parse α} {next : α → Parse β} {first second : Nat}
    (hrule : Rises rule first) (hnext : ∀ value, Rises (next value) second) :
    Rises (rule >>= next) (max first second) := by
  constructor
  intro setting session
  have hfirst := hrule.heights_le setting session
  rw [bind_run]
  rcases hrun : rule setting session with ⟨interruption | value, middle⟩ <;> rw [hrun] at hfirst <;>
    dsimp only at hfirst ⊢
  · omega
  · have hsecond := (hnext value).heights_le setting middle
    omega

instance (rule : Parse α) (next : α → Parse β) (first second : Nat) [Rises rule first]
    [∀ value, Rises (next value) second] : Rises (rule >>= next) (max first second) :=
  .bind inferInstance inferInstance

instance (condition : Prop) [Decidable condition] (rule other : Parse α) (first second : Nat)
    [hrule : Rises rule first] [hother : Rises other second] :
    Rises (if condition then rule else other) (max first second) := by
  split
  · exact hrule.mono (Nat.le_max_left _ _)
  · exact hother.mono (Nat.le_max_right _ _)

instance : Rises (read : Parse Setting) 0 :=
  rises_of_same fun _ _ => rfl

instance : Rises ahead 0 :=
  rises_of_same fun _ _ => rfl

instance : Rises peek 0 :=
  rises_of_same fun _ _ => rfl

instance : Rises peekSecond 0 :=
  rises_of_same fun _ _ => rfl

instance (kind : TokenKind) : Rises (nextIs kind) 0 :=
  rises_of_same fun _ _ => rfl

instance (scan : Scan Unit) : Rises (sees scan) 0 :=
  rises_of_same fun _ _ => rfl

instance (scan : Scan Unit) : Rises (tokensBehind scan) 0 :=
  rises_of_same fun _ _ => rfl

instance (tokens : List Token) : Rises (goTo tokens) 0 :=
  rises_of_same fun _ _ => rfl

instance : Rises skip 0 :=
  rises_of_same fun _ _ => rfl

instance : Rises next 0 :=
  rises_of_same fun _ _ => rfl

instance (span : Span) : Rises (widen span) 0 :=
  rises_of_same fun _ _ => children_widen _ _

instance (token : Token) : Rises (anchor token) 0 :=
  rises_of_same fun _ _ => children_widen _ _

instance (severity : Severity) (message : Message) (token : Token) :
    Rises (diagnose severity message token) 0 :=
  rises_of_same fun _ _ => rfl

instance (message : Message) : Rises (fail message : Parse α) 0 :=
  rises_of_same fun _ _ => rfl

instance (message : Message) : Rises (failExpected message : Parse α) 0 :=
  rises_of_same fun _ _ => rfl

instance (construct : Construct) (start : List Token) :
    Rises (failAtEnd construct start : Parse α) 0 :=
  rises_of_same fun _ _ => rfl

instance (rule : Unit → Parse α) (height : Nat) [h : Rises (rule ()) height] :
    Rises (deferred rule) height :=
  ⟨fun setting session => h.heights_le setting session⟩

/-- The node that a rule builds stands one above what the rule adds. -/
instance (kind : NodeKind) (rule : Parse α) (height : Nat) [h : Rises rule height] :
    Rises (node kind rule) (height + 1) := by
  constructor
  intro setting session
  have hinner := h.heights_le setting { session with building := .empty kind }
  have hempty : (Node.empty kind).children = [] := rfl
  rw [hempty, heights_nil, Nat.zero_max] at hinner
  change heights (session.building.append _).children ≤ _
  rw [children_append, heights_append, heights_cons, heights_nil, height_eq, Nat.max_zero]
  omega

instance (rule : Parse α) (height : Nat) [h : Rises rule height] :
    Rises (attempt rule) height := by
  constructor
  intro setting session
  have hrule := h.heights_le setting session
  rw [attempt_run]
  split <;> rename_i heq <;> rw [heq] at hrule <;> exact hrule

theorem Rises.repeatUpTo {body : Parse Bool} {height : Nat} (hbody : Rises body height)
    (count : Nat) : Rises (repeatUpTo count body) height := by
  induction count with
  | zero =>
      have hnothing : Rises (Parse.repeatUpTo 0 body) 0 := inferInstanceAs (Rises (pure ()) 0)
      exact hnothing.mono (Nat.zero_le _)
  | succ count ih =>
      unfold Parse.repeatUpTo
      exact (hbody.bind inferInstance).mono (by simp)

/-- However often a loop runs, it adds no higher nodes. -/
instance (body : Parse Bool) (height : Nat) [hbody : Rises body height] :
    Rises (repeatRule body) height :=
  ⟨fun setting session =>
    (hbody.repeatUpTo (byteCount session.ahead + 1)).heights_le setting session⟩

instance (item : Parse Unit) (height : Nat) [Rises item height] :
    Rises (commaSeparated item) height := by
  unfold commaSeparated
  exact Rises.mono inferInstance (by simp)

instance (test : Token → Bool) (rule : Parse Unit) (height : Nat) [Rises rule height] :
    Rises (whileNext test rule) height := by
  unfold whileNext
  exact Rises.mono inferInstance (by simp)

instance (kind : TokenKind) : Rises (require kind) 0 := by
  unfold require
  exact Rises.mono inferInstance (by simp)

instance : Rises cover 0 := by
  unfold cover
  exact Rises.mono inferInstance (by simp)

instance (kind : TokenKind) : Rises (coverRequired kind) 0 := by
  unfold coverRequired
  exact Rises.mono inferInstance (by simp)

instance (kind : NodeKind) : Rises (leaf kind) 1 := by
  unfold leaf
  exact Rises.mono inferInstance (by simp)

instance : Rises mark 1 :=
  inferInstanceAs (Rises (leaf .undefined) 1)

instance (kind : TokenKind) : Rises (markIf kind) 1 := by
  unfold markIf
  exact Rises.mono inferInstance (by simp)

instance : Rises identifier 1 := by
  unfold identifier
  exact Rises.mono inferInstance (by simp)

instance (kind : NodeKind) : Rises (tooDeep kind) 1 := by
  unfold tooDeep
  exact Rises.mono inferInstance (by simp)

instance (inBraces : Bool) : Rises (recover inBraces) 0 :=
  rises_of_same fun _ _ => rfl

/-! ## Captured text -/

instance (tokens : List Token) : Rises (tokens.forM fun token => widen token.span) 0 := by
  induction tokens with
  | nil => exact inferInstanceAs (Rises (pure ()) 0)
  | cons token rest ih =>
      change Rises (do widen token.span; rest.forM fun token => widen token.span) 0
      exact Rises.mono inferInstance (by simp)

/-- What is captured is only covered. -/
instance (construct : Construct) (start : List Token) (captured : Capture) :
    Rises (capture construct start captured) 0 := by
  have hending : Rises (match captured.ending with
      | .complete => pure ()
      | .fault message => fail message
      | .endOfSource => failAtEnd construct start) 0 := by
    split <;> infer_instance
  unfold capture
  exact Rises.mono inferInstance (by simp)

instance : Rises defaultArgument 1 := by
  unfold defaultArgument
  exact Rises.mono inferInstance (by simp)

instance : Rises capturedBlock 1 := by
  unfold capturedBlock
  exact Rises.mono inferInstance (by simp)

/-! ## Types -/

section

set_option synthInstance.maxSize 2000

instance (forms : TypeForms) : Rises (typeName forms) 1 := by
  unfold typeName
  exact Rises.mono inferInstance (by simp)

instance (argument : Parse Unit) (height : Nat) [Rises argument height] :
    Rises (templateArguments argument) height := by
  have hclosing (rest? : Option (List Token)) : Rises (match rest? with
      | some rest => do
          widen (.ofLength (← peek).span.start 1)
          goTo rest
      | none => failExpected (.expectedKind .greater)) 0 := by
    split <;> exact Rises.mono inferInstance (by simp)
  unfold templateArguments
  exact Rises.mono inferInstance (by simp)

instance (room : Nat) (argument : Parse Unit) (height : Nat) [Rises argument height] :
    Rises (scopeOver room argument) (max height 1 + 1) := by
  unfold scopeOver
  exact Rises.mono inferInstance (by omega)

instance : Rises typeSuffixes 1 := by
  have hsuffix (kind : TokenKind) : Rises (match kind with
      | .openBracket => do
          mark
          coverRequired .closeBracket
          return true
      | .handle => do
          mark
          markIf .const
          return true
      | _ => pure false) 1 := by
    split <;> exact Rises.mono inferInstance (by simp)
  unfold typeSuffixes
  exact Rises.mono inferInstance (by simp)

instance (room : Nat) (argument : Parse Unit) (forms : TypeForms) (height : Nat)
    [Rises argument height] : Rises (typeBody room argument forms) (max height 1 + 2) := by
  unfold typeBody
  exact Rises.mono inferInstance (by omega)

instance (room : Nat) (forms : TypeForms) : Rises (dataType room forms) (2 * room + 1) := by
  induction room generalizing forms with
  | zero => exact inferInstanceAs (Rises (tooDeep .dataType) 1)
  | succ room ih =>
      have hbody : Rises (deferred fun _ => typeBody room (dataType room {}) forms) _ :=
        inferInstance
      exact hbody.mono (by omega)

instance (room : Nat) : Rises (scope room) (2 * room + 2) := by
  unfold scope
  exact Rises.mono inferInstance (by omega)

instance (ofParameter : Bool) : Rises (typeModifier ofParameter) 2 := by
  unfold typeModifier
  exact Rises.mono inferInstance (by simp)

/-! ## Expressions -/

instance : Rises emptySlot 1 := by
  unfold emptySlot
  exact Rises.mono inferInstance (by omega)

instance : Rises constant 2 := by
  unfold constant
  exact Rises.mono inferInstance (by omega)

instance (room : Nat) : Rises (variableAccess room) (2 * room + 3) := by
  unfold variableAccess
  exact Rises.mono inferInstance (by omega)

instance (room : Nat) : Rises (lambdaParameterType room) (2 * room + 2) := by
  have hbehind (behind : Option (List Token)) : Rises (match behind with
      | some (after :: _) => do
          if after.kind.isIdentifier then
            dataType room {}
            typeModifier true
      | _ => pure ()) (2 * room + 2) := by
    split <;> exact Rises.mono inferInstance (by omega)
  unfold lambdaParameterType
  exact Rises.mono inferInstance (by omega)

instance (room : Nat) : Rises (lambda room) (2 * room + 3) := by
  unfold lambda
  exact Rises.mono inferInstance (by omega)

/-- On the level of the rules a type, a value and a list each rise one above a common height. -/
class ValuesRise (rules : ValueRules) (height : outParam Nat) : Prop where
  type : 2 * rules.room ≤ height
  assignment : Rises rules.assignment (height + 1)
  initList : Rises rules.initList (height + 1)

section Values

variable (rules : ValueRules) (height : Nat) [hrules : ValuesRise rules height]

instance : Rises rules.assignment (height + 1) :=
  hrules.assignment

instance : Rises rules.initList (height + 1) :=
  hrules.initList

instance (priority := high) (forms : TypeForms) :
    Rises (dataType rules.room forms) (height + 1) :=
  Rises.mono inferInstance (Nat.succ_le_succ hrules.type)

instance (priority := high) : Rises (scope rules.room) (height + 2) := by
  unfold scope
  exact Rises.mono inferInstance (by omega)

/-! Each of these rules stands one node above those it is written over, from the arguments of a call
up to an assignment. -/

instance : Rises (argument rules) (height + 2) := by
  have hnamed (old : Bool) : Rises (node .namedArgument do
      identifier
      if old then diagnose .warning .oldNamedArgument (← peek)
      skip
      rules.assignment) (height + 2) :=
    Rises.mono inferInstance (by omega)
  unfold argument
  exact Rises.mono inferInstance (by omega)

instance (parenthesized : Bool) : Rises (argumentList rules parenthesized) (height + 3) := by
  have harguments (kind : TokenKind) : Rises (match kind with
      | .closeParen => do if parenthesized then cover
      | .closeBracket => do if parenthesized then fail (.unexpectedKind .closeBracket)
      | _ => do
          commaSeparated (argument rules)
          if parenthesized then
            if ← nextIs .closeParen then cover
            else failExpected (.expectedEitherKind .closeParen .comma)) (height + 2) := by
    split <;> exact Rises.mono inferInstance (by omega)
  unfold argumentList
  exact Rises.mono inferInstance (by omega)

instance : Rises (listElement rules) (height + 1) := by
  have helement (kind : TokenKind) : Rises (match kind with
      | .comma | .closeBrace => emptySlot
      | .openBrace => rules.initList
      | _ => rules.assignment) (height + 1) := by
    split <;> exact Rises.mono inferInstance (by omega)
  unfold listElement
  exact Rises.mono inferInstance (by omega)

instance : Rises (initListBody rules) (height + 2) := by
  unfold initListBody
  exact Rises.mono inferInstance (by omega)

instance : Rises (functionCall rules) (height + 4) := by
  unfold functionCall
  exact Rises.mono inferInstance (by omega)

instance : Rises (constructCall rules) (height + 4) := by
  unfold constructCall
  exact Rises.mono inferInstance (by omega)

instance : Rises (cast rules) (height + 2) := by
  unfold cast
  exact Rises.mono inferInstance (by omega)

instance : Rises (namedValue rules) (height + 4) := by
  have hroom := hrules.type
  unfold namedValue
  exact Rises.mono inferInstance (by omega)

instance : Rises (value rules) (height + 5) := by
  have hkind (kind : TokenKind) : Rises (match kind with
      | .keyword .void => mark
      | .keyword .cast => cast rules
      | .openParen => do
          cover
          rules.assignment
          widen (← peek).span
          let _ ← require .closeParen
      | .unterminatedString => fail .unterminatedString
      | kind =>
          if kind.isPrimitiveType then constructCall rules
          else if kind.isIdentifier || kind = .scope then namedValue rules
          else if kind.isConstant then constant
          else failExpected .expectedExpressionValue) (height + 4) := by
    split <;> exact Rises.mono inferInstance (by omega)
  unfold value
  exact Rises.mono inferInstance (by omega)

instance : Rises (postOperator rules) (height + 5) := by
  have hkind (kind : TokenKind) : Rises (match kind with
      | .dot => do
          skip
          if (← peekSecond).kind = .openParen then functionCall rules else identifier
      | .openBracket => do
          skip
          argumentList rules false
          coverRequired .closeBracket
      | .openParen => argumentList rules true
      | _ => skip) (height + 4) := by
    split <;> exact Rises.mono inferInstance (by omega)
  unfold postOperator
  exact Rises.mono inferInstance (by omega)

instance : Rises (term rules) (height + 6) := by
  unfold term
  exact Rises.mono inferInstance (by omega)

instance : Rises (expression rules) (height + 7) := by
  unfold expression
  exact Rises.mono inferInstance (by omega)

instance : Rises (condition rules) (height + 8) := by
  unfold condition
  exact Rises.mono inferInstance (by omega)

instance : Rises (assignmentBody rules) (height + 9) := by
  unfold assignmentBody
  exact Rises.mono inferInstance (by omega)

instance : Rises (assignedValue rules) (height + 1) := by
  unfold assignedValue
  exact Rises.mono inferInstance (by omega)

instance : Rises (initializer rules) (height + 3) := by
  unfold initializer
  refine Rises.mono (show Rises _ (max 0 (height + 3)) from .bind inferInstance ?_) (by omega)
  intro token
  extract_lets after
  have hafter (read : Unit) : Rises (after read) 0 := by
    unfold after
    exact Rises.mono inferInstance (by omega)
  split <;> exact Rises.mono inferInstance (by omega)

/-! ## Statements -/

instance (initializer : Parse Unit) (height : Nat) [Rises initializer height] :
    Rises (variableNames initializer) (max height 1) := by
  unfold variableNames
  exact Rises.mono inferInstance (by omega)

instance : Rises (localVariable rules) (height + 4) := by
  have hkind (kind : TokenKind) : Rises (match kind with
      | .openParen => argumentList rules true
      | .assign => do
          skip
          assignedValue rules
      | _ => return) (height + 3) := by
    split <;> exact Rises.mono inferInstance (by omega)
  unfold localVariable
  exact Rises.mono inferInstance (by omega)

end Values

instance (room : Nat) : ValuesRise (valueRules room) (8 * room) := by
  induction room with
  | zero =>
      exact ⟨Nat.le_refl _, inferInstanceAs (Rises (tooDeep .assignment) 1),
        inferInstanceAs (Rises (tooDeep .initList) 1)⟩
  | succ room ih =>
      have hassignment : Rises (deferred fun _ => assignmentBody (valueRules room)) _ :=
        inferInstance
      have hlist : Rises (deferred fun _ => initListBody (valueRules room)) _ := inferInstance
      exact ⟨show 2 * (room + 1) ≤ 8 * (room + 1) by omega, hassignment.mono (by omega),
        hlist.mono (by omega)⟩

section Statements

variable (rules : BlockRules) (height : Nat) [ValuesRise rules.toValueRules height]
  [Rises rules.statement (height + 1)]

instance : Rises (blockItem rules) (height + 4) := by
  unfold blockItem
  exact Rises.mono inferInstance (by omega)

instance (start : List Token) : Rises (blockStep rules start) (height + 4) := by
  unfold blockStep
  exact Rises.mono inferInstance (by omega)

instance : Rises (block rules) (height + 5) := by
  unfold block
  exact Rises.mono inferInstance (by omega)

instance : Rises (expressionStatement rules) (height + 2) := by
  unfold expressionStatement
  exact Rises.mono inferInstance (by omega)

instance (keyword : Keyword) : Rises (keywordCondition rules keyword) (height + 1) := by
  unfold keywordCondition
  exact Rises.mono inferInstance (by omega)

instance (kind : NodeKind) : Rises (jump kind) 1 := by
  unfold jump
  exact Rises.mono inferInstance (by omega)

instance : Rises (caseLabel rules) (height + 8) := by
  unfold caseLabel
  exact Rises.mono inferInstance (by omega)

instance : Rises (switchStatement rules) (height + 9) := by
  have hstep (kind : TokenKind) : Rises (match kind with
      | .closeBrace => do
          cover
          return false
      | .keyword .case_ | .keyword .default_ => do
          caseLabel rules
          return true
      | _ => (failExpected (.expectedOneOfKinds [.keyword .case_, .keyword .default_]) :
          Parse Bool)) (height + 8) := by
    split <;> exact Rises.mono inferInstance (by omega)
  unfold switchStatement
  exact Rises.mono inferInstance (by omega)

instance : Rises (ifStatement rules) (height + 2) := by
  unfold ifStatement
  exact Rises.mono inferInstance (by omega)

instance : Rises (whileStatement rules) (height + 2) := by
  unfold whileStatement
  exact Rises.mono inferInstance (by omega)

instance : Rises (doStatement rules) (height + 2) := by
  unfold doStatement
  exact Rises.mono inferInstance (by omega)

instance : Rises (forStatement rules) (height + 5) := by
  unfold forStatement
  exact Rises.mono inferInstance (by omega)

instance : Rises (returnStatement rules) (height + 2) := by
  unfold returnStatement
  exact Rises.mono inferInstance (by omega)

instance : Rises (tryStatement rules) (height + 6) := by
  unfold tryStatement
  exact Rises.mono inferInstance (by omega)

instance : Rises (statementBody rules) (height + 9) := by
  have hkind (kind : TokenKind) : Rises (match kind with
      | .openBrace => block rules
      | .keyword .if_ => ifStatement rules
      | .keyword .for_ => forStatement rules
      | .keyword .while_ => whileStatement rules
      | .keyword .do_ => doStatement rules
      | .keyword .switch => switchStatement rules
      | .keyword .return_ => returnStatement rules
      | .keyword .break_ => jump .break_
      | .keyword .continue_ => jump .continue_
      | .keyword .try_ => tryStatement rules
      | _ => do
          if ← sees (variableAhead rules.room) then fail .unexpectedVariableDeclaration
          else expressionStatement rules) (height + 9) := by
    split <;> exact Rises.mono inferInstance (by omega)
  unfold statementBody
  exact Rises.mono inferInstance (by omega)

end Statements

instance (room : Nat) : ValuesRise (blockRules room).toValueRules (8 * room) := by
  cases room <;> exact inferInstanceAs (ValuesRise (valueRules _) _)

instance (room : Nat) : Rises (blockRules room).statement (8 * room + 1) := by
  induction room with
  | zero =>
      have hfails : Rises (fail .maximumNestingDepth : Parse Unit) 0 := inferInstance
      exact hfails.mono (by omega)
  | succ room ih =>
      have hbody : Rises (deferred fun _ => statementBody (blockRules room)) _ := inferInstance
      exact hbody.mono (by omega)

/-! ## Signatures -/

instance (room : Nat) : Rises (returnType room) (2 * room + 2) := by
  unfold returnType
  exact Rises.mono inferInstance (by omega)

instance (room : Nat) : Rises (parameter room) (2 * room + 2) := by
  unfold parameter
  exact Rises.mono inferInstance (by omega)

instance (room : Nat) : Rises (parameterList room) (2 * room + 3) := by
  unfold parameterList
  exact Rises.mono inferInstance (by omega)

instance : Rises methodAttributes 1 := by
  unfold methodAttributes
  exact Rises.mono inferInstance (by omega)

instance (room : Nat) : Rises (signature room) (2 * room + 3) := by
  unfold signature
  exact Rises.mono inferInstance (by omega)

instance (room : Nat) : Rises (functionSignature room) (2 * room + 4) := by
  unfold functionSignature
  exact Rises.mono inferInstance (by omega)

instance (room : Nat) (nested : Parse Unit) (start : List Token) (height : Nat)
    [Rises nested height] :
    Rises (patternElement room nested start) (max height (2 * room + 1)) := by
  have hkind (token : Token) : Rises (match token.kind with
      | .closeBrace | .comma => failExpected .expectedDataType
      | .endOfSource => failAtEnd .statementBlock start
      | .openBrace => nested
      | _ => do
          if isPatternMarker token then fail (.unexpectedToken token.text)
          else dataType room { anyType := true }) (max height (2 * room + 1)) := by
    split <;> exact Rises.mono inferInstance (by omega)
  unfold patternElement
  exact Rises.mono inferInstance (by omega)

instance (start : List Token) : Rises (patternSeparator start) 0 := by
  have hkind (token : Token) : Rises (match token.kind with
      | .closeBrace => do
          skip
          return false
      | .comma => do
          skip
          return true
      | .endOfSource => failAtEnd .statementBlock start
      | _ =>
          if isPatternMarker token then fail (.unexpectedToken token.text)
          else failExpected (.expectedEitherKind .comma .closeBrace)) 0 := by
    split <;> exact Rises.mono inferInstance (by omega)
  unfold patternSeparator
  exact Rises.mono inferInstance (by omega)

instance (room : Nat) (nested : Parse Unit) (height : Nat) [Rises nested height] :
    Rises (listPatternBody room nested) (max height (2 * room + 1) + 1) := by
  unfold listPatternBody
  exact Rises.mono inferInstance (by omega)

instance (room : Nat) : Rises (listPattern room) (2 * room + 1) := by
  induction room with
  | zero => exact inferInstanceAs (Rises (tooDeep .listPattern) 1)
  | succ room ih =>
      have hbody : Rises (deferred fun _ => listPatternBody room (listPattern room)) _ :=
        inferInstance
      exact hbody.mono (by omega)

end

/-! ## Entries -/

instance : Rises expectEnd 0 := by
  unfold expectEnd
  exact Rises.mono inferInstance (by omega)

instance : Rises template 2 := by
  unfold template
  exact Rises.mono inferInstance (by omega)

instance (room : Nat) : Rises (registeredProperty room) (2 * room + 3) := by
  unfold registeredProperty
  exact Rises.mono inferInstance (by omega)

/-- What is parsed on its own rises eight nodes for each level of room. -/
theorem rises_rule {entry : Entry} (hentry : entry ≠ .script) (room : Nat) :
    Rises (entry.rule room) (8 * room + 7) := by
  cases entry with
  | script => exact absurd rfl hentry
  | _ =>
      dsimp only [Entry.rule]
      exact Rises.mono inferInstance (by omega)

end Parse
end Grammar

/-- The root is the first node that was built, or an empty one. -/
theorem Entry.root_height_le {entry : Entry} {options : Options} {source : Source} {height : Nat}
    (h : Node.heights (entry.session options source).building.children ≤ height)
    (hpos : 0 < height) : (entry.parse options source).root.height ≤ height := by
  change Node.height ((entry.session options source).building.children.headD _) ≤ _
  cases hchildren : (entry.session options source).building.children with
  | nil =>
      simp only [List.headD_nil, Node.height_eq, Node.empty, Node.heights_nil]
      omega
  | cons root rest =>
      rw [hchildren, Node.heights_cons] at h
      exact Nat.le_trans (Nat.le_max_left _ _) h

open Grammar in
theorem Entry.height_le {entry : Entry} (hentry : entry ≠ .script) (options : Options)
    (source : Source) : (entry.parse options source).root.height ≤ 8 * options.maxDepth + 7 := by
  have hheights := (Parse.rises_rule hentry options.maxDepth).heights_le
    (entry.setting options source) ⟨source.tokensFrom entry.start, {}, .empty .undefined⟩
  refine Entry.root_height_le (Nat.le_trans hheights ?_) (by omega)
  simp [Node.empty]

end ScriptSyntax
