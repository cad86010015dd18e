import ScriptSyntax.Source
import ScriptSyntax.Token

/-!
# Syntax trees

A node has a kind, the kind of the token it was anchored on, the span it covers, and its children
in source order.  Its span is the hull of everything it was widened over, its children included;
a node that has seen no text has none.
-/

namespace ScriptSyntax

inductive NodeKind
  | undefined | script | function | constant | dataType | identifier | parameterList
  | statementBlock | declaration | expressionStatement | expression | exprTerm | functionCall
  | constructCall | argList | exprPreOp | exprPostOp | exprOperator | exprValue | break_
  | continue_ | return_ | assignment | condition | if_ | for_ | while_ | doWhile | switch | case_
  | import_ | class_ | interface | enum | typedef | cast | variableAccess | funcdef
  | virtualProperty | namespace_ | mixin | initList | listPattern | namedArgument | scope
  | tryCatch
  deriving DecidableEq

namespace NodeKind

def name : NodeKind → String
  | undefined => "Undefined"
  | script => "Script"
  | function => "Function"
  | constant => "Constant"
  | dataType => "DataType"
  | identifier => "Identifier"
  | parameterList => "ParameterList"
  | statementBlock => "StatementBlock"
  | declaration => "Declaration"
  | expressionStatement => "ExpressionStatement"
  | expression => "Expression"
  | exprTerm => "ExprTerm"
  | functionCall => "FunctionCall"
  | constructCall => "ConstructCall"
  | argList => "ArgList"
  | exprPreOp => "ExprPreOp"
  | exprPostOp => "ExprPostOp"
  | exprOperator => "ExprOperator"
  | exprValue => "ExprValue"
  | break_ => "Break"
  | continue_ => "Continue"
  | return_ => "Return"
  | assignment => "Assignment"
  | condition => "Condition"
  | if_ => "If"
  | for_ => "For"
  | while_ => "While"
  | doWhile => "DoWhile"
  | switch => "Switch"
  | case_ => "Case"
  | import_ => "Import"
  | class_ => "Class"
  | interface => "Interface"
  | enum => "Enum"
  | typedef => "Typedef"
  | cast => "Cast"
  | variableAccess => "VariableAccess"
  | funcdef => "FuncDef"
  | virtualProperty => "VirtualProperty"
  | namespace_ => "Namespace"
  | mixin => "Mixin"
  | initList => "InitList"
  | listPattern => "ListPattern"
  | namedArgument => "NamedArgument"
  | scope => "Scope"
  | tryCatch => "TryCatch"

def entries : List NodeKind :=
  [undefined, script, function, constant, dataType, identifier, parameterList, statementBlock,
    declaration, expressionStatement, expression, exprTerm, functionCall, constructCall, argList,
    exprPreOp, exprPostOp, exprOperator, exprValue, break_, continue_, return_, assignment,
    condition, if_, for_, while_, doWhile, switch, case_, import_, class_, interface, enum,
    typedef, cast, variableAccess, funcdef, virtualProperty, namespace_, mixin, initList,
    listPattern, namedArgument, scope, tryCatch]

theorem mem_entries (kind : NodeKind) : kind ∈ entries := by
  cases kind <;> decide

end NodeKind

structure Node where
  kind : NodeKind
  token : Option TokenKind
  span : Option Span
  children : List Node

namespace Node

/-- A node that has seen nothing yet. -/
def empty (kind : NodeKind) : Node :=
  ⟨kind, none, none, []⟩

/-- Grow the span.  A span that carries no position changes nothing. -/
def widen (node : Node) (span : Span) : Node :=
  if span = .nowhere then node
  else { node with span := some (node.span.elim span (·.hull span)) }

/-- Record the token's kind and grow the span over it. -/
def anchor (node : Node) (token : Token) : Node :=
  { node with token := some token.kind }.widen token.span

def ofToken (kind : NodeKind) (token : Token) : Node :=
  (empty kind).anchor token

/-- Put a child last and grow the span over it. -/
def append (node child : Node) : Node :=
  let node := { node with children := node.children ++ [child] }
  child.span.elim node node.widen

/-- The last child and the node without it.  The span stays as it is. -/
def pop (node : Node) : Option Node × Node :=
  (node.children.getLast?, { node with children := node.children.dropLast })

def position (node : Node) : Nat :=
  node.span.elim 0 (·.start)

def length (node : Node) : Nat :=
  node.span.elim 0 (·.length)

/-- The text under the node, empty if its span does not bound whole characters of the source. -/
def text (node : Node) (source : Source) : Source :=
  (node.span.bind fun span => source.slice? span.start span.stop).getD []

/-- What a rollback needs to remember: how many children there were, and the span. -/
structure Checkpoint where
  children : Nat
  span : Option Span
  deriving DecidableEq

def checkpoint (node : Node) : Checkpoint :=
  ⟨node.children.length, node.span⟩

/-- The children that came after the checkpoint, and the node without them and with its former
span. -/
def rollback (node : Node) (saved : Checkpoint) : List Node × Node :=
  (node.children.drop saved.children,
    { node with children := node.children.take saved.children, span := saved.span })

mutual

/-- The nodes of a tree, each before its children, with their depths. -/
def outline (depth : Nat) : Node → List (Nat × Node)
  | ⟨kind, token, span, children⟩ =>
      (depth, ⟨kind, token, span, children⟩) :: outlines (depth + 1) children

def outlines (depth : Nat) : List Node → List (Nat × Node)
  | [] => []
  | node :: rest => outline depth node ++ outlines depth rest

end

/-- The node and everything below it, each node before its children. -/
def descendants (node : Node) : List Node :=
  (node.outline 0).map (·.2)

mutual

def beq : Node → Node → Bool
  | ⟨kind, token, span, children⟩, ⟨kind', token', span', children'⟩ =>
      kind = kind' && token = token' && span = span' && beqs children children'

def beqs : List Node → List Node → Bool
  | [], [] => true
  | node :: rest, node' :: rest' => beq node node' && beqs rest rest'
  | _, _ => false

end

instance : BEq Node := ⟨beq⟩

mutual

theorem eq_of_beq : ∀ {first second : Node}, beq first second = true → first = second
  | ⟨kind, token, span, children⟩, ⟨kind', token', span', children'⟩, h => by
      simp only [beq, Bool.and_eq_true, decide_eq_true_eq] at h
      obtain ⟨⟨⟨rfl, rfl⟩, rfl⟩, hchildren⟩ := h
      rw [eq_of_beqs hchildren]

theorem eq_of_beqs : ∀ {first second : List Node}, beqs first second = true → first = second
  | [], [], _ => rfl
  | [], _ :: _, h => by simp [beqs] at h
  | _ :: _, [], h => by simp [beqs] at h
  | _ :: _, _ :: _, h => by
      simp only [beqs, Bool.and_eq_true] at h
      rw [eq_of_beq h.1, eq_of_beqs h.2]

end

mutual

theorem beq_self : ∀ node : Node, beq node node = true
  | ⟨_, _, _, children⟩ => by simp [beq, beqs_self children]

theorem beqs_self : ∀ nodes : List Node, beqs nodes nodes = true
  | [] => rfl
  | node :: rest => by simp [beqs, beq_self node, beqs_self rest]

end

instance : LawfulBEq Node where
  eq_of_beq := eq_of_beq
  rfl := beq_self _

instance : DecidableEq Node := fun first second =>
  if h : first == second then .isTrue (LawfulBEq.eq_of_beq h)
  else .isFalse fun heq => h (heq ▸ beq_self_eq_true first)

end Node

end ScriptSyntax
