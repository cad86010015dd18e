import ScriptSyntax.Proofs.InitLists
import ScriptSyntax.Proofs.NestedBlocks
import ScriptSyntax.Proofs.TreeGrammar.Declaration

/-!
# Lists inside of lists

Wherever a list stands in a tree that is built without an error, its slots are filled by its
children.  Each list is read from tokens of the source, although operators may have been read anew in
front of it, because an opening brace is never a part of one.
-/

namespace ScriptSyntax

namespace Node

/-- All lists below the node are of one sort. -/
def ListsBelow (sort : Node → Prop) (node : Node) : Prop :=
  ∀ child ∈ node.children, ∀ list ∈ child.descendants, list.kind = .initList → sort list

variable {sort : Node → Prop} {node other child : Node}

theorem ListsBelow.of_children (h : node.ListsBelow sort) (hchildren : other.children = node.children) :
    other.ListsBelow sort := by
  unfold ListsBelow
  rw [hchildren]
  exact h

theorem ListsBelow.append (h : node.ListsBelow sort) (hlist : child.kind = .initList → sort child)
    (hchild : child.ListsBelow sort) : (node.append child).ListsBelow sort := by
  unfold ListsBelow
  rw [children_append]
  intro other hother list hmem
  rcases List.mem_append.mp hother with hother | hother
  · exact h other hother list hmem
  · obtain rfl := List.mem_singleton.mp hother
    rw [descendants_eq] at hmem
    rcases List.mem_cons.mp hmem with rfl | hmem
    · exact hlist
    · obtain ⟨inner, hinner, hmem⟩ := List.mem_flatMap.mp hmem
      exact hchild inner hinner list hmem

/-- What passes a test that goes on to the rows of a form goes on to everything below a node. -/
theorem Follows.descendants {test : Form → Bool} {form : Form}
    (htest : ∀ form, test form = true → form.row.All test = true) (h : node.Follows form)
    (hform : test form = true) :
    ∀ other ∈ node.descendants, ∃ form, test form = true ∧ other.Follows form := by
  induction hheight : node.height using Nat.strong_induction_on generalizing node form with
  | _ height ih =>
      subst hheight
      intro other hmem
      rw [descendants_eq] at hmem
      rcases List.mem_cons.mp hmem with rfl | hmem
      · exact ⟨form, hform, h⟩
      · obtain ⟨child, hchild, hmem⟩ := List.mem_flatMap.mp hmem
        obtain ⟨inner, hinner, hfollows⟩ := h.fits.mem (htest form hform) child hchild
        exact ih child.height (height_lt_of_mem hchild) hfollows hinner rfl other hmem

end Node

/-- Forms of nodes with no list in them, because what they hold of values is only captured. -/
def Form.isListless : Form → Bool
  | expression | condition | assignment | term | value | postOperator | constructCall | functionCall
  | argList | namedArgument | cast | initList | localVariable | block | if_ | while_ | doWhile | for_
  | switch | case_ | return_ | tryCatch | expressionStatement => false
  | _ => true

theorem Form.row_isListless (form : Form) (h : form.isListless = true) :
    form.row.All isListless = true := by
  cases form with
  | property place => cases place <;> rfl
  | accessor place => cases place <;> rfl
  | _ => first | rfl | cases h

theorem Node.Follows.kind_ne_initList {node : Node} {form : Form} (h : node.Follows form)
    (hform : form.isListless = true) : node.kind ≠ .initList := by
  rw [h.kind_eq]
  cases form <;> first | (cases hform; done) | simp [Form.kind]

namespace Grammar.Parse

variable {α β : Type} {rule : Parse α} {next : α → Parse β}

/-- A rule that is run without an error keeps filled the slots of all lists in what is built.  The
tokens of the source, from somewhere on, lead to those that are ahead. -/
class KeepsLists (rule : Parse α) : Prop where
  keeps : ∀ setting tokens session value after, setting.Ended → setting.Whole →
    setting.finish.span.start = setting.finish.span.stop → setting.Reads tokens →
    setting.Leads tokens session.ahead → rule setting session = (.ok value, after) →
    after.faults = [] → session.building.ListsBelow (Node.HasSlots tokens) →
    after.building.ListsBelow (Node.HasSlots tokens)

theorem keepsLists_of_children
    (h : ∀ setting session value after, rule setting session = (.ok value, after) →
      after.building.children = session.building.children) : KeepsLists rule := by
  constructor
  intro setting tokens session value after _ _ _ _ _ hrun _ hlists
  exact hlists.of_children (h setting session value after hrun)

/-- A rule that adds nodes without lists in them. -/
theorem keepsLists_of_adds {row : Row} [hadds : Adds rule row] (hrow : row.All Form.isListless = true) :
    KeepsLists rule := by
  constructor
  intro setting tokens session value after hended _ _ _ _ hrun hquiet hlists
  have hclean : (rule setting session).2.Clean := by
    rw [hrun]
    exact (after.ofSeverity_eq_faults (by decide)).trans (by rw [hquiet]; rfl)
  obtain ⟨-, -, -, _, nodes, -, hnodes, hchildren⟩ := hadds.extends_ setting session hended hclean
  rw [hrun] at hchildren
  unfold Node.ListsBelow
  rw [hchildren]
  intro child hchild list hmem hlist
  rcases List.mem_append.mp hchild with hchild | hchild
  · exact hlists child hchild list hmem hlist
  · obtain ⟨form, hform, hfollows⟩ := hnodes.mem hrow child hchild
    obtain ⟨inner, hinner, hbelow⟩ := hfollows.descendants Form.row_isListless hform list hmem
    exact absurd hlist (hbelow.kind_ne_initList hinner)

/-! ## Building blocks -/

instance (priority := low) [Interrupts rule] : KeepsLists rule :=
  ⟨fun _ _ _ _ _ _ _ _ _ _ hrun => absurd hrun not_ok_of_interrupts⟩

instance [hrule : KeepsLists rule] [hforwards : Forwards rule]
    [hnext : ∀ value, KeepsLists (next value)] [hbehind : ∀ value, Forwards (next value)] :
    KeepsLists (rule >>= next) := by
  constructor
  intro setting tokens session value after hended hwhole hfinish htokens hleads hrun hquiet hlists
  obtain ⟨first, middle, hfirst, hsecond⟩ := bind_ok hrun
  have hreported := (hbehind first).reported setting middle
  rw [hsecond] at hreported
  have hmiddle : middle.faults = [] := List.prefix_nil.mp (hquiet ▸ hreported.filter _)
  have hlists' := hrule.keeps setting tokens session first middle hended hwhole hfinish htokens hleads
    hfirst hmiddle hlists
  exact (hnext first).keeps setting tokens middle value after hended hwhole hfinish htokens
    (hleads.trans (hforwards.leads setting session first middle hfirst)) hsecond hquiet hlists'

theorem KeepsLists.of_looks [Looks rule] (hnext : ∀ value, KeepsLists (next value)) :
    KeepsLists (rule >>= next) := by
  constructor
  intro setting tokens session value after hended hwhole hfinish htokens hleads hrun
  obtain ⟨first, hrest⟩ := looks_bind hrun
  exact (hnext first).keeps setting tokens session value after hended hwhole hfinish htokens hleads
    hrest

instance (condition : Prop) [Decidable condition] (rule other : Parse α) [KeepsLists rule]
    [KeepsLists other] : KeepsLists (if condition then rule else other) := by
  split <;> infer_instance

instance (rule : Unit → Parse α) [hrule : KeepsLists (rule ())] : KeepsLists (deferred rule) :=
  ⟨fun setting => hrule.keeps setting⟩

/-- A node that is no list itself. -/
theorem keepsLists_node {kind : NodeKind} [hrule : KeepsLists rule] [Advances rule]
    (hkind : kind ≠ .initList) : KeepsLists (node kind rule) := by
  constructor
  intro setting tokens session value after hended hwhole hfinish htokens hleads hrun hquiet hlists
  obtain ⟨inner, hinner, rfl⟩ := node_ok hrun
  refine hlists.append (fun hlist => ?_) ?_
  · exact absurd ((advance_of_run hinner).building.kind.symm.trans hlist) hkind
  · exact hrule.keeps setting tokens (session.opened kind) value inner hended hwhole hfinish htokens
      hleads hinner hquiet fun child hmem => absurd hmem List.not_mem_nil

/-! ## Rules without lists -/

instance (priority := low) [Adds rule 1] : KeepsLists rule :=
  keepsLists_of_adds rfl

instance : KeepsLists mark :=
  keepsLists_of_adds rfl

instance : KeepsLists (leaf .exprPreOp) :=
  keepsLists_of_adds rfl

instance : KeepsLists (leaf .exprOperator) :=
  keepsLists_of_adds rfl

instance (kind : TokenKind) : KeepsLists (markIf kind) :=
  keepsLists_of_adds rfl

instance : KeepsLists identifier :=
  keepsLists_of_adds rfl

instance (kind : NodeKind) : KeepsLists (tooDeep kind) :=
  keepsLists_of_adds rfl

instance (room : Nat) (forms : TypeForms) : KeepsLists (dataType room forms) :=
  keepsLists_of_adds rfl

instance (ofParameter : Bool) : KeepsLists (typeModifier ofParameter) :=
  keepsLists_of_adds rfl

instance (room : Nat) : KeepsLists (scope room) :=
  keepsLists_of_adds rfl

section

set_option synthInstance.maxSize 40000

/-! ## Loops -/

instance (count : Nat) (body : Parse Bool) [Forwards body] [KeepsLists body] :
    KeepsLists (repeatUpTo count body) := by
  induction count with
  | zero => exact inferInstanceAs (KeepsLists (pure ()))
  | succ count ih =>
      unfold repeatUpTo
      infer_instance

instance (body : Parse Bool) [Forwards body] [KeepsLists body] : KeepsLists (repeatRule body) := by
  unfold repeatRule
  infer_instance

instance (item : Parse Unit) [Forwards item] [KeepsLists item] : KeepsLists (commaSeparated item) := by
  unfold commaSeparated
  infer_instance

instance (test : Token → Bool) (rule : Parse Unit) [Forwards rule] [KeepsLists rule] :
    KeepsLists (whileNext test rule) := by
  unfold whileNext
  infer_instance

/-! ## Values -/

section Values

variable (rules : ValueRules) [Advances rules.assignment] [Advances rules.initList]
  [KeepsLists rules.assignment] [KeepsLists rules.initList] {room : Nat}

instance : KeepsLists (argument rules) := by
  have hnamed (old : Bool) : KeepsLists (node .namedArgument do
      identifier
      if old then diagnose .warning .oldNamedArgument (← peek)
      skip
      rules.assignment) :=
    keepsLists_node (by decide)
  unfold argument
  infer_instance

instance (parenthesized : Bool) : KeepsLists (argumentList rules parenthesized) := by
  have harguments : KeepsLists (do
      match (← peek).kind with
      | .closeParen => if parenthesized then cover
      | .closeBracket => if parenthesized then fail (.unexpectedKind .closeBracket)
      | _ =>
          commaSeparated (argument rules)
          if parenthesized then
            if ← nextIs .closeParen then cover
            else failExpected (.expectedEitherKind .closeParen .comma)) := by
    refine .of_looks fun token => ?_
    split <;> infer_instance
  unfold argumentList
  exact keepsLists_node (by decide)

instance : KeepsLists (functionCall rules) := by
  unfold functionCall
  exact keepsLists_node (by decide)

instance : KeepsLists (constructCall rules) := by
  unfold constructCall
  exact keepsLists_node (by decide)

instance : KeepsLists (cast rules) := by
  unfold cast
  exact keepsLists_node (by decide)

instance : KeepsLists (variableAccess room) :=
  keepsLists_of_adds rfl

instance : KeepsLists (lambda room) :=
  keepsLists_of_adds rfl

instance : KeepsLists constant :=
  keepsLists_of_adds rfl

instance : KeepsLists (namedValue rules) := by
  unfold namedValue
  infer_instance

instance : KeepsLists (value rules) := by
  have hvalue : KeepsLists (do
      match (← peek).kind with
      | .keyword .void => mark
      | .keyword .cast => cast rules
      | .openParen =>
          cover
          rules.assignment
          widen (← peek).span
          let _ ← require .closeParen
      | .unterminatedString => fail .unterminatedString
      | kind =>
          if kind.isPrimitiveType then constructCall rules
          else if kind.isIdentifier || kind = .scope then namedValue rules
          else if kind.isConstant then constant
          else failExpected .expectedExpressionValue) := by
    refine .of_looks fun token => ?_
    split <;> infer_instance
  unfold value
  exact keepsLists_node (by decide)

instance : KeepsLists (postOperator rules) := by
  have hoperator : KeepsLists (do
      let token ← peek
      anchor token
      match token.kind with
      | .dot =>
          skip
          if (← peekSecond).kind = .openParen then functionCall rules else identifier
      | .openBracket =>
          skip
          argumentList rules false
          coverRequired .closeBracket
      | .openParen => argumentList rules true
      | _ => skip) := by
    refine .of_looks fun token => ?_
    split <;> infer_instance
  unfold postOperator
  exact keepsLists_node (by decide)

instance : KeepsLists (term rules) := by
  unfold term
  exact keepsLists_node (by decide)

instance : KeepsLists (expression rules) := by
  unfold expression
  exact keepsLists_node (by decide)

instance : KeepsLists (condition rules) := by
  unfold condition
  exact keepsLists_node (by decide)

instance : KeepsLists (assignmentBody rules) := by
  unfold assignmentBody
  exact keepsLists_node (by decide)

instance : KeepsLists (listElement rules) := by
  have hempty : KeepsLists emptySlot := keepsLists_of_adds rfl
  unfold listElement
  refine .of_looks fun token => ?_
  split <;> infer_instance

instance : KeepsLists (braced rules) := by
  unfold braced
  infer_instance

end Values

instance (room : Nat) [KeepsLists (valueRules room).assignment]
    [KeepsLists (valueRules room).initList] : KeepsLists (initListBody (valueRules room)) := by
  have hbraced : KeepsLists (braced (valueRules room)) := inferInstance
  rw [initListBody_eq]
  constructor
  intro setting tokens session value after hended hwhole hfinish htokens hleads hrun hquiet hlists
  obtain ⟨inner, hinner, rfl⟩ := node_ok hrun
  have hslots : inner.building.HasSlots tokens := braced_fillsSlots hended hwhole hfinish
    (htokens.leads hleads) htokens hleads hinner
  refine hlists.append (fun _ => hslots) ?_
  exact hbraced.keeps setting tokens (session.opened .initList) value inner hended hwhole hfinish
    htokens hleads hinner hquiet fun child hmem => absurd hmem List.not_mem_nil

theorem keepsLists_valueRules (room : Nat) :
    KeepsLists (valueRules room).assignment ∧ KeepsLists (valueRules room).initList := by
  induction room with
  | zero =>
      exact ⟨inferInstanceAs (KeepsLists (tooDeep _)), inferInstanceAs (KeepsLists (tooDeep _))⟩
  | succ room ih =>
      obtain ⟨hassignment, hlist⟩ := ih
      exact ⟨inferInstanceAs (KeepsLists (deferred fun _ => assignmentBody (valueRules room))),
        inferInstanceAs (KeepsLists (deferred fun _ => initListBody (valueRules room)))⟩

instance (room : Nat) : KeepsLists (valueRules room).assignment :=
  (keepsLists_valueRules room).1

instance (room : Nat) : KeepsLists (valueRules room).initList :=
  (keepsLists_valueRules room).2

instance (rules : ValueRules) [Advances rules.assignment] [Advances rules.initList]
    [KeepsLists rules.assignment] [KeepsLists rules.initList] : KeepsLists (assignedValue rules) := by
  unfold assignedValue
  infer_instance

instance (room : Nat) : KeepsLists (initializer (valueRules room)) := by
  unfold initializer
  refine .of_looks fun token => ?_
  extract_lets after
  have hafter (value : Unit) : KeepsLists (after value) := by
    unfold after
    infer_instance
  have hforwards (value : Unit) : Forwards (after value) := by
    unfold after
    infer_instance
  clear_value after
  split <;> infer_instance

/-! ## Statements -/

section Statements

variable (room : Nat)

instance : KeepsLists (blockRules room).assignment := by
  rw [blockRules_toValueRules]
  infer_instance

instance : KeepsLists (blockRules room).initList := by
  rw [blockRules_toValueRules]
  infer_instance

instance : KeepsLists (localVariable (blockRules room).toValueRules) := by
  have hvalue : KeepsLists (do
      match (← peek).kind with
      | .openParen => argumentList (blockRules room).toValueRules true
      | .assign =>
          skip
          assignedValue (blockRules room).toValueRules
      | _ => return) := by
    refine .of_looks fun token => ?_
    split <;> infer_instance
  unfold localVariable variableNames
  exact keepsLists_node (by decide)

variable [KeepsLists (blockRules room).statement]

instance : KeepsLists (blockItem (blockRules room)) := by
  unfold blockItem
  infer_instance

instance (start : List Token) : KeepsLists (blockStep (blockRules room) start) := by
  constructor
  intro setting tokens session value after hended hwhole hfinish htokens hleads hrun hquiet hlists
  cases value with
  | true =>
      have hitem := blockStep_again hquiet hrun
      exact KeepsLists.keeps setting tokens session _ after hended hwhole hfinish htokens hleads hitem
        hquiet hlists
  | false =>
      obtain ⟨-, rfl⟩ := blockStep_last hrun
      exact hlists.of_children (Node.children_widen _ _)

instance : KeepsLists (block (blockRules room)) := by
  unfold block
  exact keepsLists_node (by decide)

instance : KeepsLists (expressionStatement (blockRules room)) := by
  unfold expressionStatement
  exact keepsLists_node (by decide)

instance (keyword : Keyword) : KeepsLists (keywordCondition (blockRules room) keyword) := by
  unfold keywordCondition
  infer_instance

instance : KeepsLists (jump .break_) :=
  keepsLists_of_adds rfl

instance : KeepsLists (jump .continue_) :=
  keepsLists_of_adds rfl

instance : KeepsLists (returnStatement (blockRules room)) := by
  unfold returnStatement
  exact keepsLists_node (by decide)

instance : KeepsLists (caseLabel (blockRules room)) := by
  unfold caseLabel
  exact keepsLists_node (by decide)

instance : KeepsLists (switchStatement (blockRules room)) := by
  have hround : KeepsLists (do
      match (← peek).kind with
      | .closeBrace =>
          cover
          return false
      | .keyword .case_ | .keyword .default_ =>
          caseLabel (blockRules room)
          return true
      | _ => failExpected (.expectedOneOfKinds [.keyword .case_, .keyword .default_])) := by
    refine .of_looks fun token => ?_
    split <;> infer_instance
  unfold switchStatement
  exact keepsLists_node (by decide)

instance : KeepsLists (ifStatement (blockRules room)) := by
  unfold ifStatement
  exact keepsLists_node (by decide)

instance : KeepsLists (whileStatement (blockRules room)) := by
  unfold whileStatement
  exact keepsLists_node (by decide)

instance : KeepsLists (doStatement (blockRules room)) := by
  unfold doStatement
  exact keepsLists_node (by decide)

instance : KeepsLists (forStatement (blockRules room)) := by
  have hstep : KeepsLists (node .expressionStatement (blockRules room).assignment) :=
    keepsLists_node (by decide)
  unfold forStatement
  exact keepsLists_node (by decide)

instance : KeepsLists (tryStatement (blockRules room)) := by
  unfold tryStatement
  exact keepsLists_node (by decide)

instance : KeepsLists (statementBody (blockRules room)) := by
  unfold statementBody
  refine .of_looks fun token => ?_
  split <;> infer_instance

end Statements

theorem keepsLists_statement (room : Nat) : KeepsLists (blockRules room).statement := by
  induction room with
  | zero => exact inferInstanceAs (KeepsLists (fail .maximumNestingDepth : Parse Unit))
  | succ room ih => exact inferInstanceAs (KeepsLists (deferred fun _ => statementBody (blockRules room)))

/-! ## Entries -/

instance (room : Nat) : KeepsLists (block (blockRules room)) := by
  have hstatement := keepsLists_statement room
  infer_instance

instance (room : Nat) : KeepsLists (signature room) := by
  have htype : KeepsLists (returnType room) := keepsLists_of_adds rfl
  have hparameters : KeepsLists (parameterList room) := keepsLists_of_adds rfl
  have hattributes : KeepsLists methodAttributes := keepsLists_of_adds rfl
  unfold signature
  infer_instance

instance (room : Nat) (nested : Parse Unit) [Advances nested] [KeepsLists nested]
    (start : List Token) : KeepsLists (patternElement room nested start) := by
  have hend : Interrupts (failAtEnd .statementBlock start : Parse Unit) := ⟨fun _ _ => ⟨_, rfl⟩⟩
  unfold patternElement
  refine .of_looks fun token => ?_
  split <;> infer_instance

instance (start : List Token) : KeepsLists (patternSeparator start) :=
  keepsLists_of_children fun setting session again after hrun => by
    obtain ⟨-, rfl⟩ := patternSeparator_ok hrun
    exact Node.children_widen _ _

instance (room : Nat) : KeepsLists (listPattern room) := by
  induction room with
  | zero => exact inferInstanceAs (KeepsLists (tooDeep _))
  | succ room ih =>
      have hpattern : KeepsLists (listPatternBody room (listPattern room)) := by
        unfold listPatternBody
        exact keepsLists_node (by decide)
      exact inferInstanceAs (KeepsLists (deferred _))

instance : KeepsLists expectEnd := by
  unfold expectEnd
  infer_instance

instance : KeepsLists template := by
  unfold template
  exact keepsLists_node (by decide)

instance (room : Nat) : KeepsLists (registeredProperty room) := by
  unfold registeredProperty
  exact keepsLists_node (by decide)

instance (room : Nat) : KeepsLists (script room) :=
  keepsLists_of_adds rfl

instance (room : Nat) : KeepsLists (functionSignature room) :=
  keepsLists_of_adds rfl

theorem keepsLists_rule (entry : Entry) (room : Nat) : KeepsLists (entry.rule room) := by
  cases entry with
  | listFactorySignature =>
      have hfactory : KeepsLists (node .function do
          signature room
          listPattern room) :=
        keepsLists_node (by decide)
      unfold Entry.rule
      infer_instance
  | dataType ofReturn =>
      have htype : KeepsLists (node .dataType do
          dataType room { anyType := true, auto := true }
          if ofReturn then typeModifier false) :=
        keepsLists_node (by decide)
      unfold Entry.rule
      infer_instance
  | _ =>
      unfold Entry.rule
      infer_instance

end

end Grammar.Parse

namespace Entry

open Grammar Grammar.Parse

/-- In a tree that is built without an error, each list reaches from brace to brace, has one child
more than separators unless it is empty, and leaves a child undefined just where nothing is written
between the marks that have its place. -/
theorem parse_initLists (entry : Entry) (options : Options) (source : Source)
    (hclean : (entry.parse options source).diagnostics.errors = []) :
    ∀ list ∈ (entry.parse options source).root.descendants, list.kind = .initList →
      (∃ opening closing, list.FillsSlots (source.tokensFrom entry.start) opening closing) ∧
        (list.children.filterMap (·.span)).Pairwise Span.Precedes := by
  have hquiet := entry.session_faults options source hclean
  have hwhole : (entry.setting options source).Whole := Nat.le_max_right _ _
  have hlists : (entry.session options source).building.ListsBelow
      (Node.HasSlots (source.tokensFrom entry.start)) :=
    (keepsLists_rule entry options.maxDepth).keeps (entry.setting options source) _
      ⟨source.tokensFrom entry.start, {}, .empty .undefined⟩ () _ rfl hwhole rfl ⟨entry.start, rfl⟩
      .refl (entry.run_of_clean options source hclean) hquiet fun _ hmem => nomatch hmem
  intro list hmem hlist
  have hordered := entry.siblings_of_quiet options source hquiet list hmem
  refine ⟨?_, hordered⟩
  change list ∈ ((entry.session options source).building.children.headD _).descendants at hmem
  cases hchildren : (entry.session options source).building.children with
  | nil =>
      rw [hchildren, List.headD_nil, Node.descendants_eq] at hmem
      rw [List.mem_singleton.mp hmem] at hlist
      cases hlist
  | cons child rest =>
      rw [hchildren] at hmem
      exact hlists child (hchildren ▸ List.mem_cons_self) list hmem hlist

/-- Between the brackets of a type and the arguments of a call there are commas that separate
nothing. -/
theorem parse_initLists_nested :
    let source : Source := ['=', '{', 'A', '<', 'A', '<', 'i', 'n', 't', '>', '>', '(', 'a', ',', 'b',
      ')', ',', ',', '{', '2', ',', '}', ',', '{', '}', '}']
    let outcome := (initializer 0).parse { templateTypes := ["A"] } source
    outcome.diagnostics.errors = [] ∧
      outcome.root.kind = .initList ∧
      outcome.root.children.map (·.kind) = [.assignment, .undefined, .initList, .initList] ∧
      (outcome.root.separators (source.tokensFrom 0)).map (·.span) = [⟨16, 17⟩, ⟨17, 18⟩, ⟨22, 23⟩] ∧
      ∀ list ∈ outcome.root.descendants, list.kind = .initList →
        (∃ opening closing, list.FillsSlots (source.tokensFrom 0) opening closing) ∧
          (list.children.filterMap (·.span)).Pairwise Span.Precedes := by
  have hclean : ((initializer 0).parse { templateTypes := ["A"] } ['=', '{', 'A', '<', 'A', '<', 'i',
      'n', 't', '>', '>', '(', 'a', ',', 'b', ')', ',', ',', '{', '2', ',', '}', ',', '{', '}',
      '}']).diagnostics.errors = [] := by
    decide +kernel
  exact ⟨hclean, by decide +kernel, by decide +kernel, by decide +kernel, parse_initLists _ _ _ hclean⟩
end Entry

end ScriptSyntax
