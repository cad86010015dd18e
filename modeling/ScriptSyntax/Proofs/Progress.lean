import ScriptSyntax.Proofs.Advance

/-!
# Parsing makes progress

A rule that reads a declaration, a statement or a part of one passes at least one token if it comes
to its end.  This is what bounds the loops of the grammar: each round but the last leaves less text
ahead, also one that has passed over broken text.
-/

namespace ScriptSyntax.Grammar

/-- At least one token is passed, or the first byte of one. -/
def Setting.Passes (setting : Setting) : List Token → List Token → Prop :=
  Relation.TransGen setting.Step

theorem Setting.not_passes_nil (setting : Setting) (tokens : List Token) :
    ¬setting.Passes [] tokens := by
  intro h
  obtain ⟨next, hstep, -⟩ := Relation.TransGen.head'_iff.mp h
  rcases hstep with ⟨token, heq⟩ | hgreater
  · cases heq
  · cases hgreater

/-- Behind a brace there are the tokens to which a step from it leads. -/
theorem Setting.leads_of_passes {setting : Setting} {brace : Token} {rest tokens : List Token}
    (hkind : brace.kind = .openBrace) (h : setting.Passes (brace :: rest) tokens) :
    setting.Leads rest tokens := by
  obtain ⟨next, hstep, hleads⟩ := Relation.TransGen.head'_iff.mp h
  rcases hstep with ⟨token, heq⟩ | hgreater
  · obtain ⟨rfl, rfl⟩ := List.cons.inj heq
    exact hleads
  · simp [Setting.afterGreater?, hkind, TokenKind.startsWithGreater] at hgreater

/-- A setting with the end of its source behind the last token. -/
def Setting.Ended (setting : Setting) : Prop :=
  setting.finish.kind = .endOfSource

theorem Setting.passes_tail {setting : Setting} {tokens : List Token} (h : tokens ≠ []) :
    setting.Passes tokens tokens.tail := by
  cases tokens with
  | nil => exact absurd rfl h
  | cons token rest => exact .single (.inl ⟨token, rfl⟩)

theorem Setting.Ended.head_nil {setting : Setting} {session : Session} (h : setting.Ended)
    (hnil : session.ahead = []) : (setting.head session).kind = .endOfSource := by
  rw [Setting.head_nil hnil]
  exact h

/-- The next token is there if it is of a kind that is no end. -/
theorem Setting.Ended.ahead_cons {setting : Setting} {session : Session} (h : setting.Ended)
    (hhead : (setting.head session).kind ≠ .endOfSource) :
    session.ahead = setting.head session :: session.ahead.tail := by
  cases htokens : session.ahead with
  | nil => exact absurd (h.head_nil htokens) hhead
  | cons token rest => rw [Setting.head_cons htokens, List.tail_cons]

theorem Setting.Ended.passes_tail {setting : Setting} {session : Session} (h : setting.Ended)
    (hhead : (setting.head session).kind ≠ .endOfSource) :
    setting.Passes session.ahead session.ahead.tail :=
  Setting.passes_tail fun hnil => hhead (h.head_nil hnil)

namespace Parse

variable {α β : Type}

/-- The rule passes a token, unless it ends early. -/
class Consumes (rule : Parse α) : Prop where
  passes : ∀ setting session value after, setting.Ended →
    rule setting session = (.ok value, after) → setting.Passes session.ahead after.ahead

theorem Consumes.of_left {rule : Parse α} {next : α → Parse β}
    (hnext : ∀ value, Forwards (next value)) (hrule : Consumes rule) :
    Consumes (rule >>= next) := by
  constructor
  intro setting session value after hended hrun
  obtain ⟨first, middle, hfirst, hsecond⟩ := bind_ok hrun
  exact (hrule.passes setting session first middle hended hfirst).trans_left
    ((hnext first).leads setting middle value after hsecond)

theorem Consumes.of_right {rule : Parse α} {next : α → Parse β} (hrule : Forwards rule)
    (hnext : ∀ value, Consumes (next value)) : Consumes (rule >>= next) := by
  constructor
  intro setting session value after hended hrun
  obtain ⟨first, middle, hfirst, hsecond⟩ := bind_ok hrun
  exact Relation.TransGen.trans_right (hrule.leads setting session first middle hfirst)
    ((hnext first).passes setting middle value after hended hsecond)

instance (priority := high) (rule : Parse α) (next : α → Parse β) [∀ value, Forwards (next value)]
    [Consumes rule] : Consumes (rule >>= next) :=
  .of_left inferInstance inferInstance

instance (rule : Parse α) (next : α → Parse β) [Forwards rule] [∀ value, Consumes (next value)] :
    Consumes (rule >>= next) :=
  .of_right inferInstance inferInstance

instance (condition : Prop) [Decidable condition] (first second : Parse α) [Consumes first]
    [Consumes second] : Consumes (if condition then first else second) := by
  split <;> infer_instance

theorem Consumes.node {rule : Parse α} (kind : NodeKind) (hrule : Consumes rule) :
    Consumes (node kind rule) := by
  constructor
  intro setting session value after hended hrun
  obtain ⟨inner, hinner, rfl⟩ := node_ok hrun
  have hpasses := hrule.passes setting _ value inner hended hinner
  exact hpasses

instance (kind : NodeKind) (rule : Parse α) [Consumes rule] : Consumes (node kind rule) :=
  .node kind inferInstance

/-- A rule that never comes to its end passes what one likes. -/
theorem consumes_of_error {rule : Parse α}
    (h : ∀ setting session, ∃ after, rule setting session = (.error .syntaxError, after)) :
    Consumes rule := by
  constructor
  intro setting session value after hended hrun
  obtain ⟨other, hother⟩ := h setting session
  rw [hother] at hrun
  cases hrun

instance (message : Message) : Consumes (fail message : Parse α) :=
  consumes_of_error fun _ _ => ⟨_, rfl⟩

instance (message : Message) : Consumes (failExpected message : Parse α) :=
  consumes_of_error fun _ _ => ⟨_, rfl⟩

instance (rule : Unit → Parse α) [hrule : Consumes (rule ())] : Consumes (deferred rule) :=
  ⟨fun setting => hrule.passes setting⟩

/-! ## Tokens that have to be there -/

/-- A rule that begins by passing a token which is not the end. -/
theorem consumes_of_next {rule : Parse α}
    (h : ∀ setting session value after, setting.Ended → rule setting session = (.ok value, after) →
      (setting.head session).kind ≠ .endOfSource ∧
        after.ahead = session.ahead.tail) :
    Consumes rule := by
  constructor
  intro setting session value after hended hrun
  obtain ⟨hhead, hafter⟩ := h setting session value after hended hrun
  rw [hafter]
  exact hended.passes_tail hhead

theorem consumes_require {kind : TokenKind} (hkind : kind ≠ .endOfSource) :
    Consumes (require kind) := by
  apply consumes_of_next
  intro setting session value after hended hrun
  unfold require at hrun
  rw [nextIs_bind] at hrun
  split at hrun
  · rename_i hhead
    cases hrun
    refine ⟨?_, rfl⟩
    rw [of_decide_eq_true hhead]
    exact hkind
  · cases hrun

instance (word : Keyword) : Consumes (require (.keyword word)) :=
  consumes_require (by simp)

instance (word : Operator) : Consumes (require (.operator word)) :=
  consumes_require (by simp)

instance (mark : Punctuation) : Consumes (require (.punctuation mark)) :=
  consumes_require (by simp)

instance (kind : TokenKind) [Consumes (require kind)] : Consumes (coverRequired kind) := by
  unfold coverRequired
  infer_instance

instance : Consumes identifier := by
  unfold identifier
  have hname : Consumes (do
      if (← peek).kind.isIdentifier then anchor (← next) else failExpected .expectedIdentifier) := by
    apply consumes_of_next
    intro setting session value after hended hrun
    rw [peek_bind] at hrun
    split at hrun
    · rename_i hhead
      cases hrun
      refine ⟨?_, rfl⟩
      intro hend
      rw [hend] at hhead
      cases hhead
    · cases hrun
  infer_instance

/-! ## Types -/

section

set_option synthInstance.maxSize 2000

theorem TypeForms.kind_ne_end_of_allows {forms : TypeForms} {token : Token}
    (h : forms.allows token = true) : token.kind ≠ .endOfSource := by
  intro hend
  simp [TypeForms.allows, Token.isTypeName, hend, TokenKind.isIdentifier,
    TokenKind.isPrimitiveType] at h

instance (forms : TypeForms) : Consumes (typeName forms) := by
  unfold typeName
  have hname : Consumes (do
      let name ← peek
      if forms.allows name then anchor (← next)
      else if name.kind = .keyword .auto then fail .autoNotAllowed
      else failExpected .expectedDataType) := by
    apply consumes_of_next
    intro setting session value after hended hrun
    rw [peek_bind] at hrun
    split at hrun
    · rename_i hallows
      cases hrun
      exact ⟨TypeForms.kind_ne_end_of_allows hallows, rfl⟩
    · split at hrun <;> cases hrun
  infer_instance

instance (room : Nat) (argument : Parse Unit) (forms : TypeForms) [Advances argument] :
    Consumes (typeBody room argument forms) := by
  unfold typeBody
  infer_instance

instance (room : Nat) (forms : TypeForms) : Consumes (dataType room forms) := by
  cases room with
  | zero => exact inferInstanceAs (Consumes (node _ (fail _)))
  | succ room =>
      unfold dataType
      infer_instance

instance (room : Nat) : Consumes (returnType room) := by
  unfold returnType
  infer_instance

/-! ## Statements -/

section Statements

variable (rules : ValueRules) [Advances rules.assignment] [Advances rules.initList]

instance : Consumes (functionCall rules) := by
  unfold functionCall
  infer_instance

instance : Consumes (localVariable rules) := by
  unfold localVariable
  infer_instance

end Statements

section Statements

variable (rules : BlockRules) [Advances rules.assignment] [Advances rules.initList]
  [Advances rules.statement]

instance : Consumes (block rules) := by
  unfold block
  infer_instance

instance : Consumes (expressionStatement rules) := by
  unfold expressionStatement
  infer_instance

instance (keyword : Keyword) : Consumes (keywordCondition rules keyword) := by
  unfold keywordCondition
  infer_instance

instance (kind : NodeKind) : Consumes (jump kind) := by
  unfold jump
  infer_instance

instance : Consumes (caseLabel rules) := by
  unfold caseLabel
  infer_instance

instance : Consumes (switchStatement rules) := by
  unfold switchStatement
  infer_instance

instance : Consumes (ifStatement rules) := by
  unfold ifStatement
  infer_instance

instance : Consumes (whileStatement rules) := by
  unfold whileStatement
  infer_instance

instance : Consumes (doStatement rules) := by
  unfold doStatement
  infer_instance

instance : Consumes (forStatement rules) := by
  unfold forStatement
  exact .node _ (.of_right inferInstance fun covered => .of_left inferInstance inferInstance)

instance : Consumes (returnStatement rules) := by
  unfold returnStatement
  infer_instance

instance : Consumes (tryStatement rules) := by
  unfold tryStatement
  infer_instance

instance : Consumes (statementBody rules) := by
  unfold statementBody
  refine .of_right inferInstance ?_
  intro token
  split <;> infer_instance

instance [Consumes rules.statement] : Consumes (blockItem rules) := by
  unfold blockItem
  infer_instance

end Statements

instance (room : Nat) : Consumes (blockRules room).statement := by
  cases room with
  | zero => exact inferInstanceAs (Consumes (fail _))
  | succ room =>
      exact inferInstanceAs (Consumes (deferred fun _ => statementBody (blockRules room)))

/-! ## Declarations -/

instance (room : Nat) : Consumes (parameterList room) := by
  unfold parameterList
  infer_instance

instance (room : Nat) : Consumes (globalVariable room) := by
  unfold globalVariable
  infer_instance

instance (room : Nat) : Consumes (memberVariable room) := by
  unfold memberVariable
  infer_instance

instance (keyword : Keyword) : Consumes (anchorRequired keyword) := by
  unfold anchorRequired
  infer_instance

instance (room : Nat) : Consumes (importDeclaration room) := by
  unfold importDeclaration
  infer_instance

instance : Consumes enumDeclaration := by
  unfold enumDeclaration
  infer_instance

instance : Consumes typedefDeclaration := by
  unfold typedefDeclaration
  infer_instance

instance (room : Nat) : Consumes (funcdefDeclaration room) := by
  unfold funcdefDeclaration
  infer_instance

instance (room : Nat) : Consumes (globalFunction room) := by
  unfold globalFunction
  infer_instance

instance (room : Nat) : Consumes (method room) := by
  unfold method
  refine .node _ (.of_right inferInstance fun modified => .of_right inferInstance ?_)
  intro destructor
  extract_lets rest
  have hrest (named : PUnit) : Consumes (rest named) := by
    unfold rest
    infer_instance
  have hadvances (named : PUnit) : Advances (rest named) := by
    unfold rest
    infer_instance
  clear_value rest
  infer_instance

instance (room : Nat) : Consumes (interfaceMethod room) := by
  unfold interfaceMethod
  infer_instance

instance (place : PropertyPlace) : Consumes (accessor place) := by
  unfold accessor
  infer_instance

instance (room : Nat) (place : PropertyPlace) : Consumes (property room place) := by
  unfold property
  infer_instance

/-- A token of a kind that is not the end is passed if it comes next. -/
instance (mark : Punctuation) (rule : Parse Unit) [Consumes rule] :
    Consumes (do
      if ← nextIs (.punctuation mark) then skip else rule) := by
  constructor
  intro setting session value after hended hrun
  rw [nextIs_bind] at hrun
  split at hrun
  · rename_i hhead
    cases hrun
    refine hended.passes_tail ?_
    rw [of_decide_eq_true hhead]
    simp
  · exact Consumes.passes setting session value after hended hrun

instance (room : Nat) : Consumes (interfaceMember room) := by
  unfold interfaceMember
  infer_instance

instance (room : Nat) : Consumes (interfaceDeclaration room) := by
  unfold interfaceDeclaration
  infer_instance

instance (room : Nat) : Consumes (classMember room) := by
  unfold classMember
  infer_instance

instance (room : Nat) : Consumes (classDeclaration room) := by
  unfold classDeclaration
  infer_instance

instance (room : Nat) : Consumes (mixinDeclaration room) := by
  unfold mixinDeclaration
  infer_instance

instance (room : Nat) : Consumes (globalMember room) := by
  unfold globalMember
  infer_instance

instance : Consumes namespaceKeyword := by
  apply consumes_of_next
  intro setting session value after hended hrun
  unfold namespaceKeyword at hrun
  rw [nextIs_bind] at hrun
  split at hrun
  · rename_i hhead
    cases hrun
    refine ⟨?_, rfl⟩
    rw [of_decide_eq_true hhead]
    simp
  · obtain ⟨first, middle, -, hrest⟩ := bind_ok hrun
    obtain ⟨second, last, -, hend⟩ := bind_ok hrest
    cases hend

instance (body : Parse Unit) [Advances body] : Consumes (namespaceBody body) := by
  unfold namespaceBody
  infer_instance

instance (room : Nat) : Consumes (namespaceDeclaration room) := by
  cases room with
  | zero => exact inferInstanceAs (Consumes (node _ (fail _)))
  | succ room =>
      unfold namespaceDeclaration
      infer_instance

theorem scriptItem_passes {room : Nat} {nested : Parse Unit} [Advances nested] [Consumes nested]
    {setting : Setting} {session after : Session} {behind : List Token} {value : Unit}
    (hended : setting.Ended) (hbehind : behind <:+ session.ahead)
    (hrun : scriptItem room nested behind setting session = (.ok value, after)) :
    setting.Passes session.ahead after.ahead := by
  unfold scriptItem at hrun
  rw [read_bind] at hrun
  generalize hkind : (behind.headD setting.finish).kind = kind at hrun
  split at hrun
  case h_12 =>
    cases hrun
    refine Setting.passes_tail ?_
    intro hnil
    rw [hnil, List.suffix_nil] at hbehind
    rw [hbehind, List.headD_nil, hended] at hkind
    cases hkind
  case h_13 =>
    split at hrun
    · exact Consumes.passes setting session value after hended hrun
    · cases hrun
  all_goals exact Consumes.passes setting session value after hended hrun

/-! ## What has come to its end -/

section Ends

variable {setting : Setting} {session after : Session} {value : Unit}

theorem leaf_ok {kind : NodeKind} (h : leaf kind setting session = (.ok value, after)) :
    after.ahead = session.ahead.tail := by
  cases h
  rfl

theorem markIf_ok {kind : TokenKind} (h : markIf kind setting session = (.ok value, after)) :
    after.ahead =
      if (setting.head session).kind = kind then session.ahead.tail else session.ahead := by
  unfold markIf at h
  rw [nextIs_bind] at h
  by_cases hkind : (setting.head session).kind = kind
  · simp only [hkind, decide_true, ↓reduceIte] at h ⊢
    exact leaf_ok h
  · simp only [hkind, decide_false, Bool.false_eq_true, ↓reduceIte] at h ⊢
    cases h
    rfl

theorem require_ok {kind : TokenKind} {token : Token}
    (h : require kind setting session = (.ok token, after)) :
    (setting.head session).kind = kind ∧ after.ahead = session.ahead.tail := by
  unfold require at h
  rw [nextIs_bind] at h
  by_cases hkind : (setting.head session).kind = kind
  · simp only [hkind, decide_true, ↓reduceIte] at h
    cases h
    exact ⟨hkind, rfl⟩
  · simp only [hkind, decide_false, Bool.false_eq_true, ↓reduceIte] at h
    cases h

theorem coverRequired_ok {kind : TokenKind}
    (h : coverRequired kind setting session = (.ok value, after)) :
    (setting.head session).kind = kind ∧ after.ahead = session.ahead.tail := by
  obtain ⟨token, middle, hrequire, hwiden⟩ := bind_ok h
  have hok := require_ok hrequire
  cases hwiden
  exact hok

theorem identifier_ok (h : identifier setting session = (.ok value, after)) :
    (setting.head session).kind = .identifier ∧ after.ahead = session.ahead.tail := by
  obtain ⟨inner, hinner, rfl⟩ := node_ok h
  rw [peek_bind] at hinner
  split at hinner
  · rename_i hname
    cases hinner
    exact ⟨of_decide_eq_true hname, rfl⟩
  · cases hinner

theorem typeName_ok {forms : TypeForms}
    (h : typeName forms setting session = (.ok value, after)) :
    forms.allows (setting.head session) = true ∧ after.ahead = session.ahead.tail := by
  obtain ⟨inner, hinner, rfl⟩ := node_ok h
  rw [peek_bind] at hinner
  split at hinner
  · rename_i hallows
    cases hinner
    exact ⟨hallows, rfl⟩
  · split at hinner <;> cases hinner

end Ends

/-! ## Rounds of loops -/

/-- A loop whose body asks for no other round. -/
theorem repeatUpTo_still {body : Parse Bool} {setting : Setting} {session : Session}
    (h : body setting session = (.ok false, session)) (count : Nat) :
    repeatUpTo count body setting session = (.ok (), session) := by
  cases count with
  | zero => rfl
  | succ count =>
      unfold repeatUpTo
      rw [bind_run, h]
      rfl

/-- Nothing is read where the test fails. -/
theorem whileNext_still {test : Token → Bool} {rule : Parse Unit} {setting : Setting}
    {session : Session} (h : test (setting.head session) = false) :
    whileNext test rule setting session = (.ok (), session) := by
  unfold whileNext repeatRule
  rw [ahead_bind]
  refine repeatUpTo_still ?_ _
  rw [peek_bind, h]
  rfl

/-- The rule passes a token if it asks to be run again. -/
class Rounds (body : Parse Bool) : Prop where
  passes : ∀ setting session after, setting.Ended → body setting session = (.ok true, after) →
    setting.Passes session.ahead after.ahead

instance : Rounds (pure false) := by
  constructor
  intro setting session after hended hrun
  cases hrun

instance (message : Message) : Rounds (failExpected message) := by
  constructor
  intro setting session after hended hrun
  cases hrun

instance (priority := high) (rule : Parse α) (next : α → Parse Bool)
    [∀ value, Forwards (next value)] [Consumes rule] : Rounds (rule >>= next) :=
  ⟨fun setting session after =>
    (Consumes.of_left inferInstance inferInstance).passes setting session true after⟩

theorem Rounds.of_next {rule : Parse α} {next : α → Parse Bool} [hrule : Forwards rule]
    (hnext : ∀ value, Rounds (next value)) : Rounds (rule >>= next) := by
  constructor
  intro setting session after hended hrun
  obtain ⟨first, middle, hfirst, hsecond⟩ := bind_ok hrun
  exact Relation.TransGen.trans_right (hrule.leads setting session first middle hfirst)
    ((hnext first).passes setting middle after hended hsecond)

instance (rule : Parse α) (next : α → Parse Bool) [Forwards rule] [∀ value, Rounds (next value)] :
    Rounds (rule >>= next) :=
  .of_next inferInstance

instance (condition : Prop) [Decidable condition] (first second : Parse Bool) [Rounds first]
    [Rounds second] : Rounds (if condition then first else second) := by
  split <;> infer_instance

/-- A separator is passed before another round. -/
instance (mark : Punctuation) : Rounds (do
    if ← nextIs (.punctuation mark) then
      skip
      return true
    else return false) := by
  constructor
  intro setting session after hended hrun
  rw [nextIs_bind] at hrun
  split at hrun
  · rename_i hhead
    cases hrun
    refine hended.passes_tail ?_
    rw [of_decide_eq_true hhead]
    simp
  · cases hrun

theorem rounds_of_test {p : Token → Bool} {rule : Parse Unit}
    (hrule : ∀ setting session value after, setting.Ended → p (setting.head session) = true →
      rule setting session = (.ok value, after) → setting.Passes session.ahead after.ahead) :
    Rounds (do
      if p (← peek) then
        rule
        return true
      else return false) := by
  constructor
  intro setting session after hended hrun
  rw [peek_bind] at hrun
  split at hrun
  · rename_i hhead
    obtain ⟨value, middle, hfirst, hend⟩ := bind_ok hrun
    cases hend
    exact hrule setting session value after hended hhead hfirst
  · cases hrun

instance (test : Token → Bool) (rule : Parse Unit) [Consumes rule] : Rounds (do
    if test (← peek) then
      rule
      return true
    else return false) :=
  rounds_of_test fun setting session value after hended _ =>
    Consumes.passes setting session value after hended

theorem leaf_passes {setting : Setting} {session after : Session} {kind : NodeKind} {value : Unit}
    (hended : setting.Ended) (hhead : (setting.head session).kind ≠ .endOfSource)
    (hrun : leaf kind setting session = (.ok value, after)) :
    setting.Passes session.ahead after.ahead := by
  cases hrun
  exact hended.passes_tail hhead

/-- Leaves are read as long as a test holds that the end does not pass. -/
theorem rounds_leaf {test : Token → Bool} (kind : NodeKind)
    (htest : ∀ token, test token = true → token.kind ≠ .endOfSource) :
    Rounds (do
      if test (← peek) then
        leaf kind
        return true
      else return false) :=
  rounds_of_test fun _ _ _ _ hended hhead hrun => leaf_passes hended (htest _ hhead) hrun

instance (item : Parse Unit) [Advances item] : Rounds (do
    item
    if ← nextIs .comma then
      skip
      return true
    else return false) :=
  .of_next inferInstance

instance : Rounds (do
    if (← peek).kind.isIdentifier && (← peekSecond).kind = .scope then
      identifier
      mark
      return true
    else return false) := by
  infer_instance

instance rounds_typeSuffix : Rounds (do
    match (← peek).kind with
    | .openBracket =>
        mark
        coverRequired .closeBracket
        return true
    | .handle =>
        mark
        markIf .const
        return true
    | _ => return false) := by
  constructor
  intro setting session after hended hrun
  rw [peek_bind] at hrun
  generalize hkind : (setting.head session).kind = kind at hrun
  have hpasses (hne : kind ≠ .endOfSource) (next : Unit → Parse Bool)
      [∀ value, Forwards (next value)]
      (hrest : (mark >>= next) setting session = (.ok true, after)) :
      setting.Passes session.ahead after.ahead := by
    obtain ⟨value, middle, hmark, hsecond⟩ := bind_ok hrest
    have hleads := Forwards.leads setting middle true after hsecond
    exact (leaf_passes hended (hkind ▸ hne) hmark).trans_left hleads
  split at hrun
  · exact hpasses (by simp) _ hrun
  · exact hpasses (by simp) _ hrun
  · cases hrun

section Operators

variable (rules : ValueRules) [Advances rules.assignment] [Advances rules.initList]

theorem skip_passes {next : Unit → Parse α} {setting : Setting} {session after : Session} {value : α}
    [∀ value, Forwards (next value)] (hended : setting.Ended)
    (hhead : (setting.head session).kind ≠ .endOfSource)
    (hrun : (skip >>= next) setting session = (.ok value, after)) :
    setting.Passes session.ahead after.ahead := by
  rw [skip_bind] at hrun
  have hleads := Forwards.leads setting { session with ahead := session.ahead.tail } value after hrun
  exact (hended.passes_tail hhead).trans_left hleads

instance : Consumes (argumentList rules true) := by
  unfold argumentList
  simp only [↓reduceIte]
  refine .node _ (.of_left ?_ inferInstance)
  intro opened
  refine .bind inferInstance ?_
  intro token
  split <;> infer_instance

instance : Rounds (do
    if (← peek).kind.isAfterValue then
      postOperator rules
      return true
    else return false) := by
  refine rounds_of_test (p := (·.kind.isAfterValue)) ?_
  intro setting session value after hended hhead hrun
  have hne : (setting.head session).kind ≠ .endOfSource := by
    intro hend
    rw [hend] at hhead
    cases hhead
  obtain ⟨inner, hinner, rfl⟩ := node_ok hrun
  rw [peek_bind, anchor_bind] at hinner
  change setting.Passes session.ahead inner.ahead
  generalize (setting.head { session with building := .empty .exprPostOp }).kind = kind at hinner
  split at hinner
  · have hpasses := skip_passes hended (by exact hne) hinner
    exact hpasses
  · have hpasses := skip_passes hended (by exact hne) hinner
    exact hpasses
  · have hpasses := Consumes.passes setting _ value inner hended hinner
    exact hpasses
  · cases hinner
    exact hended.passes_tail hne

theorem operand_passes (setting : Setting) (session : Session) (value : Unit) (after : Session)
    (hended : setting.Ended) (hhead : (setting.head session).kind.isBinaryOperator = true)
    (hrun : (do leaf .exprOperator; term rules) setting session = (.ok value, after)) :
    setting.Passes session.ahead after.ahead := by
  obtain ⟨first, middle, hleaf, hterm⟩ := bind_ok hrun
  have hleads := Forwards.leads setting middle value after hterm
  refine (leaf_passes hended ?_ hleaf).trans_left hleads
  intro hend
  rw [hend] at hhead
  cases hhead

end Operators

instance : Rounds enumerator := by
  unfold enumerator
  infer_instance

instance (place : PropertyPlace) : Rounds (do
    let token ← peek
    if token.kind = .closeBrace then
      cover
      return false
    if !token.hasRole .accessor then
      failExpected (.expectedOneOf [ContextualWord.get.canonical, ContextualWord.set.canonical,
        TokenKind.closeBrace.describe])
    accessor place
    return true) := by
  infer_instance

/-! ## Rounds that recover -/

/-- Where reading goes on after an error, at least the first token is passed over, unless it is the
brace that closes the text around it. -/
theorem resume_cons_suffix {inBraces : Bool} {token : Token} {rest : List Token}
    (hbrace : inBraces = true → token.kind ≠ .closeBrace) :
    resume inBraces (token :: rest) <:+ rest := by
  by_cases hstop : isStop inBraces token = true
  · have hnext : nextStop inBraces (token :: rest) = token :: rest := by
      unfold nextStop
      rw [List.dropWhile_cons_of_neg (by simp [hstop])]
    unfold resume
    rw [hnext]
    dsimp only
    split
    · exact List.suffix_rfl
    · exact skipBlock_suffix 0 rest
    · simp only [isStop, Bool.or_eq_true, decide_eq_true_eq, Bool.and_eq_true] at hstop
      rcases hstop with (hkind | hkind) | ⟨hbraces, hkind⟩
      · contradiction
      · contradiction
      · exact absurd hkind (hbrace hbraces)
  · have hnext : nextStop inBraces (token :: rest) = nextStop inBraces rest := by
      unfold nextStop
      rw [List.dropWhile_cons_of_pos (by simpa using hstop)]
    have hresume : resume inBraces (token :: rest) = resume inBraces rest := by
      unfold resume
      rw [hnext]
    rw [hresume]
    exact resume_suffix inBraces rest

/-- An error inside the braces of a construct leads on, even if nothing was read before. -/
theorem resume_passes {setting : Setting} {inBraces : Bool} {token : Token}
    {rest tokens : List Token} (hleads : setting.Leads (token :: rest) tokens)
    (hbrace : inBraces = true → token.kind ≠ .closeBrace) :
    setting.Passes (token :: rest) (resume inBraces tokens) := by
  rcases Relation.reflTransGen_iff_eq_or_transGen.mp hleads with rfl | hpasses
  · have hresumed := setting.leads_of_suffix (@resume_cons_suffix _ _ rest hbrace)
    exact Relation.TransGen.trans_left (setting.passes_tail (by simp)) hresumed
  · exact hpasses.trans_left (setting.leads_of_suffix (resume_suffix inBraces tokens))

theorem recovering_passes {rule : Parse Unit} {inBraces : Bool} {setting : Setting}
    {session after : Session} {value : Unit} (hended : setting.Ended)
    (hleads : setting.Leads session.ahead (rule setting session).2.ahead)
    (hpasses : ∀ value after, rule setting session = (.ok value, after) →
      setting.Passes session.ahead after.ahead)
    (hend : (setting.head session).kind ≠ .endOfSource)
    (hbrace : inBraces = true → (setting.head session).kind ≠ .closeBrace)
    (hrun : recovering inBraces rule setting session = (.ok value, after)) :
    setting.Passes session.ahead after.ahead := by
  unfold recovering at hrun
  rw [bind_run, attempt_run] at hrun
  rcases hresult : rule setting session with ⟨result, middle⟩
  rw [hresult] at hrun hleads
  cases result with
  | ok first =>
      cases hrun
      exact hpasses first after hresult
  | error interruption =>
      cases hrun
      rw [hended.ahead_cons hend] at hleads ⊢
      exact resume_passes hleads hbrace

theorem rounds_recovering {test : Token → Bool} {rule : Parse Unit} [Advances rule] [Consumes rule]
    (htest : ∀ token, test token = true → token.kind ≠ .endOfSource ∧ token.kind ≠ .closeBrace) :
    Rounds (do
      if test (← peek) then
        recovering true rule
        return true
      else return false) := by
  refine rounds_of_test ?_
  intro setting session value after hended hhead hrun
  obtain ⟨hend, hbrace⟩ := htest _ hhead
  refine recovering_passes hended (advance rule setting session).forward ?_ hend
    (fun _ => hbrace) hrun
  exact fun value after => Consumes.passes setting session value after hended

instance (rules : BlockRules) [Advances rules.assignment] [Advances rules.initList]
    [Advances rules.statement] [Consumes rules.statement] (start : List Token) :
    Rounds (blockStep rules start) := by
  constructor
  intro setting session after hended hrun
  unfold blockStep at hrun
  rw [nextIs_bind] at hrun
  split at hrun
  · obtain ⟨value, middle, -, hend⟩ := bind_ok hrun
    cases hend
  rename_i hbrace
  have hadvance := advance (blockItem rules) setting session
  rw [bind_run, attempt_run] at hrun
  rcases hresult : blockItem rules setting session with ⟨result, middle⟩
  rw [hresult] at hrun hadvance
  cases result with
  | ok value =>
      cases hrun
      exact Consumes.passes setting session value after hended hresult
  | error interruption =>
      simp only [Option.isNone_none, ↓reduceIte] at hrun
      rw [ahead_bind] at hrun
      split at hrun
      · cases hrun
      · rename_i hstop
        cases hrun
        have hforward := hadvance.forward
        cases hahead : session.ahead with
        | nil =>
            rw [hahead] at hforward
            have hnil : middle.ahead = [] := Setting.eq_nil_of_leads hforward
            rw [hnil] at hstop
            exact absurd rfl hstop
        | cons token rest =>
            rw [hahead] at hforward
            refine resume_passes hforward fun _ => ?_
            rw [Setting.head_cons hahead] at hbrace
            simpa using hbrace

instance rounds_switchStep (rules : BlockRules) [Advances rules.assignment] [Advances rules.initList]
    [Advances rules.statement] : Rounds (do
    match (← peek).kind with
    | .closeBrace =>
        cover
        return false
    | .keyword .case_ | .keyword .default_ =>
        caseLabel rules
        return true
    | _ => failExpected (.expectedOneOfKinds [.keyword .case_, .keyword .default_])) := by
  refine .of_next ?_
  intro token
  split <;> infer_instance

/-- What is no identifier is no modifier. -/
theorem head_behind {setting : Setting} {session : Session}
    (h : (setting.head session).kind ≠ .identifier) :
    (session.ahead.dropWhile (·.hasRole .declarationModifier)).headD setting.finish =
      setting.head session := by
  cases hahead : session.ahead with
  | nil => exact (Setting.head_nil hahead).symm
  | cons token rest =>
      rw [Setting.head_cons hahead] at h ⊢
      have hrole : token.hasRole .declarationModifier = false := by
        simpa [Token.hasRole, TokenKind.isIdentifier] using fun hkind => absurd hkind h
      rw [List.dropWhile_cons_of_neg (by simp [hrole]), List.headD_cons]

instance (room : Nat) (inBraces : Bool) (nested : Parse Unit) [Advances nested]
    [Consumes nested] : Rounds (scriptStep room inBraces nested) := by
  constructor
  intro setting session after hended hrun
  unfold scriptStep at hrun
  rw [ahead_bind, read_bind] at hrun
  split at hrun
  · cases hrun
  · rename_i hgoes
    obtain ⟨first, middle, hitem, hend⟩ := bind_ok hrun
    cases hend
    simp only [Bool.or_eq_true, Bool.and_eq_true, decide_eq_true_eq, not_or, not_and] at hgoes
    have hreturns : Returns session.ahead (scriptItem room nested
        (session.ahead.dropWhile (·.hasRole .declarationModifier))) := inferInstance
    refine recovering_passes hended (hreturns.proceeds setting session .refl).advance.forward
      (fun value after => scriptItem_passes hended (List.dropWhile_suffix _)) ?_ ?_ hitem
    · intro hend
      rw [head_behind (by simp [hend])] at hgoes
      exact hgoes.1 (by simp [hend, TokenKind.isEnd])
    · intro hbraces hbrace
      rw [head_behind (by simp [hbrace])] at hgoes
      exact hgoes.2 hbraces hbrace

end

end Parse

end ScriptSyntax.Grammar
