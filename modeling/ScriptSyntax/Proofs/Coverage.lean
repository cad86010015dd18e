import ScriptSyntax.Proofs.Termination

/-!
# What a statement covers

Most rules grow their node over some of the tokens only that they read.  Still the node of a
statement covers all of them, because it covers the first one and the last one.  The first is seen
to by the rules for types and for expressions, far inside the statement.  The last is a semicolon or
a closing brace, which a rule for statements covers itself or leaves to the statement at its end.
-/

namespace ScriptSyntax

/-- The span of the node covers another one. -/
def Node.Covers (node : Node) (span : Span) : Prop :=
  ∃ wide, node.span = some wide ∧ wide.start ≤ span.start ∧ span.stop ≤ wide.stop

namespace Node

variable {node grown child : Node} {span : Span}

theorem Covers.grows (hcovers : node.Covers span) (h : node.Grows grown) : grown.Covers span := by
  obtain ⟨wide, hwide, hstart, hstop⟩ := hcovers
  obtain ⟨wider, hwider, hstart', hstop'⟩ := h.span wide hwide
  exact ⟨wider, hwider, Nat.le_trans hstart' hstart, Nat.le_trans hstop hstop'⟩

theorem covers_widen (node : Node) (hspan : span.start < span.stop) :
    (node.widen span).Covers span := by
  refine ⟨_, span_widen hspan, ?_⟩
  cases node.span with
  | none => exact ⟨Nat.le_refl _, Nat.le_refl _⟩
  | some old => exact ⟨Nat.min_le_right _ _, Nat.le_max_right _ _⟩

theorem Covers.append (h : child.Covers span) (hspan : span.start < span.stop) (node : Node) :
    (node.append child).Covers span := by
  obtain ⟨wide, hwide, hstart, hstop⟩ := h
  have hwiden : (node.widen wide).Covers wide := covers_widen node (by omega)
  obtain ⟨wider, hwider, hstart', hstop'⟩ := hwiden
  refine ⟨wider, ?_, Nat.le_trans hstart' hstart, Nat.le_trans hstop hstop'⟩
  rw [span_append, hwide]
  exact hwider

end Node

namespace Grammar.Parse

variable {α β : Type}

/-- The rule looks at what is ahead and leaves everything as it is. -/
class Looks (rule : Parse α) : Prop where
  looks : ∀ setting session, ∃ value, rule setting session = (.ok value, session)

instance (value : α) : Looks (pure value) :=
  ⟨fun _ _ => ⟨_, rfl⟩⟩

instance : Looks ahead :=
  ⟨fun _ _ => ⟨_, rfl⟩⟩

instance : Looks peek :=
  ⟨fun _ _ => ⟨_, rfl⟩⟩

instance : Looks peekSecond :=
  ⟨fun _ _ => ⟨_, rfl⟩⟩

instance (kind : TokenKind) : Looks (nextIs kind) :=
  ⟨fun _ _ => ⟨_, rfl⟩⟩

instance (scan : Scan Unit) : Looks (sees scan) :=
  ⟨fun _ _ => ⟨_, rfl⟩⟩

theorem looks_bind {rule : Parse α} [hrule : Looks rule] {next : α → Parse β} {setting : Setting}
    {session : Session} {result : Except Interruption β × Session}
    (h : (rule >>= next) setting session = result) :
    ∃ value, next value setting session = result := by
  obtain ⟨value, hvalue⟩ := hrule.looks setting session
  refine ⟨value, ?_⟩
  rw [bind_run, hvalue] at h
  exact h

/-- The rule never comes to its end. -/
class Interrupts (rule : Parse α) : Prop where
  interrupts : ∀ setting session, ∃ after, rule setting session = (.error .syntaxError, after)

instance (message : Message) : Interrupts (fail message : Parse α) :=
  ⟨fun _ _ => ⟨_, rfl⟩⟩

instance (message : Message) : Interrupts (failExpected message : Parse α) :=
  ⟨fun _ _ => ⟨_, rfl⟩⟩

theorem not_ok_of_interrupts {rule : Parse α} [hrule : Interrupts rule] {setting : Setting}
    {session after : Session} {value : α} : rule setting session ≠ (.ok value, after) := by
  intro hrun
  obtain ⟨other, hother⟩ := hrule.interrupts setting session
  rw [hother] at hrun
  cases hrun

/-! ## The first token -/

/-- Behind the rule, the token is covered that was the next one before it. -/
class CoversHead (rule : Parse α) : Prop where
  covers : ∀ setting session value after,
    (setting.head session).span.start < (setting.head session).span.stop →
    rule setting session = (.ok value, after) →
    after.building.Covers (setting.head session).span

/-- Behind the rule, the first token that it has passed is covered. -/
class CoversFirst (rule : Parse α) : Prop where
  covers : ∀ setting session value after,
    (setting.head session).span.start < (setting.head session).span.stop →
    rule setting session = (.ok value, after) →
    after.ahead = session.ahead ∨ after.building.Covers (setting.head session).span

theorem head_congr {setting : Setting} {session after : Session}
    (h : after.ahead = session.ahead) : setting.head after = setting.head session := by
  rw [Setting.head, h, Setting.head]

section First

variable {rule : Parse α} {next : α → Parse β}

instance (priority := low) [hrule : CoversHead rule] : CoversFirst rule :=
  ⟨fun setting session value after hhead hrun =>
    .inr (hrule.covers setting session value after hhead hrun)⟩

instance (priority := low) [hrule : Looks rule] : CoversFirst rule := by
  constructor
  intro setting session value after hhead hrun
  obtain ⟨_, hvalue⟩ := hrule.looks setting session
  rw [hvalue] at hrun
  cases hrun
  exact .inl rfl

theorem CoversHead.of_looks [Looks rule] (hnext : ∀ value, CoversHead (next value)) :
    CoversHead (rule >>= next) := by
  constructor
  intro setting session value after hhead hrun
  obtain ⟨first, hrest⟩ := looks_bind hrun
  exact (hnext first).covers setting session value after hhead hrest

instance [hrule : CoversHead rule] [∀ value, Advances (next value)] :
    CoversHead (rule >>= next) := by
  constructor
  intro setting session value after hhead hrun
  obtain ⟨first, middle, hfirst, hsecond⟩ := bind_ok hrun
  have hadvance := advance_of_run hsecond
  exact (hrule.covers setting session first middle hhead hfirst).grows hadvance.building

instance [hrule : CoversFirst rule] [hnext : ∀ value, CoversHead (next value)]
    [∀ value, Advances (next value)] : CoversHead (rule >>= next) := by
  constructor
  intro setting session value after hhead hrun
  obtain ⟨first, middle, hfirst, hsecond⟩ := bind_ok hrun
  have hadvance := advance_of_run hsecond
  rcases hrule.covers setting session first middle hhead hfirst with hsame | hcovers
  · -- Nothing is passed yet: the token is still the next one.
    rw [← head_congr hsame] at hhead ⊢
    exact (hnext first).covers setting middle value after hhead hsecond
  · exact hcovers.grows hadvance.building

instance [hrule : CoversFirst rule] [hnext : ∀ value, CoversFirst (next value)]
    [∀ value, Advances (next value)] : CoversFirst (rule >>= next) := by
  constructor
  intro setting session value after hhead hrun
  obtain ⟨first, middle, hfirst, hsecond⟩ := bind_ok hrun
  have hadvance := advance_of_run hsecond
  rcases hrule.covers setting session first middle hhead hfirst with hsame | hcovers
  · rw [← head_congr hsame] at hhead ⊢
    rw [← hsame]
    exact (hnext first).covers setting middle value after hhead hsecond
  · exact .inr (hcovers.grows hadvance.building)

instance (condition : Prop) [Decidable condition] (rule other : Parse α) [CoversHead rule]
    [CoversHead other] : CoversHead (if condition then rule else other) := by
  split <;> infer_instance

instance (condition : Prop) [Decidable condition] (rule other : Parse α) [CoversFirst rule]
    [CoversFirst other] : CoversFirst (if condition then rule else other) := by
  split <;> infer_instance

instance (kind : NodeKind) [hrule : CoversHead rule] : CoversHead (node kind rule) := by
  constructor
  intro setting session value after hhead hrun
  obtain ⟨inner, hinner, rfl⟩ := node_ok hrun
  have hcovers := hrule.covers setting (session.opened kind) value inner hhead hinner
  exact hcovers.append hhead session.building

instance (kind : NodeKind) [hrule : CoversFirst rule] : CoversFirst (node kind rule) := by
  constructor
  intro setting session value after hhead hrun
  obtain ⟨inner, hinner, rfl⟩ := node_ok hrun
  have hcovers := hrule.covers setting (session.opened kind) value inner hhead hinner
  exact hcovers.imp_right fun hcovers => hcovers.append hhead session.building

instance (rule : Unit → Parse α) [hrule : CoversHead (rule ())] : CoversHead (deferred rule) :=
  ⟨fun setting => hrule.covers setting⟩

instance (priority := low) [Interrupts rule] : CoversHead rule :=
  ⟨fun _ _ _ _ _ hrun => absurd hrun not_ok_of_interrupts⟩

instance (kind : NodeKind) : CoversHead (tooDeep kind) := by
  unfold tooDeep
  infer_instance

theorem coversHead_of_widen
    (h : ∀ setting session value after, rule setting session = (.ok value, after) →
      ∃ node : Node, after.building = node.widen (setting.head session).span) :
    CoversHead rule := by
  constructor
  intro setting session value after hhead hrun
  obtain ⟨node, hnode⟩ := h setting session value after hrun
  rw [hnode]
  exact Node.covers_widen node hhead

end First

instance : CoversHead cover := by
  refine coversHead_of_widen fun setting session value after hrun => ?_
  cases hrun
  exact ⟨session.building, rfl⟩

theorem coverRequired_passed {kind : TokenKind} {setting : Setting} {session after : Session}
    {value : Unit} (hrun : coverRequired kind setting session = (.ok value, after)) :
    (setting.head session).kind = kind ∧ after = setting.passed .span session := by
  rw [Comparison.coverRequired_eq, nextIs_bind] at hrun
  split at hrun
  · rename_i hhead
    cases hrun
    exact ⟨of_decide_eq_true hhead, rfl⟩
  · cases hrun

instance (kind : TokenKind) : CoversHead (coverRequired kind) := by
  refine coversHead_of_widen fun setting session value after hrun => ?_
  obtain ⟨-, rfl⟩ := coverRequired_passed hrun
  exact ⟨session.building, rfl⟩

instance (kind : NodeKind) : CoversHead (leaf kind) := by
  have hanchor : CoversHead (do anchor (← next)) := by
    refine coversHead_of_widen fun setting session value after hrun => ?_
    cases hrun
    exact ⟨{ session.building with token := some (setting.head session).kind }, rfl⟩
  unfold leaf
  infer_instance

instance : CoversHead mark := by
  unfold mark
  infer_instance

instance (kind : TokenKind) : CoversFirst (markIf kind) := by
  unfold markIf
  infer_instance

instance : CoversHead identifier := by
  have hname : CoversHead (do
      if (← peek).kind.isIdentifier then anchor (← next)
      else failExpected .expectedIdentifier) := by
    refine coversHead_of_widen fun setting session value after hrun => ?_
    rw [peek_bind] at hrun
    split at hrun
    · cases hrun
      exact ⟨{ session.building with token := some (setting.head session).kind }, rfl⟩
    · cases hrun
  unfold identifier
  infer_instance

/-- What anchors the node on the next token covers it, whatever follows. -/
instance (next : Token → Unit → Parse β) [∀ token, Advances (next token ())] :
    CoversHead (peek >>= fun token => anchor token >>= next token) := by
  constructor
  intro setting session value after hhead hrun
  rw [peek_bind, anchor_bind] at hrun
  have hcovers := Node.covers_widen
    { session.building with token := some (setting.head session).kind } hhead
  exact hcovers.grows (advance_of_run hrun).building

instance (count : Nat) (body : Parse Bool) [Advances body] [CoversFirst body] :
    CoversFirst (repeatUpTo count body) := by
  induction count with
  | zero => exact inferInstanceAs (CoversFirst (pure ()))
  | succ count ih =>
      unfold repeatUpTo
      infer_instance

instance (body : Parse Bool) [Advances body] [CoversFirst body] :
    CoversFirst (repeatRule body) := by
  unfold repeatRule
  infer_instance

instance (test : Token → Bool) (rule : Parse Unit) [Advances rule] [CoversFirst rule] :
    CoversFirst (whileNext test rule) := by
  unfold whileNext
  infer_instance

/-! ### Types -/

section

set_option synthInstance.maxSize 2000

instance (forms : TypeForms) : CoversHead (typeName forms) := by
  have hname : CoversHead (do
      let name ← peek
      if forms.allows name then anchor (← next)
      else if name.kind = .keyword .auto then fail .autoNotAllowed
      else failExpected .expectedDataType) := by
    refine coversHead_of_widen fun setting session value after hrun => ?_
    rw [peek_bind] at hrun
    split at hrun
    · cases hrun
      exact ⟨{ session.building with token := some (setting.head session).kind }, rfl⟩
    · split at hrun <;> cases hrun
  unfold typeName
  infer_instance

instance (room : Nat) (argument : Parse Unit) [Advances argument] :
    CoversFirst (scopeOver room argument) := by
  unfold scopeOver
  infer_instance

instance (room : Nat) (argument : Parse Unit) (forms : TypeForms) [Advances argument] :
    CoversHead (typeBody room argument forms) := by
  unfold typeBody
  infer_instance

instance (room : Nat) (forms : TypeForms) : CoversHead (dataType room forms) := by
  cases room with
  | zero => exact inferInstanceAs (CoversHead (tooDeep _))
  | succ room => exact inferInstanceAs (CoversHead (deferred _))

instance (room : Nat) : CoversFirst (scope room) := by
  unfold scope
  infer_instance

/-! ### Expressions -/

section Expressions

variable (rules : ValueRules) [Advances rules.assignment] [Advances rules.initList]

instance : CoversHead (initListBody rules) := by
  unfold initListBody
  infer_instance

instance : CoversHead constant := by
  unfold constant
  infer_instance

instance : CoversHead (functionCall rules) := by
  unfold functionCall
  infer_instance

instance (room : Nat) : CoversHead (variableAccess room) := by
  unfold variableAccess
  infer_instance

instance : CoversHead (constructCall rules) := by
  unfold constructCall
  infer_instance

instance : CoversHead (cast rules) := by
  unfold cast
  infer_instance

instance (room : Nat) : CoversHead (lambda room) := by
  unfold lambda
  infer_instance

instance : CoversHead (namedValue rules) := by
  unfold namedValue
  infer_instance

/-- The value inside its node. -/
instance coversHead_valueOfKind : CoversHead (do
    match (← peek).kind with
    | .keyword .void => mark
    | .keyword .cast => cast rules
    | .openParen =>
        cover
        rules.assignment
        widen (← peek).span
        let _ ← require .closeParen
    | .unterminatedString => fail .unterminatedString
    | kind =>
        if kind.isPrimitiveType then constructCall rules
        else if kind.isIdentifier || kind = .scope then namedValue rules
        else if kind.isConstant then constant
        else failExpected .expectedExpressionValue) := by
  refine .of_looks ?_
  intro token
  split <;> infer_instance

instance : CoversHead (value rules) := by
  unfold value
  infer_instance

instance [CoversHead rules.initList] : CoversHead (term rules) := by
  unfold term
  infer_instance

instance [CoversHead rules.initList] : CoversHead (expression rules) := by
  unfold expression
  infer_instance

instance [CoversHead rules.initList] : CoversHead (condition rules) := by
  unfold condition
  infer_instance

instance [CoversHead rules.initList] : CoversHead (assignmentBody rules) := by
  unfold assignmentBody
  infer_instance

end Expressions

instance (room : Nat) : CoversHead (valueRules room).initList := by
  cases room with
  | zero => exact inferInstanceAs (CoversHead (tooDeep _))
  | succ room =>
      exact inferInstanceAs (CoversHead (deferred fun _ => initListBody (valueRules room)))

instance (room : Nat) : CoversHead (valueRules room).assignment := by
  cases room with
  | zero => exact inferInstanceAs (CoversHead (tooDeep _))
  | succ room =>
      exact inferInstanceAs (CoversHead (deferred fun _ => assignmentBody (valueRules room)))

/-! ## The last token -/

/-- The kind of a token that a statement ends with. -/
def endsStatement (kind : TokenKind) : Bool :=
  kind = .semicolon || kind = .closeBrace

/-- From the tokens ahead of one session to those of another, the last token that is passed ends a
statement, and it lies in the span of the node. -/
def EndsCovered (setting : Setting) (session after : Session) (node : Node) : Prop :=
  ∃ last, setting.Leads session.ahead (last :: after.ahead) ∧ endsStatement last.kind = true ∧
    node.Covers last.span

/-- The rule ends with a token that ends a statement, and covers it. -/
class CoversEnd (rule : Parse α) : Prop where
  covers : ∀ setting session value after, setting.Ended → setting.Reads session.ahead →
    rule setting session = (.ok value, after) → EndsCovered setting session after after.building

/-- The rule passes nothing, or it ends with a token that ends a statement, and covers it. -/
class CoversLast (rule : Parse α) : Prop where
  covers : ∀ setting session value after, setting.Ended → setting.Reads session.ahead →
    rule setting session = (.ok value, after) →
    after.ahead = session.ahead ∨ EndsCovered setting session after after.building

/-- The next token is the last one that is passed. -/
theorem endsCovered_of_head {setting : Setting} {session after : Session} {node : Node}
    (hended : setting.Ended) (hkind : endsStatement (setting.head session).kind = true)
    (hafter : after.ahead = session.ahead.tail)
    (hcovers : node.Covers (setting.head session).span) :
    EndsCovered setting session after node := by
  have hne : (setting.head session).kind ≠ .endOfSource := by
    intro hend
    rw [hend] at hkind
    cases hkind
  have hcons : session.ahead = setting.head session :: session.ahead.tail :=
    hended.ahead_cons hne
  refine ⟨setting.head session, ?_, hkind, hcovers⟩
  rw [hafter, ← hcons]
  exact .refl

theorem head_lt_of_endsStatement {setting : Setting} {session : Session}
    (hended : setting.Ended) (hreads : setting.Reads session.ahead)
    (hkind : endsStatement (setting.head session).kind = true) :
    (setting.head session).span.start < (setting.head session).span.stop := by
  cases hahead : session.ahead with
  | nil =>
      rw [Setting.head_nil hahead, hended] at hkind
      cases hkind
  | cons token rest =>
      rw [hahead] at hreads
      rw [Setting.head_cons hahead]
      exact hreads.start_lt_stop

theorem endsCovered_passed {setting : Setting} {session : Session} (hended : setting.Ended)
    (hreads : setting.Reads session.ahead)
    (hkind : endsStatement (setting.head session).kind = true) :
    EndsCovered setting session (setting.passed .span session)
      (setting.passed .span session).building :=
  endsCovered_of_head hended hkind rfl
    (Node.covers_widen session.building (head_lt_of_endsStatement hended hreads hkind))

section Last

variable {rule : Parse α} {next : α → Parse β}

instance (priority := low) [hrule : CoversEnd rule] : CoversLast rule :=
  ⟨fun setting session value after hended hreads hrun =>
    .inr (hrule.covers setting session value after hended hreads hrun)⟩

instance (priority := low) [hrule : Looks rule] : CoversLast rule := by
  constructor
  intro setting session value after hended hreads hrun
  obtain ⟨_, hvalue⟩ := hrule.looks setting session
  rw [hvalue] at hrun
  cases hrun
  exact .inl rfl

theorem CoversEnd.of_right (hrule : Forwards rule) (hnext : ∀ value, CoversEnd (next value)) :
    CoversEnd (rule >>= next) := by
  constructor
  intro setting session value after hended hreads hrun
  obtain ⟨first, middle, hfirst, hsecond⟩ := bind_ok hrun
  have hleads := hrule.leads setting session first middle hfirst
  obtain ⟨last, hlast, hkind, hcovers⟩ :=
    (hnext first).covers setting middle value after hended (hreads.leads hleads) hsecond
  exact ⟨last, hleads.trans hlast, hkind, hcovers⟩

instance (priority := high) [Forwards rule] [∀ value, CoversEnd (next value)] :
    CoversEnd (rule >>= next) :=
  .of_right inferInstance inferInstance

instance [hrule : CoversEnd rule] [hnext : ∀ value, CoversLast (next value)]
    [∀ value, Advances (next value)] : CoversEnd (rule >>= next) := by
  constructor
  intro setting session value after hended hreads hrun
  obtain ⟨first, middle, hfirst, hsecond⟩ := bind_ok hrun
  have hadvance := advance_of_run hsecond
  obtain ⟨last, hlast, hkind, hcovers⟩ :=
    hrule.covers setting session first middle hended hreads hfirst
  have hleads : setting.Leads session.ahead middle.ahead :=
    hlast.tail (.inl ⟨last, rfl⟩)
  rcases (hnext first).covers setting middle value after hended (hreads.leads hleads) hsecond with
    hsame | ⟨later, hlater, hkind', hcovers'⟩
  · -- Nothing is passed any more: the token stays the last one.
    rw [← hsame] at hlast
    exact ⟨last, hlast, hkind, hcovers.grows hadvance.building⟩
  · exact ⟨later, hleads.trans hlater, hkind', hcovers'⟩

instance [Looks rule] [hnext : ∀ value, CoversLast (next value)] : CoversLast (rule >>= next) := by
  constructor
  intro setting session value after hended hreads hrun
  obtain ⟨first, hrest⟩ := looks_bind hrun
  exact (hnext first).covers setting session value after hended hreads hrest

instance (condition : Prop) [Decidable condition] (rule other : Parse α) [CoversEnd rule]
    [CoversEnd other] : CoversEnd (if condition then rule else other) := by
  split <;> infer_instance

instance (condition : Prop) [Decidable condition] (rule other : Parse α) [CoversLast rule]
    [CoversLast other] : CoversLast (if condition then rule else other) := by
  split <;> infer_instance

end Last

theorem coversEnd_coverRequired {kind : TokenKind} (hkind : endsStatement kind = true) :
    CoversEnd (coverRequired kind) := by
  constructor
  intro setting session value after hended hreads hrun
  obtain ⟨hhead, rfl⟩ := coverRequired_passed hrun
  exact endsCovered_passed hended hreads (by rw [hhead, hkind])

instance : CoversEnd (coverRequired .semicolon) :=
  coversEnd_coverRequired rfl

instance : CoversEnd (coverRequired .closeBrace) :=
  coversEnd_coverRequired rfl

instance (message : Message) : CoversEnd (do
    if ← nextIs .semicolon then cover else failExpected message) := by
  constructor
  intro setting session value after hended hreads hrun
  rw [nextIs_bind] at hrun
  split at hrun
  · rename_i hhead
    cases hrun
    exact endsCovered_passed hended hreads (by rw [of_decide_eq_true hhead]; rfl)
  · cases hrun

/-- The token in the place of a semicolon is covered before it is found to be one. -/
instance : CoversEnd (do
    widen (← peek).span
    let _ ← require .semicolon) := by
  constructor
  intro setting session value after hended hreads hrun
  rw [peek_bind, widen_bind] at hrun
  unfold require at hrun
  obtain ⟨token, middle, hrequire, hend⟩ := bind_ok hrun
  cases hend
  rw [nextIs_bind] at hrequire
  split at hrequire
  · rename_i hhead
    cases hrequire
    have hkind : (setting.head session).kind = .semicolon := of_decide_eq_true hhead
    exact endsCovered_passed hended hreads (by rw [hkind]; rfl)
  · cases hrequire

/-- A loop ends as its last round does. -/
theorem coversEnd_repeatRule {body : Parse Bool} [Rounds body] [hforwards : Forwards body]
    (hlast : ∀ setting session after, setting.Ended → setting.Reads session.ahead →
      body setting session = (.ok false, after) →
      EndsCovered setting session after after.building) :
    CoversEnd (repeatRule body) := by
  constructor
  intro setting session value after hended hreads hrun
  have hrepeats : Repeats body setting session _ := repeatRule_repeats hended hreads
  rw [hrun] at hrepeats
  clear hrun
  generalize hresult : (Except.ok value, after) = result at hrepeats
  induction hrepeats with
  | last hbody =>
      cases hresult
      exact hlast setting _ _ hended hreads hbody
  | broken hbody => cases hresult
  | again hbody hrest ih =>
      have hleads := hforwards.leads setting _ _ _ hbody
      obtain ⟨last, hlast, hkind, hcovers⟩ := ih (hreads.leads hleads) hresult
      exact ⟨last, hleads.trans hlast, hkind, hcovers⟩

/-! ## Statements -/

/-- The rule adds one child, which covers the first and the last token that the rule has passed. -/
class Encloses (rule : Parse Unit) : Prop where
  encloses : ∀ setting session value after, setting.Ended → setting.Reads session.ahead →
    rule setting session = (.ok value, after) →
    ∃ child, after.building = session.building.append child ∧
      child.Covers (setting.head session).span ∧ EndsCovered setting session after child

/-- Where a token is passed, the next one is a token of the source, so its span is not empty. -/
theorem EndsCovered.head {setting : Setting} {session after : Session} {node : Node}
    (h : EndsCovered setting session after node) (hreads : setting.Reads session.ahead) :
    (setting.head session).span.start < (setting.head session).span.stop := by
  obtain ⟨last, hlast, -⟩ := h
  cases hahead : session.ahead with
  | nil =>
      rw [hahead] at hlast
      cases Setting.eq_nil_of_leads hlast
  | cons token rest =>
      rw [hahead] at hreads
      rw [Setting.head_cons hahead]
      exact hreads.start_lt_stop

theorem EndsCovered.append {setting : Setting} {session after : Session} {child : Node}
    (h : EndsCovered setting session after child) (hreads : setting.Reads session.ahead)
    (node : Node) : EndsCovered setting session after (node.append child) := by
  obtain ⟨last, hlast, hkind, hcovers⟩ := h
  exact ⟨last, hlast, hkind, hcovers.append (hreads.leads hlast).start_lt_stop node⟩

instance (priority := low) (kind : NodeKind) (rule : Parse α) [hrule : CoversEnd rule] :
    CoversEnd (node kind rule) := by
  constructor
  intro setting session value after hended hreads hrun
  obtain ⟨inner, hinner, rfl⟩ := node_ok hrun
  have hends : EndsCovered setting session inner inner.building :=
    hrule.covers setting (session.opened kind) value inner hended hreads hinner
  exact hends.append hreads session.building

instance (kind : NodeKind) (rule : Parse Unit) [hfirst : CoversHead rule] [hlast : CoversEnd rule] :
    Encloses (node kind rule) := by
  constructor
  intro setting session value after hended hreads hrun
  obtain ⟨inner, hinner, rfl⟩ := node_ok hrun
  have hends : EndsCovered setting session inner inner.building :=
    hlast.covers setting (session.opened kind) value inner hended hreads hinner
  have hcovers : inner.building.Covers (setting.head session).span :=
    hfirst.covers setting (session.opened kind) value inner (hends.head hreads) hinner
  exact ⟨inner.building, rfl, hcovers, hends⟩

instance (priority := low) (rule : Parse Unit) [hrule : Encloses rule] : CoversEnd rule := by
  constructor
  intro setting session value after hended hreads hrun
  obtain ⟨child, hchild, -, hends⟩ :=
    hrule.encloses setting session value after hended hreads hrun
  rw [hchild]
  exact hends.append hreads session.building

instance (priority := low) (rule : Parse Unit) [Interrupts rule] : Encloses rule :=
  ⟨fun _ _ _ _ _ _ hrun => absurd hrun not_ok_of_interrupts⟩

theorem Encloses.of_looks {rule : Parse α} {next : α → Parse Unit} [Looks rule]
    (hnext : ∀ value, Encloses (next value)) : Encloses (rule >>= next) := by
  constructor
  intro setting session value after hended hreads hrun
  obtain ⟨first, hrest⟩ := looks_bind hrun
  exact (hnext first).encloses setting session value after hended hreads hrest

instance (rule : Parse α) (next : α → Parse Unit) [Looks rule] [∀ value, Encloses (next value)] :
    Encloses (rule >>= next) :=
  .of_looks inferInstance

instance (condition : Prop) [Decidable condition] (rule other : Parse Unit) [Encloses rule]
    [Encloses other] : Encloses (if condition then rule else other) := by
  split <;> infer_instance

instance (rule : Unit → Parse Unit) [hrule : Encloses (rule ())] : Encloses (deferred rule) :=
  ⟨fun setting => hrule.encloses setting⟩

instance (initializer : Parse Unit) [Advances initializer] :
    CoversEnd (variableNames initializer) := by
  unfold variableNames
  infer_instance

section Statements

variable (rules : ValueRules) [Advances rules.assignment] [Advances rules.initList]

instance : Encloses (localVariable rules) := by
  unfold localVariable
  infer_instance

end Statements

/-- The round with which a block ends covers the closing brace. -/
theorem blockStep_last {rules : BlockRules} {start : List Token} {setting : Setting}
    {session after : Session}
    (hrun : blockStep rules start setting session = (.ok false, after)) :
    (setting.head session).kind = .closeBrace ∧ after = setting.passed .span session := by
  unfold blockStep at hrun
  rw [nextIs_bind] at hrun
  split at hrun
  · rename_i hhead
    cases hrun
    exact ⟨of_decide_eq_true hhead, rfl⟩
  · rw [bind_run, attempt_run] at hrun
    rcases hresult : blockItem rules setting session with ⟨interruption | value, middle⟩ <;>
      rw [hresult] at hrun
    · -- What recovers from an error goes on.
      simp only [Option.isNone_none, ↓reduceIte] at hrun
      rw [ahead_bind] at hrun
      split at hrun <;> cases hrun
    · cases hrun

section Statements

variable (rules : BlockRules) [Advances rules.assignment] [Advances rules.initList]
  [Advances rules.statement] [CoversHead rules.assignment] [Encloses rules.statement]

instance : Encloses (blockItem rules) := by
  unfold blockItem
  infer_instance

instance [Consumes rules.statement] (start : List Token) :
    CoversEnd (repeatRule (blockStep rules start)) := by
  refine coversEnd_repeatRule fun setting session after hended hreads hrun => ?_
  obtain ⟨hkind, rfl⟩ := blockStep_last hrun
  exact endsCovered_passed hended hreads (by rw [hkind]; rfl)

/-- The braces of a block and what stands between them, inside its node. -/
instance coversHead_blockText : CoversHead (do
    let start ← ahead
    coverRequired .openBrace
    repeatRule (blockStep rules start)) := by
  constructor
  intro setting session value after hhead hrun
  rw [ahead_bind] at hrun
  obtain ⟨_, middle, hopen, hitems⟩ := bind_ok hrun
  have hreturns : Returns session.ahead (repeatRule (blockStep rules session.ahead)) :=
    inferInstance
  have hadvance := (hreturns.proceeds setting middle (advance_of_run hopen).forward).advance
  rw [hitems] at hadvance
  exact (CoversHead.covers setting session _ middle hhead hopen).grows hadvance.building

instance [Consumes rules.statement] : Encloses (block rules) := by
  unfold block
  infer_instance

instance : Encloses (expressionStatement rules) := by
  unfold expressionStatement
  infer_instance

instance (keyword : Keyword) : CoversHead (keywordCondition rules keyword) := by
  unfold keywordCondition
  infer_instance

instance (kind : NodeKind) : Encloses (jump kind) := by
  unfold jump
  infer_instance

/-- A switch ends with its closing brace. -/
instance coversEnd_switchSteps : CoversEnd (repeatRule do
    match (← peek).kind with
    | .closeBrace =>
        cover
        return false
    | .keyword .case_ | .keyword .default_ =>
        caseLabel rules
        return true
    | _ => failExpected (.expectedOneOfKinds [.keyword .case_, .keyword .default_])) := by
  refine coversEnd_repeatRule fun setting session after hended hreads hrun => ?_
  rw [peek_bind] at hrun
  generalize hkind : (setting.head session).kind = kind at hrun
  split at hrun
  · cases hrun
    exact endsCovered_passed hended hreads (by rw [hkind]; rfl)
  · obtain ⟨_, middle, -, hend⟩ := bind_ok hrun
    cases hend
  · obtain ⟨_, middle, -, hend⟩ := bind_ok hrun
    cases hend
  · cases hrun

instance : Encloses (switchStatement rules) := by
  unfold switchStatement
  infer_instance

instance : Encloses (ifStatement rules) := by
  unfold ifStatement
  infer_instance

instance : Encloses (whileStatement rules) := by
  unfold whileStatement
  infer_instance

instance : Encloses (doStatement rules) := by
  unfold doStatement
  infer_instance

instance : Encloses (returnStatement rules) := by
  unfold returnStatement
  infer_instance

instance [Consumes rules.statement] : Encloses (tryStatement rules) := by
  unfold tryStatement
  infer_instance

instance : Encloses (forStatement rules) := by
  have hbody (rest : Parse Unit) (hadvances : Advances rest) (hends : CoversEnd rest) :
      Encloses (node .for_ do cover; rest) :=
    inferInstance
  unfold forStatement
  refine hbody _ (.bind inferInstance fun _ => .bind inferInstance fun _ => ?_)
    (.of_right inferInstance fun _ => .of_right inferInstance fun _ => ?_)
  · extract_lets rest
    have hrest (first : PUnit) : Advances (rest first) := by
      unfold rest
      infer_instance
    clear_value rest
    infer_instance
  · extract_lets rest
    have hrest (first : PUnit) : CoversEnd (rest first) := by
      unfold rest
      infer_instance
    clear_value rest
    infer_instance

instance [Consumes rules.statement] : Encloses (statementBody rules) := by
  unfold statementBody
  refine .of_looks ?_
  intro token
  split <;> infer_instance

end Statements

instance (room : Nat) : CoversHead (blockRules room).assignment := by
  cases room <;> exact inferInstanceAs (CoversHead (valueRules _).assignment)

instance (room : Nat) : Encloses (blockRules room).statement := by
  induction room with
  | zero => exact inferInstanceAs (Encloses (fail _))
  | succ room ih =>
      exact inferInstanceAs (Encloses (deferred fun _ => statementBody (blockRules room)))

end

end Grammar.Parse

end ScriptSyntax
