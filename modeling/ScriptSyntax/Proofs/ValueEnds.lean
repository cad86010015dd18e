import ScriptSyntax.Proofs.DefaultArguments
import ScriptSyntax.Proofs.SignatureSpans
import ScriptSyntax.Proofs.TemplateLists
import ScriptSyntax.Proofs.Variation.Expression

/-!
# The last token of a value

A value ends with a token that its node covers, whatever follows it.  Where a rule skips a token or
reads a type, whose last bracket may be a part of a token only, there is always more to come.
-/

namespace ScriptSyntax.Grammar.Parse

variable {α β : Type} {rule : Parse α} {next : α → Parse β} {setting : Setting}
  {session middle after : Session} {built : Node}

/-- From the tokens ahead of one session to those of another, the last one that is passed lies in the
span of the node. -/
def LastCovered (setting : Setting) (session after : Session) (node : Node) : Prop :=
  ∃ last, setting.Leads session.ahead (last :: after.ahead) ∧ node.Covers last.span

/-- The rule passes nothing, or it covers the last token that it passes. -/
class CoversLatest (rule : Parse α) : Prop where
  covers : ∀ setting session value after, setting.Ended → setting.Reads session.ahead →
    rule setting session = (.ok value, after) →
    after.ahead = session.ahead ∨ LastCovered setting session after after.building

theorem LastCovered.later (h : LastCovered setting middle after built)
    (hleads : setting.Leads session.ahead middle.ahead) : LastCovered setting session after built := by
  obtain ⟨last, hlast, hcovers⟩ := h
  exact ⟨last, hleads.trans hlast, hcovers⟩

theorem LastCovered.append (h : LastCovered setting session after built)
    (hreads : setting.Reads session.ahead) (outer : Node) :
    LastCovered setting session after (outer.append built) := by
  obtain ⟨last, hlast, hcovers⟩ := h
  exact ⟨last, hlast, hcovers.append (hreads.leads hlast).start_lt_stop outer⟩

theorem ne_ahead_of_passes (hreads : setting.Reads session.ahead)
    (hpasses : setting.Passes session.ahead after.ahead) : after.ahead ≠ session.ahead := by
  intro hsame
  have hlt := hreads.orderly.byteCount_lt hpasses
  rw [hsame] at hlt
  exact Nat.lt_irrefl _ hlt

theorem covers_of_run [hrule : CoversLatest rule] {value : α} (hended : setting.Ended)
    (hrun : rule setting session = (.ok value, after)) (hreads : setting.Reads session.ahead) :
    after.ahead = session.ahead ∨ LastCovered setting session after after.building :=
  hrule.covers setting session value after hended hreads hrun

/-! ## Building blocks -/

instance (priority := low) [hrule : Looks rule] : CoversLatest rule := by
  constructor
  intro setting session value after hended hreads hrun
  obtain ⟨_, hvalue⟩ := hrule.looks setting session
  rw [hvalue] at hrun
  cases hrun
  exact .inl rfl

instance (priority := low) [hrule : CoversEnd rule] : CoversLatest rule := by
  constructor
  intro setting session value after hended hreads hrun
  obtain ⟨last, hlast, -, hcovers⟩ := hrule.covers setting session value after hended hreads hrun
  exact .inr ⟨last, hlast, hcovers⟩

instance (priority := low) [Interrupts rule] : CoversLatest rule :=
  ⟨fun _ _ _ _ _ _ hrun => absurd hrun not_ok_of_interrupts⟩

/-- Behind a rule that passes a token, it does not matter what was passed before. -/
instance (priority := high) [hrule : Forwards rule] [hnext : ∀ value, CoversLatest (next value)]
    [hconsumes : ∀ value, Consumes (next value)] : CoversLatest (rule >>= next) := by
  constructor
  intro setting session value after hended hreads hrun
  obtain ⟨first, middle, hfirst, hsecond⟩ := bind_ok hrun
  have hleads := hrule.leads setting session first middle hfirst
  have hmiddle := hreads.leads hleads
  have hpasses := (hconsumes first).passes setting middle value after hended hsecond
  have hcovers := (hnext first).covers setting middle value after hended hmiddle hsecond
  exact .inr ((hcovers.resolve_left (ne_ahead_of_passes hmiddle hpasses)).later hleads)

instance [hrule : CoversLatest rule] [hforwards : Forwards rule]
    [hnext : ∀ value, CoversLatest (next value)] [∀ value, Advances (next value)] :
    CoversLatest (rule >>= next) := by
  constructor
  intro setting session value after hended hreads hrun
  obtain ⟨first, middle, hfirst, hsecond⟩ := bind_ok hrun
  have hleads := hforwards.leads setting session first middle hfirst
  rcases (hnext first).covers setting middle value after hended (hreads.leads hleads) hsecond with
    hsame | hcovers
  · -- Nothing more is passed: what was covered before stays covered.
    rw [hsame]
    refine (hrule.covers setting session first middle hended hreads hfirst).imp_right ?_
    rintro ⟨last, hlast, hcovers⟩
    rw [← hsame] at hlast
    exact ⟨last, hlast, hcovers.grows (advance_of_run hsecond).building⟩
  · exact .inr (hcovers.later hleads)

theorem CoversLatest.of_looks [Looks rule] (hnext : ∀ value, CoversLatest (next value)) :
    CoversLatest (rule >>= next) := by
  constructor
  intro setting session value after hended hreads hrun
  obtain ⟨first, hrest⟩ := looks_bind hrun
  exact (hnext first).covers setting session value after hended hreads hrest

instance (condition : Prop) [Decidable condition] (rule other : Parse α) [CoversLatest rule]
    [CoversLatest other] : CoversLatest (if condition then rule else other) := by
  split <;> infer_instance

instance (rule : Unit → Parse α) [hrule : CoversLatest (rule ())] : CoversLatest (deferred rule) :=
  ⟨fun setting => hrule.covers setting⟩

instance (kind : NodeKind) [hrule : CoversLatest rule] : CoversLatest (node kind rule) := by
  constructor
  intro setting session value after hended hreads hrun
  obtain ⟨inner, hinner, rfl⟩ := node_ok hrun
  exact (hrule.covers setting (session.opened kind) value inner hended hreads hinner).imp_right
    fun hcovers => hcovers.append hreads session.building

/-! ## Single tokens -/

theorem latest_of_widen {node : Node} (hreads : setting.Reads session.ahead)
    (htail : after.ahead = session.ahead.tail)
    (hbuilding : after.building = node.widen (setting.head session).span) :
    after.ahead = session.ahead ∨ LastCovered setting session after after.building := by
  cases hahead : session.ahead with
  | nil => exact .inl (by rw [htail, hahead, List.tail_nil])
  | cons token rest =>
      refine .inr ⟨token, ?_, ?_⟩
      · rw [htail, hahead]
        exact .refl
      · rw [hbuilding, Setting.head_cons hahead]
        rw [hahead] at hreads
        exact node.covers_widen hreads.start_lt_stop

/-- A rule that passes the next token and covers it. -/
theorem coversLatest_of_widen
    (h : ∀ setting session value after, rule setting session = (.ok value, after) →
      after.ahead = session.ahead.tail ∧
        ∃ node : Node, after.building = node.widen (setting.head session).span) :
    CoversLatest rule := by
  constructor
  intro setting session value after hended hreads hrun
  obtain ⟨htail, node, hbuilding⟩ := h setting session value after hrun
  exact latest_of_widen hreads htail hbuilding

instance : CoversLatest cover := by
  refine coversLatest_of_widen fun setting session value after hrun => ?_
  cases hrun
  exact ⟨rfl, session.building, rfl⟩

instance (kind : TokenKind) : CoversLatest (coverRequired kind) := by
  refine coversLatest_of_widen fun setting session value after hrun => ?_
  obtain ⟨-, rfl⟩ := coverRequired_passed hrun
  exact ⟨rfl, session.building, rfl⟩

instance : CoversLatest (do anchor (← Parse.next)) := by
  refine coversLatest_of_widen fun setting session value after hrun => ?_
  cases hrun
  exact ⟨rfl, { session.building with token := some (setting.head session).kind }, rfl⟩

instance (kind : NodeKind) : CoversLatest (leaf kind) := by
  unfold leaf
  infer_instance

instance : CoversLatest mark := by
  unfold mark
  infer_instance

instance : CoversLatest identifier := by
  unfold identifier
  infer_instance

instance (kind : NodeKind) : CoversLatest (tooDeep kind) := by
  unfold tooDeep
  infer_instance

/-! ## Loops -/

instance (count : Nat) (body : Parse Bool) [Advances body] [CoversLatest body] :
    CoversLatest (repeatUpTo count body) := by
  induction count with
  | zero => exact inferInstanceAs (CoversLatest (pure ()))
  | succ count ih =>
      unfold repeatUpTo
      infer_instance

instance (test : Token → Bool) (rule : Parse Unit) [Advances rule] [CoversLatest rule] :
    CoversLatest (whileNext test rule) := by
  unfold whileNext repeatRule
  infer_instance

/-- A loop ends as its last round does, if that passes a token. -/
theorem coversLatest_of_rounds {body : Parse Bool} [Rounds body] [hforwards : Forwards body]
    (hlast : ∀ setting session after, setting.Ended → setting.Reads session.ahead →
      body setting session = (.ok false, after) → LastCovered setting session after after.building) :
    CoversLatest (repeatRule body) := by
  constructor
  intro setting session value after hended hreads hrun
  have hrepeats : Repeats body setting session _ := repeatRule_repeats hended hreads
  rw [hrun] at hrepeats
  clear hrun
  generalize hresult : (Except.ok value, after) = result at hrepeats
  refine .inr ?_
  induction hrepeats with
  | last hbody =>
      cases hresult
      exact hlast setting _ after hended hreads hbody
  | broken hbody => cases hresult
  | again hbody _ ih =>
      have hleads := hforwards.leads setting _ _ _ hbody
      exact (ih (hreads.leads hleads) hresult).later hleads

/-- The commas are not covered, but an item follows each of them. -/
instance (item : Parse Unit) [Advances item] [hconsumes : Consumes item]
    [hitem : CoversLatest item] : CoversLatest (commaSeparated item) := by
  refine coversLatest_of_rounds fun setting session after hended hreads hrun => ?_
  obtain ⟨_, middle, hmiddle, hseparator⟩ := bind_ok hrun
  rw [nextIs_bind] at hseparator
  split at hseparator
  · cases hseparator
  · cases hseparator
    have hpasses := hconsumes.passes setting session () after hended hmiddle
    exact (hitem.covers setting session () after hended hreads hmiddle).resolve_left
      (ne_ahead_of_passes hreads hpasses)

/-! ## Values -/

section Values

set_option synthInstance.maxSize 20000

variable (rules : ValueRules) [Advances rules.assignment] [Advances rules.initList]
  [Consumes rules.assignment] [Consumes rules.initList] [CoversLatest rules.assignment]
  [CoversLatest rules.initList] {room : Nat}

instance : Consumes (argument rules) := by
  unfold argument
  infer_instance

instance : CoversLatest (argument rules) := by
  unfold argument
  infer_instance

instance coversLatest_argumentsText (parenthesized : Bool) : CoversLatest (do
    match (← peek).kind with
    | .closeParen => if parenthesized then cover
    | .closeBracket => if parenthesized then fail (.unexpectedKind .closeBracket)
    | _ =>
        commaSeparated (argument rules)
        if parenthesized then
          if ← nextIs .closeParen then cover
          else failExpected (.expectedEitherKind .closeParen .comma)) := by
  refine .of_looks fun token => ?_
  split <;> infer_instance

instance (parenthesized : Bool) : CoversLatest (argumentList rules parenthesized) := by
  unfold argumentList
  infer_instance

instance : CoversLatest (variableAccess room) := by
  unfold variableAccess
  infer_instance

instance : CoversLatest (functionCall rules) := by
  unfold functionCall
  infer_instance

instance : CoversLatest (constructCall rules) := by
  unfold constructCall
  infer_instance

instance : CoversLatest (cast rules) := by
  unfold cast
  infer_instance

instance : CoversLatest constant := by
  have hconstant : CoversLatest (do
      let first ← peek
      anchor first
      if first.kind.isString then whileNext (·.kind.isString) (leaf .constant) else skip) := by
    constructor
    intro setting session value after hended hreads hrun
    rw [peek_bind, anchor_bind] at hrun
    split at hrun
    · have hcovers := covers_of_run hended hrun hreads
      exact hcovers
    · cases hrun
      exact latest_of_widen hreads rfl rfl
  unfold constant
  infer_instance

/-- A captured block that comes to its end is complete: it has taken its closing brace. -/
instance : CoversEnd capturedBlock := by
  have hcapture : CoversEnd (do
      let start ← ahead
      coverRequired .openBrace
      let block := Capture.group .openBrace .closeBrace 0 (← ahead)
      unless block.ending = .complete do
        widen (block.rest.headD (← read).finish).span
      capture .statementBlock start block) := by
    constructor
    intro setting session value after hended hreads hrun
    rw [ahead_bind] at hrun
    obtain ⟨_, opened, hopened, hrun⟩ := bind_ok hrun
    obtain ⟨-, rfl⟩ := coverRequired_passed hopened
    rw [ahead_bind] at hrun
    let opened := setting.passed .span session
    let block := Capture.group .openBrace .closeBrace 0 opened.ahead
    have hcomplete : block.ending = .complete ∧ after = captured block opened := by
      split at hrun
      · exact capture_ok hrun
      · obtain ⟨_, wide, -, hcapture⟩ := bind_ok hrun
        exact absurd (capture_ok hcapture).1 ‹_›
    obtain ⟨hcomplete, rfl⟩ := hcomplete
    obtain ⟨passed, last, htaken, hkind⟩ := Capture.taken_group_of_complete hcomplete
    have hall : block.taken ++ block.rest = opened.ahead := Capture.group_append ..
    rw [htaken, List.append_assoc] at hall
    have hsuffix : last :: block.rest <:+ session.ahead :=
      .trans ⟨passed, hall⟩ (List.tail_suffix _)
    refine ⟨last, setting.leads_of_suffix hsuffix, by rw [hkind]; rfl, ?_⟩
    change (block.taken.foldl (fun node token => node.widen token.span) opened.building).Covers
      last.span
    rw [htaken, List.foldl_append]
    exact Node.covers_widen _ (hreads.suffix hsuffix).start_lt_stop
  unfold capturedBlock
  infer_instance

instance : CoversLatest (lambda room) := by
  unfold lambda
  infer_instance

instance : CoversLatest (namedValue rules) := by
  unfold namedValue
  infer_instance

/-- The token in the place of a parenthesis is covered before it is found to be one. -/
instance : CoversLatest (do
    widen (← peek).span
    let _ ← require .closeParen) := by
  refine coversLatest_of_widen fun setting session value after hrun => ?_
  rw [peek_bind, widen_bind] at hrun
  obtain ⟨token, middle, hrequire, hend⟩ := bind_ok hrun
  cases hend
  unfold require at hrequire
  rw [nextIs_bind] at hrequire
  split at hrequire
  · cases hrequire
    exact ⟨rfl, session.building, rfl⟩
  · cases hrequire

instance coversLatest_valueOfKind : CoversLatest (do
    match (← peek).kind with
    | .keyword .void => mark
    | .keyword .cast => cast rules
    | .openParen =>
        cover
        rules.assignment
        widen (← peek).span
        let _ ← require .closeParen
    | .unterminatedString => fail .unterminatedString
    | kind =>
        if kind.isPrimitiveType then constructCall rules
        else if kind.isIdentifier || kind = .scope then namedValue rules
        else if kind.isConstant then constant
        else failExpected .expectedExpressionValue) := by
  refine .of_looks fun token => ?_
  split <;> infer_instance

instance : CoversLatest (value rules) := by
  unfold value
  infer_instance

instance coversLatest_postOperatorOfKind : CoversLatest (do
    let token ← peek
    anchor token
    match token.kind with
    | .dot =>
        skip
        if (← peekSecond).kind = .openParen then functionCall rules else identifier
    | .openBracket =>
        skip
        argumentList rules false
        coverRequired .closeBracket
    | .openParen => argumentList rules true
    | _ => skip) := by
  constructor
  intro setting session value after hended hreads hrun
  rw [peek_bind, anchor_bind] at hrun
  generalize (setting.head session).kind = kind at hrun
  split at hrun
  case h_4 =>
    cases hrun
    exact latest_of_widen hreads rfl rfl
  all_goals
    have hcovers := covers_of_run hended hrun hreads
    exact hcovers

instance : CoversLatest (postOperator rules) := by
  unfold postOperator
  infer_instance

instance : CoversLatest (term rules) := by
  unfold term
  infer_instance

instance : CoversLatest (expression rules) := by
  unfold expression
  infer_instance

instance : CoversLatest (condition rules) := by
  unfold condition
  infer_instance

instance : CoversLatest (assignmentBody rules) := by
  unfold assignmentBody
  infer_instance

instance (mark : Punctuation) (message : Message) : Consumes (do
    if ← nextIs (.punctuation mark) then cover else failExpected message) := by
  refine consumes_of_next fun setting session value after hended hrun => ?_
  rw [nextIs_bind] at hrun
  split at hrun
  · rename_i hhead
    cases hrun
    exact ⟨by simp [of_decide_eq_true hhead], rfl⟩
  · cases hrun

instance : CoversLatest (initListBody rules) := by
  unfold initListBody
  infer_instance

end Values

theorem valueRules_coversLatest (room : Nat) :
    CoversLatest (valueRules room).assignment ∧ CoversLatest (valueRules room).initList := by
  induction room with
  | zero =>
      exact ⟨inferInstanceAs (CoversLatest (tooDeep _)), inferInstanceAs (CoversLatest (tooDeep _))⟩
  | succ room ih =>
      obtain ⟨hassignment, hlist⟩ := ih
      exact ⟨inferInstanceAs (CoversLatest (deferred fun _ => assignmentBody (valueRules room))),
        inferInstanceAs (CoversLatest (deferred fun _ => initListBody (valueRules room)))⟩

instance (room : Nat) : CoversLatest (valueRules room).assignment :=
  (valueRules_coversLatest room).1

instance (room : Nat) : CoversLatest (valueRules room).initList :=
  (valueRules_coversLatest room).2

end ScriptSyntax.Grammar.Parse
