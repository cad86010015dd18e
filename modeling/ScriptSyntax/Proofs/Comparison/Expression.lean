import ScriptSyntax.Proofs.Comparison.Type

/-!
# Expressions side by side

Expressions open braces in initialization lists only; the bodies of lambdas are captured.  All
other tokens of an expression are passed one by one.
-/

namespace ScriptSyntax

/-- The kinds that stand in expressions anywhere, outside captured text. -/
def TokenKind.isPlain : TokenKind → Bool
  | openBrace | closeBrace | semicolon | unterminatedString | endOfSource => false
  | _ => true

namespace Grammar

namespace Comparison

/-- The session after the first byte of the next token has left its span. -/
def slotted (setting : Setting) (session : Session) : Session :=
  { session with
    building := session.building.widen (.ofLength (setting.head session).span.start 1) }

/-- What reading expressions asks of a comparison. -/
class ReadsExpressions (S : Comparison) : Prop extends S.ReadsTypes where
  plain : ∀ {kind}, kind.isPlain = true → S.passes kind
  enter : ∀ {n s t} (imprint : Imprint), S.agree n s t → (S.left.head s).kind = .openBrace →
    S.lost (S.left.passed imprint s) ∨
      S.agree (S.deeper n) (S.left.passed imprint s) (S.right.passed imprint t)
  leave : ∀ {p n s t} (imprint : Imprint), S.relate p (S.deeper n) s t →
    (S.left.head s).kind = .closeBrace →
    S.lost (S.left.passed imprint s) ∨
      S.agree n (S.left.passed imprint s) (S.right.passed imprint t)
  second : ∀ {n s t}, S.agree n s t → S.alike (S.left.second s) (S.right.second t)
  weaken : ∀ {n s t}, S.lenient → S.broken (S.deeper n) s t → S.broken n s t
  slot : ∀ {n r s t}, S.agree (S.inside (S.deeper n) r) s t →
    (S.left.head s).kind = .comma ∨ (S.left.head s).kind = .closeBrace →
    S.relate .covered (S.inside (S.deeper n) r) (slotted S.left s) (slotted S.right t)
  warn : ∀ {n s t}, S.agree n s t →
    S.agree n (S.left.reports .warning .oldNamedArgument s)
      (S.right.reports .warning .oldNamedArgument t)
  sees_typedList : ∀ room, S.SeesAlike (typedListAhead room)
  sees_lambda : S.SeesAlike lambdaAhead
  sees_construction : S.SeesAlike constructionAhead
  sees_call : S.SeesAlike callAhead
  behindType : ∀ {n s t} (room : Nat), S.agree n s t →
    ((typeAhead room S.right).run t.ahead).map (fun seen => seen.2.head?.map (·.kind)) =
      ((typeAhead room S.left).run s.ahead).map (fun seen => seen.2.head?.map (·.kind))
  /-- The equals sign between the type of a list and its braces. -/
  typedListMark : ∀ {n s t after} (room : Nat), S.agree n s t →
    ((typedListAhead room S.left).run s.ahead).isSome = true →
    Parse.dataType room { const := false } S.left s = (.ok (), after) →
    S.passes (S.left.head after).kind
  capturedBlock : S.Keeps Parse.capturedBlock

section

set_option synthInstance.maxSize 2000

set_option linter.unusedSectionVars false

variable {α β : Type} {S : Comparison} {n m : S.Frame} {p : Phase} {s t : Session}

open Parse

/-- What ends behind one more brace ends behind the others. -/
theorem Ends.weaken {post : α → β → Session → Session → Prop}
    {result : Except Interruption α × Session} {other : Except Interruption β × Session}
    (hweaken : ∀ {n s t}, S.lenient → S.broken (S.deeper n) s t → S.broken n s t)
    (h : S.Ends (S.deeper n) post result other) : S.Ends n post result other := by
  cases h with
  | lost hlost => exact .lost hlost
  | ok hpost => exact .ok hpost
  | error hlenient hbroken => exact .error hlenient (hweaken hlenient hbroken)

variable [S.ReadsExpressions]

/-! ## Braces -/

theorem enter_ends {value : α} {value' : β} (imprint : Imprint) (h : S.agree n s t)
    (hhead : (S.left.head s).kind = .openBrace) :
    S.Ends n (fun _ _ => S.agree (S.deeper n)) (.ok value, S.left.passed imprint s)
      (.ok value', S.right.passed imprint t) := by
  rcases ReadsExpressions.enter imprint h hhead with hlost | hagree
  · exact .lost hlost
  · exact .ok hagree

theorem leave_ends {value : α} {value' : β} (imprint : Imprint) (h : S.relate p (S.deeper n) s t)
    (hhead : (S.left.head s).kind = .closeBrace) :
    S.Ends (S.deeper n) (fun _ _ => S.agree n) (.ok value, S.left.passed imprint s)
      (.ok value', S.right.passed imprint t) := by
  rcases ReadsExpressions.leave imprint h hhead with hlost | hagree
  · exact .lost hlost
  · exact .ok hagree

theorem coverOpenBrace_ends (h : S.agree n s t) :
    S.Ends n (fun _ _ => S.agree (S.deeper n)) (coverRequired .openBrace S.left s)
      (coverRequired .openBrace S.right t) := by
  rw [coverRequired_eq]
  apply ifNext_ends h
  · intro hhead
    exact enter_ends .span h hhead
  · intro hhead
    exact failExpected_ends h _ (by simp [Message.expectedKind])

/-! ## Arguments and lists -/

variable {rules : ValueRules} [Advances rules.assignment] [Advances rules.initList]

/-- The rules of one level that an expression is read with. -/
structure KeepsValues (S : Comparison) (rules : ValueRules) : Prop where
  assignment : S.Keeps rules.assignment
  initList : S.Keeps rules.initList

theorem kind_of_isIdentifier {kind : TokenKind} (h : kind.isIdentifier = true) :
    kind = .identifier := by
  simpa [TokenKind.isIdentifier] using h

theorem argument_keeps (hrules : S.KeepsValues rules) : S.Keeps (argument rules) := by
  constructor
  intro n s t h
  unfold argument
  rw [peekSecond_bind, peekSecond_bind, read_bind, read_bind, peek_bind, peek_bind, head_kind h,
    S.options_eq]
  by_cases hname : (S.left.head s).kind.isIdentifier = true
  · have hkind := kind_of_isIdentifier hname
    rw [S.alike_kind (ReadsExpressions.second h)]
    generalize hseparator : (S.left.second s).kind = separator
    generalize hold : (S.left.options.legacyNamedArguments && decide (separator = .assign)) = old
    by_cases hnamed : (decide (separator = .colon) || old) = true
    · simp only [hname, hnamed, Bool.and_self, ↓reduceIte]
      have hplain : separator.isPlain = true := by
        simp only [Bool.or_eq_true, decide_eq_true_eq] at hnamed
        rcases hnamed with hcolon | hassign
        · rw [hcolon]
          rfl
        · simp only [← hold, Bool.and_eq_true, decide_eq_true_eq] at hassign
          rw [hassign.2]
          rfl
      refine .node h fun hopened => ?_
      refine .bind (reads_identifier.ends hopened).recall ?_
      rintro _ _ after after' ⟨hagree, hrun⟩
      have hhead : (S.left.head after).kind = separator := by
        rw [← hseparator, Setting.head_of_tail (identifier_ok hrun).2]
        rfl
      have hrest {m : S.Frame} {s t : Session} (h : S.agree m s t)
          (hhead : (S.left.head s).kind = separator) :
          S.Ends m (fun _ _ => S.agree m) ((do skip; rules.assignment) S.left s)
            ((do skip; rules.assignment) S.right t) := by
        refine .bind (skip_ends h (ReadsExpressions.plain (hhead ▸ hplain))) ?_
        intro _ _ last last' hlast
        exact hrules.assignment.ends hlast
      split
      · exact hrest (ReadsExpressions.warn hagree) hhead
      · exact hrest hagree hhead
    · simp only [hname, hnamed, Bool.and_false, Bool.false_eq_true, ↓reduceIte]
      exact hrules.assignment.ends h
  · simp only [hname, Bool.false_and, Bool.false_eq_true, ↓reduceIte]
    exact hrules.assignment.ends h

theorem argumentList_keeps (hrules : S.KeepsValues rules) (parenthesized : Bool) :
    S.Keeps (argumentList rules parenthesized) := by
  apply Keeps.node
  constructor
  intro n s t h
  have hopening : S.Keeps (coverRequired .openParen) :=
    ⟨fun hagree => coverRequired_ends hagree (ReadsExpressions.plain rfl)⟩
  apply hopening.optional h
  intro opened opened' hopened
  dsimp only
  rw [peek_bind, peek_bind, head_kind hopened]
  generalize hkind : (S.left.head opened).kind = kind
  split
  · split
    · exact cover_ends hopened (hkind ▸ ReadsExpressions.plain rfl)
    · exact .ok hopened
  · split
    · exact fail_ends hopened _ _ rfl (by simp [Message.unexpectedKind])
    · exact .ok hopened
  · refine (commaSeparated_keeps (argument_keeps hrules)
      (ReadsExpressions.plain rfl)).bind hopened ?_
    intro listed listed' hlisted
    split
    · apply ifNext_ends hlisted
      · intro hhead
        exact cover_ends hlisted (hhead ▸ ReadsExpressions.plain rfl)
      · intro hhead
        exact failExpected_ends hlisted _ (by simp [Message.expectedEitherKind])
    · exact .ok hlisted

theorem emptySlot_ends (h : S.agree (S.deeper n) s t)
    (hhead : (S.left.head s).kind = .comma ∨ (S.left.head s).kind = .closeBrace) :
    S.Ends (S.deeper n) (fun _ _ => S.relate .covered (S.deeper n)) (emptySlot S.left s)
      (emptySlot S.right t) := by
  refine node_ends (Q := fun _ _ => S.relate .covered (S.inside (S.deeper n) s)) (by simp) h ?_ ?_
  · intro hopened
    exact .ok (ReadsExpressions.slot hopened hhead)
  · intro _ _ after after' hadvance hcovered
    exact S.closed (by simp) h hadvance hcovered

theorem listElement_ends (hrules : S.KeepsValues rules) (h : S.agree (S.deeper n) s t) :
    S.Ends (S.deeper n) (fun _ _ => S.relate .covered (S.deeper n)) (listElement rules S.left s)
      (listElement rules S.right t) := by
  have hloosen (rule : Parse Unit) (hrule : S.Keeps rule) :
      S.Ends (S.deeper n) (fun _ _ => S.relate .covered (S.deeper n)) (rule S.left s)
        (rule S.right t) :=
    (hrule.ends h).mono fun _ _ _ _ hagree => S.loosen hagree
  unfold listElement
  rw [peek_bind, peek_bind, head_kind h]
  generalize hkind : (S.left.head s).kind = kind
  split
  · exact emptySlot_ends h (.inl hkind)
  · exact emptySlot_ends h (.inr hkind)
  · exact hloosen _ hrules.initList
  · exact hloosen _ hrules.assignment

theorem initListBody_keeps (hrules : S.KeepsValues rules) : S.Keeps (initListBody rules) := by
  apply Keeps.node
  constructor
  intro n s t h
  refine .bind (coverOpenBrace_ends h) ?_
  intro _ _ opened opened' hopened
  apply Ends.weaken ReadsExpressions.weaken
  have hclosing {p : Phase} {s t : Session} (h : S.relate p (S.deeper n) s t) :
      S.Ends (S.deeper n) (fun _ _ => S.agree n)
        ((do
          if ← nextIs .closeBrace then cover
          else failExpected (.expectedEitherKind .closeBrace .comma)) S.left s)
        ((do
          if ← nextIs .closeBrace then cover
          else failExpected (.expectedEitherKind .closeBrace .comma)) S.right t) := by
    apply ifNext_ends h
    · intro hhead
      exact leave_ends .span h hhead
    · intro hhead
      exact failExpected_ends h _ (by simp [Message.expectedEitherKind])
  apply ifNext_ends hopened
  · intro hhead
    exact hclosing hopened
  · intro hhead
    refine .bind (commaSeparated_ends (ReadsExpressions.plain rfl) (fun h =>
      (listElement_ends hrules h).mono fun _ _ _ _ hcovered => .inr ⟨hcovered, hcovered⟩)
      S.loosen hopened) ?_
    intro _ _ listed listed' hlisted
    exact hclosing hlisted

/-! ## Values -/

theorem isPlain_of_isString {kind : TokenKind} (h : kind.isString = true) :
    kind.isPlain = true := by
  cases kind <;> simp_all [TokenKind.isString, TokenKind.isPlain]

theorem isPlain_of_isConstant {kind : TokenKind} (h : kind.isConstant = true) :
    kind.isPlain = true := by
  cases kind <;> simp_all [TokenKind.isConstant, TokenKind.isString, TokenKind.isPlain]

theorem ne_end_of_isPlain {kind : TokenKind} (h : kind.isPlain = true) :
    kind ≠ .endOfSource := by
  rintro rfl
  cases h

/-- The first of adjacent leaves covers what the node around them is anchored on. -/
theorem leaves_anchored (test : Token → Bool) (kind : NodeKind) {setting : Setting}
    {session : Session} (htest : test (setting.head session) = true)
    (hsolid : (setting.head session).span.start < (setting.head session).span.stop) :
    whileNext test (leaf kind) setting (setting.noted .anchor session) =
      whileNext test (leaf kind) setting (setting.labelled session) := by
  have hleaf : leaf kind setting (setting.noted .anchor session) =
      leaf kind setting (setting.labelled session) := by
    have hcovered : (setting.passed .anchor (session.opened kind)).building.span =
        some (setting.head session).span := Node.span_widen hsolid
    exact node_anchored hsolid hcovered (.refl setting _)
  have hround (after : Session) (h : test (setting.head after) = true) :
      (do
        if test (← peek) then
          leaf kind
          return true
        else return false : Parse Bool) setting after =
        (do leaf kind; return true : Parse Bool) setting after := by
    rw [peek_bind]
    simp only [h, ↓reduceIte]
  unfold whileNext repeatRule
  rw [ahead_bind, ahead_bind]
  change repeatUpTo (byteCount session.ahead + 1) _ _ _ =
    repeatUpTo (byteCount session.ahead + 1) _ _ _
  unfold repeatUpTo
  rw [bind_run _ _ _ (setting.noted .anchor session), bind_run _ _ _ (setting.labelled session),
    hround (setting.noted .anchor session) htest, hround (setting.labelled session) htest,
    bind_run _ _ _ (setting.noted .anchor session), bind_run _ _ _ (setting.labelled session),
    hleaf]

theorem constant_ends (h : S.agree n s t) (hhead : (S.left.head s).kind.isConstant = true) :
    S.Ends n (fun _ _ => S.agree n) (constant S.left s) (constant S.right t) := by
  refine .node h fun hopened => ?_
  have hplain := isPlain_of_isConstant hhead
  obtain ⟨hsolid, hsolid'⟩ := S.solid hopened (ne_end_of_isPlain hplain)
  rw [peek_bind, peek_bind, anchor_bind, anchor_bind, head_kind hopened]
  split
  · rename_i hstring
    have hstring' : (S.right.head (t.opened .constant)).kind.isString = true := by
      rwa [head_kind hopened]
    have hstrings : S.Keeps (whileNext (·.kind.isString) (leaf .constant)) := by
      refine whileNext_keeps (rounds_leaf .constant ?_) ?_ ?_
      · intro token htoken
        exact ne_end_of_isPlain (isPlain_of_isString htoken)
      · intro n s t h
        rw [head_kind h]
      · intro n s t h htest
        exact leaf_ends h (ReadsExpressions.plain (isPlain_of_isString htest))
    have hlabelled := hstrings.ends (S.label hopened)
    have hanchored := leaves_anchored (·.kind.isString) .constant hstring hsolid
    have hanchored' := leaves_anchored (·.kind.isString) .constant hstring' hsolid'
    rw [← hanchored, ← hanchored'] at hlabelled
    exact hlabelled
  · exact anchorNext_ends hopened (ReadsExpressions.plain hplain)

theorem functionCall_keeps (hrules : S.KeepsValues rules) : S.Keeps (functionCall rules) := by
  apply Keeps.node
  constructor
  intro n s t h
  refine (scope_keeps rules.room).bind h ?_
  intro inner inner' hinner
  refine reads_identifier.bind hinner ?_
  intro named named' hnamed
  exact (argumentList_keeps hrules true).ends hnamed

theorem variableAccess_keeps (room : Nat) : S.Keeps (variableAccess room) := by
  apply Keeps.node
  constructor
  intro n s t h
  refine (scope_keeps room).bind h ?_
  intro inner inner' hinner
  exact reads_identifier.ends hinner

theorem constructCall_keeps (hrules : S.KeepsValues rules) : S.Keeps (constructCall rules) := by
  apply Keeps.node
  constructor
  intro n s t h
  refine (dataType_keeps rules.room _).bind h ?_
  intro typed typed' htyped
  exact (argumentList_keeps hrules true).ends htyped

theorem cast_ends (hrules : S.KeepsValues rules) (h : S.agree n s t)
    (hhead : (S.left.head s).kind = .keyword .cast) :
    S.Ends n (fun _ _ => S.agree n) (cast rules S.left s) (cast rules S.right t) := by
  refine .node h fun hopened => ?_
  refine .bind (cover_ends hopened (ReadsExpressions.plain (hhead ▸ rfl))) ?_
  intro _ _ covered covered' hcovered
  refine .bind (require_ends hcovered (ReadsExpressions.plain rfl)) ?_
  intro _ _ less less' hless
  refine (dataType_keeps rules.room {}).bind hless ?_
  intro typed typed' htyped
  refine .bind (require_ends htyped (ReadsExpressions.plain rfl)) ?_
  intro _ _ greater greater' hgreater
  refine .bind (require_ends hgreater (ReadsExpressions.plain rfl)) ?_
  intro _ _ paren paren' hparen
  refine hrules.assignment.bind hparen ?_
  intro assigned assigned' hassigned
  exact coverRequired_ends hassigned (ReadsExpressions.plain rfl)

theorem lambdaParameterType_keeps (room : Nat) : S.Keeps (lambdaParameterType room) := by
  constructor
  intro n s t h
  have hbehind := ReadsExpressions.behindType room h
  unfold lambdaParameterType
  rw [tokensBehind_bind, tokensBehind_bind]
  generalize (typeAhead room S.left).run s.ahead = seen at hbehind
  generalize (typeAhead room S.right).run t.ahead = seen' at hbehind
  have htype {after other : Token} (hkind : other.kind = after.kind) :
      S.Ends n (fun _ _ => S.agree n)
        ((if after.kind.isIdentifier then do
            dataType room {}
            typeModifier true
          else return : Parse Unit) S.left s)
        ((if other.kind.isIdentifier then do
            dataType room {}
            typeModifier true
          else return : Parse Unit) S.right t) := by
    rw [hkind]
    split
    · refine (dataType_keeps room {}).bind h ?_
      intro typed typed' htyped
      exact (typeModifier_keeps true).ends htyped
    · exact .ok h
  match seen, seen', hbehind with
  | none, none, _ => exact .ok h
  | some (_, []), some (_, []), _ => exact .ok h
  | some (_, after :: _), some (_, other :: _), hbehind =>
      simp only [Option.map_some, List.head?_cons, Option.some.injEq] at hbehind
      exact htype hbehind

theorem lambda_ends (room : Nat) (h : S.agree n s t)
    (hhead : (S.left.head s).kind = .identifier)
    (hsecond : (S.left.second s).kind = .openParen) :
    S.Ends n (fun _ _ => S.agree n) (lambda room S.left s) (lambda room S.right t) := by
  refine .node h fun hopened => ?_
  refine .bind (cover_ends hopened (ReadsExpressions.plain (hhead ▸ rfl))).recall ?_
  rintro _ _ covered covered' ⟨hcovered, hrun⟩
  have hparen : (S.left.head covered).kind = .openParen := by
    cases hrun
    exact hsecond
  refine .bind (skip_ends hcovered (ReadsExpressions.plain (hparen ▸ rfl))) ?_
  intro _ _ opened opened' hparameters
  refine (lambdaParameterType_keeps room).bind hparameters ?_
  intro typed typed' htyped
  have hrest {m : S.Frame} {s t : Session} (h : S.agree m s t) :
      S.Ends m (fun _ _ => S.agree m)
        ((do
          if ← nextIs .closeParen then skip else fail (.expectedKind .closeParen)
          capturedBlock) S.left s)
        ((do
          if ← nextIs .closeParen then skip else fail (.expectedKind .closeParen)
          capturedBlock) S.right t) := by
    apply ifNext_ends h
    · intro hclose
      refine .bind (skip_ends h (ReadsExpressions.plain (hclose ▸ rfl))) ?_
      intro _ _ closed closed' hclosed
      exact ReadsExpressions.capturedBlock.ends hclosed
    · intro hclose
      exact .never (fail_ends h _ _ rfl (by simp [Message.expectedKind]))
  rw [peek_bind, peek_bind, head_kind htyped]
  by_cases hname : (S.left.head typed).kind.isIdentifier = true
  · simp only [hname, ↓reduceIte]
    refine reads_identifier.bind htyped ?_
    intro named named' hnamed
    have hmore : S.Keeps (whileNext (·.kind = .comma) do
        skip
        lambdaParameterType room
        identifier) := by
      refine whileNext_keeps inferInstance ?_ ?_
      · intro n s t h
        rw [head_kind h]
      · intro n s t h htest
        have hcomma : (S.left.head s).kind = .comma := of_decide_eq_true htest
        refine .bind (skip_ends h (ReadsExpressions.plain (hcomma ▸ rfl))) ?_
        intro _ _ skipped skipped' hskipped
        refine (lambdaParameterType_keeps room).bind hskipped ?_
        intro typed typed' htyped
        exact reads_identifier.ends htyped
    refine hmore.bind hnamed ?_
    intro listed listed' hlisted
    exact hrest hlisted
  · simp only [hname, Bool.false_eq_true, ↓reduceIte]
    exact hrest htyped

theorem namedValue_ends (hrules : S.KeepsValues rules) (h : S.agree n s t) :
    S.Ends n (fun _ _ => S.agree n) (namedValue rules S.left s) (namedValue rules S.right t) := by
  apply ifSees_ends ReadsExpressions.sees_lambda h
  · intro hsees
    obtain ⟨hhead, hsecond⟩ := lambdaAhead_isSome hsees
    exact lambda_ends rules.room h hhead hsecond
  · intro hlambda
    apply ifSees_ends ReadsExpressions.sees_construction h
    · intro hsees
      exact (constructCall_keeps hrules).ends h
    · intro hconstruction
      apply ifSees_ends ReadsExpressions.sees_call h
      · intro hsees
        exact (functionCall_keeps hrules).ends h
      · intro hcall
        exact (variableAccess_keeps rules.room).ends h

theorem value_keeps (hrules : S.KeepsValues rules) : S.Keeps (value rules) := by
  apply Keeps.node
  constructor
  intro n s t h
  rw [peek_bind, peek_bind, head_kind h]
  generalize hkind : (S.left.head s).kind = kind
  split
  · exact leaf_ends h (ReadsExpressions.plain (hkind ▸ rfl))
  · exact cast_ends hrules h hkind
  · refine .bind (cover_ends h (ReadsExpressions.plain (hkind ▸ rfl))).recall ?_
    rintro _ _ opened opened' ⟨hopened, hcover⟩
    refine .bind (hrules.assignment.ends hopened).recall ?_
    rintro _ _ assigned assigned' ⟨hassigned, hrun⟩
    exact coverThenRequire_ends hassigned (ReadsExpressions.plain rfl) (by simp) rfl
      (span_isSome_of_cover h (hkind ▸ by simp) hcover (advance_of_run hrun))
  · exact fail_ends h _ _ rfl (by simp)
  · split
    · exact (constructCall_keeps hrules).ends h
    · split
      · exact namedValue_ends hrules h
      · split
        · rename_i hconstant
          exact constant_ends h (hkind ▸ hconstant)
        · exact failExpected_ends h _ (by simp)

/-! ## Terms and expressions -/

theorem isPlain_of_isBeforeValue {kind : TokenKind} (h : kind.isBeforeValue = true) :
    kind.isPlain = true := by
  cases kind <;> simp_all [TokenKind.isBeforeValue, TokenKind.isPlain]

theorem isPlain_of_isBinaryOperator {kind : TokenKind} (h : kind.isBinaryOperator = true) :
    kind.isPlain = true := by
  cases kind <;> simp_all [TokenKind.isBinaryOperator, TokenKind.isPlain]

theorem isPlain_of_isAssignment {kind : TokenKind} (h : kind.isAssignment = true) :
    kind.isPlain = true := by
  cases kind <;> simp_all [TokenKind.isAssignment, TokenKind.isPlain]

theorem isPlain_of_isAfterValue {kind : TokenKind} (h : kind.isAfterValue = true) :
    kind.isPlain = true := by
  cases kind with
  | punctuation mark => cases mark <;> simp_all [TokenKind.isAfterValue, TokenKind.isPlain]
  | operator word => rfl
  | _ => simp_all [TokenKind.isAfterValue]

/-- Arguments in parentheses cover the parenthesis that the operator is anchored on. -/
theorem argumentList_anchored {setting : Setting} {session : Session}
    (hhead : (setting.head session).kind = .openParen)
    (hsolid : (setting.head session).span.start < (setting.head session).span.stop) :
    argumentList rules true setting (setting.noted .anchor session) =
      argumentList rules true setting (setting.labelled session) := by
  have hcover : coverRequired .openParen setting (session.opened .argList) =
      (.ok (), setting.passed .span (session.opened .argList)) := by
    have hopened : (setting.head (session.opened .argList)).kind = .openParen := hhead
    rw [coverRequired_eq, nextIs_bind]
    simp only [hopened, decide_true, ↓reduceIte]
    rfl
  have hcovered : (setting.passed .span (session.opened .argList)).building.span =
      some (setting.head session).span := Node.span_widen hsolid
  unfold argumentList
  simp only [↓reduceIte]
  refine node_anchored hsolid hcovered ?_
  rw [bind_run, hcover]
  refine (Advances.bind inferInstance ?_).proceeds setting _ |>.advance
  intro token
  split <;> infer_instance

theorem postOperator_ends (hrules : S.KeepsValues rules) (h : S.agree n s t)
    (hhead : (S.left.head s).kind.isAfterValue = true) :
    S.Ends n (fun _ _ => S.agree n) (postOperator rules S.left s)
      (postOperator rules S.right t) := by
  refine .node h fun hopened => ?_
  have hplain := isPlain_of_isAfterValue hhead
  rw [peek_bind, peek_bind, anchor_bind, anchor_bind, head_kind hopened]
  generalize hkind : (S.left.head (s.opened .exprPostOp)).kind = kind
  have hpassed : S.Ends (S.inside n s) (fun _ _ => S.agree (S.inside n s))
      (skip S.left (S.left.noted .anchor (s.opened .exprPostOp)))
      (skip S.right (S.right.noted .anchor (t.opened .exprPostOp))) :=
    .passed .anchor hopened (ReadsExpressions.plain hplain)
  split
  · refine .bind hpassed ?_
    intro _ _ dotted dotted' hdotted
    rw [peekSecond_bind, peekSecond_bind, S.alike_kind (ReadsExpressions.second hdotted)]
    split
    · exact (functionCall_keeps hrules).ends hdotted
    · exact reads_identifier.ends hdotted
  · refine .bind hpassed ?_
    intro _ _ opened opened' hindex
    refine (argumentList_keeps hrules false).bind hindex ?_
    intro listed listed' hlisted
    exact coverRequired_ends hlisted (ReadsExpressions.plain rfl)
  · obtain ⟨hsolid, hsolid'⟩ := S.solid hopened (ne_end_of_isPlain hplain)
    have hlabelled := (argumentList_keeps hrules true).ends (S.label hopened)
    rw [← argumentList_anchored hkind hsolid,
      ← argumentList_anchored ((head_kind hopened).trans hkind) hsolid'] at hlabelled
    exact hlabelled
  · exact hpassed

theorem term_keeps (hrules : S.KeepsValues rules) : S.Keeps (term rules) := by
  apply Keeps.node
  constructor
  intro n s t h
  apply ifSees_ends (ReadsExpressions.sees_typedList rules.room) h
  · intro hsees
    refine .bind ((dataType_keeps rules.room _).ends h).recall ?_
    rintro _ _ typed typed' ⟨htyped, hrun⟩
    refine .bind (skip_ends htyped (ReadsExpressions.typedListMark rules.room h hsees hrun)) ?_
    intro _ _ marked marked' hmarked
    exact hrules.initList.ends hmarked
  · intro hsees
    apply ifNext_ends h
    · intro hhead
      exact hrules.initList.ends h
    · intro hhead
      have hbefore : S.Keeps (whileNext (·.kind.isBeforeValue) (leaf .exprPreOp)) := by
        refine whileNext_keeps (rounds_leaf .exprPreOp ?_) ?_ ?_
        · intro token htoken
          exact ne_end_of_isPlain (isPlain_of_isBeforeValue htoken)
        · intro n s t h
          rw [head_kind h]
        · intro n s t h htest
          exact leaf_ends h (ReadsExpressions.plain (isPlain_of_isBeforeValue htest))
      have hafter : S.Keeps (whileNext (·.kind.isAfterValue) (postOperator rules)) := by
        refine whileNext_keeps inferInstance ?_ (postOperator_ends hrules)
        intro n s t h
        rw [head_kind h]
      refine hbefore.bind h ?_
      intro marked marked' hmarked
      refine (value_keeps hrules).bind hmarked ?_
      intro valued valued' hvalued
      exact hafter.ends hvalued

theorem expression_keeps (hrules : S.KeepsValues rules) : S.Keeps (expression rules) := by
  apply Keeps.node
  constructor
  intro n s t h
  have hmore : S.Keeps (whileNext (·.kind.isBinaryOperator) do
      leaf .exprOperator
      term rules) := by
    refine whileNext_keeps (rounds_of_test (operand_passes rules)) ?_ ?_
    · intro n s t h
      rw [head_kind h]
    · intro n s t h htest
      refine .bind (leaf_ends h (ReadsExpressions.plain (isPlain_of_isBinaryOperator htest))) ?_
      intro _ _ marked marked' hmarked
      exact (term_keeps hrules).ends hmarked
  refine (term_keeps hrules).bind h ?_
  intro first first' hfirst
  exact hmore.ends hfirst

theorem condition_keeps (hrules : S.KeepsValues rules) : S.Keeps (condition rules) := by
  apply Keeps.node
  constructor
  intro n s t h
  refine (expression_keeps hrules).bind h ?_
  intro tested tested' htested
  apply ifNext_ends htested
  · intro hhead
    refine .bind (skip_ends htested (ReadsExpressions.plain (hhead ▸ rfl))) ?_
    intro _ _ asked asked' hasked
    refine hrules.assignment.bind hasked ?_
    intro yes yes' hyes
    refine .bind (require_ends hyes (ReadsExpressions.plain rfl)) ?_
    intro _ _ colon colon' hcolon
    exact hrules.assignment.ends hcolon
  · intro hhead
    exact .ok htested

theorem assignmentBody_keeps (hrules : S.KeepsValues rules) : S.Keeps (assignmentBody rules) := by
  apply Keeps.node
  constructor
  intro n s t h
  refine (condition_keeps hrules).bind h ?_
  intro target target' htarget
  rw [peek_bind, peek_bind, head_kind htarget]
  split
  · rename_i hassignment
    refine .bind (leaf_ends htarget
      (ReadsExpressions.plain (isPlain_of_isAssignment hassignment))) ?_
    intro _ _ marked marked' hmarked
    exact hrules.assignment.ends hmarked
  · exact .ok htarget

theorem valueRules_keeps (room : Nat) : S.KeepsValues (valueRules room) := by
  induction room with
  | zero => exact ⟨tooDeep_keeps _, tooDeep_keeps _⟩
  | succ room ih =>
      exact ⟨⟨(assignmentBody_keeps ih).ends⟩, ⟨(initListBody_keeps ih).ends⟩⟩

theorem assignedValue_keeps (hrules : S.KeepsValues rules) : S.Keeps (assignedValue rules) := by
  constructor
  intro n s t h
  apply ifNext_ends h
  · intro hhead
    exact hrules.initList.ends h
  · intro hhead
    exact hrules.assignment.ends h

end

end Comparison

end Grammar

end ScriptSyntax
