import ScriptSyntax.Proofs.Comparison.Expression

/-!
# Statements side by side

Blocks and switches open braces and close them again.  In a block a broken item is passed over up
to a place that belongs to the block.
-/

namespace ScriptSyntax.Grammar.Comparison

/-- The two sessions agree, or they come behind an error to the brace that closes the text. -/
def rests (S : Comparison) (n : S.Frame) (s t : Session) : Prop :=
  S.agree n s t ∨ S.relate .covered n s t ∧ (S.left.head s).kind = .closeBrace

/-- What reading statements asks of a comparison. -/
class ReadsStatements (S : Comparison) : Prop extends S.ReadsExpressions where
  semicolon : S.passes .semicolon
  sees_variable : ∀ room, S.SeesAlike (variableAhead room)
  stop : ∀ {n s t}, S.lenient → S.broken n s t →
    (nextStop true t.ahead = [] ↔ nextStop true s.ahead = [])
  resume : ∀ {p n s t s₀ t₀}, S.lenient → S.relate p n s₀ t₀ → S.broken n s t →
    nextStop true s.ahead ≠ [] → S.rests n { s with ahead := Grammar.resume true s.ahead }
      { t with ahead := Grammar.resume true t.ahead }
  /-- An error behind which the source ends, inside a construct that starts with the tokens. -/
  exhausted : ∀ {p n s t s₀ t₀ tokens others}, S.lenient → S.places n tokens others →
    S.Heads s tokens → S.relate p n s₀ t₀ → S.broken n s t → nextStop true s.ahead = [] →
    S.Ends (S.abandoned n) (fun _ _ _ _ => False)
      ((Parse.failAtEnd .statementBlock tokens : Parse Unit) S.left { s with ahead := [] })
      ((Parse.failAtEnd .statementBlock others : Parse Unit) S.right { t with ahead := [] })

section

set_option synthInstance.maxSize 2000

set_option linter.unusedSectionVars false

variable {α β : Type} {S : Comparison} {n m : S.Frame} {p : Phase} {s t : Session}

open Parse

variable [S.ReadsStatements]

section Variables

variable {rules : ValueRules} [Advances rules.assignment] [Advances rules.initList]

theorem localVariable_keeps (hrules : S.KeepsValues rules) : S.Keeps (localVariable rules) := by
  apply Keeps.node
  constructor
  intro n s t h
  refine (dataType_keeps rules.room _).bind h ?_
  intro typed typed' htyped
  refine variableNames_ends ⟨?_⟩ (fun h hhead => cover_ends h (hhead ▸ ReadsStatements.semicolon))
    htyped
  intro n s t h
  rw [peek_bind, peek_bind, head_kind h]
  generalize hkind : (S.left.head s).kind = kind
  split
  · exact (argumentList_keeps hrules true).ends h
  · refine .bind (skip_ends h (ReadsExpressions.plain (hkind ▸ rfl))) ?_
    intro _ _ assigned assigned' hassigned
    exact (assignedValue_keeps hrules).ends hassigned
  · exact .ok h

end Variables

/-! ## Blocks -/

variable {rules : BlockRules} [Advances rules.assignment] [Advances rules.initList]
  [Advances rules.statement] [Consumes rules.statement]

/-- The rules of one level that a statement is read with. -/
structure KeepsStatements (S : Comparison) (rules : BlockRules) : Prop
    extends S.KeepsValues rules.toValueRules where
  statement : S.Keeps rules.statement

theorem blockItem_keeps (hrules : S.KeepsStatements rules) : S.Keeps (blockItem rules) := by
  constructor
  intro n s t h
  apply ifSees_ends (ReadsStatements.sees_variable rules.room) h
  · intro hsees
    exact (localVariable_keeps hrules.toKeepsValues).ends h
  · intro hsees
    exact hrules.statement.ends h

theorem rests_covered (h : S.rests n s t) : S.relate .covered n s t := by
  rcases h with hagree | ⟨hcovered, -⟩
  · exact S.loosen hagree
  · exact hcovered

theorem rests_agree (h : S.rests n s t) (hhead : (S.left.head s).kind ≠ .closeBrace) :
    S.agree n s t := by
  rcases h with hagree | ⟨-, hclose⟩
  · exact hagree
  · exact absurd hclose hhead

variable (S) in
/-- The two sessions rest in a block that starts with the tokens. -/
structure InBlock (start : List Token) (n : S.Frame) (s t : Session) : Prop where
  rests : S.rests n s t
  begun : s.building.span.isSome
  heads : S.lenient → S.Heads s start

theorem InBlock.grows {start : List Token} {after after' : Session} (h : S.InBlock start n s t)
    (hgrows : s.building.Grows after.building) (hrests : S.rests n after after') :
    S.InBlock start n after after' :=
  ⟨hrests, hgrows.isSome h.begun, fun hlenient => (h.heads hlenient).grows h.begun hgrows⟩

theorem blockStep_ends {post : Session → Session → Prop} (hrules : S.KeepsStatements rules)
    {start start' : List Token} (hplaces : S.places n start start')
    (hclose : (S.left.head s).kind = .closeBrace →
      S.Ends n (fun _ _ => post) (cover S.left s) (cover S.right t))
    (h : S.InBlock start n s t) :
    S.Ends (S.abandoned n) (fun again again' => Round (S.InBlock start n) post again again')
      (blockStep rules start S.left s) (blockStep rules start' S.right t) := by
  have hcovered := rests_covered h.rests
  apply ifNext_ends hcovered
  · intro hhead
    refine .bind (hclose hhead).abandon ?_
    intro _ _ closed closed' hclosed
    exact .ok ⟨rfl, hclosed⟩
  · intro hhead
    have hitem := (blockItem_keeps hrules).ends (rests_agree h.rests hhead)
    refine .bind (attempt_ends hitem).recall ?_
    rintro result other after after' ⟨⟨rfl, hended⟩, hrun⟩
    have hgrows := (advance_of_run hrun).building
    rcases hended with ⟨rfl, hagree⟩ | ⟨rfl, hlenient, hbroken⟩
    · exact .ok ⟨rfl, h.grows hgrows (.inl hagree)⟩
    · have hstop := ReadsStatements.stop hlenient hbroken
      simp only [Option.isNone_none, ↓reduceIte]
      rw [ahead_bind, ahead_bind]
      by_cases hnone : nextStop true after.ahead = []
      · simp only [hnone, hstop.mpr hnone, List.isEmpty_nil, ↓reduceIte]
        rw [goTo_bind, goTo_bind]
        have hheads := (h.heads hlenient).grows h.begun hgrows
        exact .never
          (ReadsStatements.exhausted hlenient hplaces hheads hcovered hbroken hnone)
      · simp only [List.isEmpty_eq_false_iff.mpr hnone,
          List.isEmpty_eq_false_iff.mpr (fun hnil => hnone (hstop.mp hnil)), Bool.false_eq_true,
          ↓reduceIte]
        exact .ok ⟨rfl, h.grows hgrows (ReadsStatements.resume hlenient hcovered hbroken hnone)⟩

theorem block_keeps (hrules : S.KeepsStatements rules) : S.Keeps (block rules) := by
  refine ⟨fun h => .nodeLeaving h fun hinside => ?_⟩
  have hplaces := S.place_deeper (S.place hinside)
  rw [ahead_bind, ahead_bind]
  refine .bind (coverOpenBrace_ends hinside).recall.abandon ?_
  rintro _ _ opened opened' ⟨hopened, hrun⟩
  have hbegun : S.InBlock _ (S.deeper _) opened opened' :=
    ⟨.inl hopened, isSome_of_coverRequired hinside (by simp) hrun,
      fun hlenient => (fronts_of_coverRequired hlenient hinside (by simp) hrun).1⟩
  apply Ends.weaken ReadsExpressions.weaken
  rw [← S.abandoned_deeper]
  exact repeatRule_ends
    (fun h => blockStep_ends hrules hplaces (leave_ends .span (rests_covered h.rests)) h)
    (fun h => .inr ⟨_, _, rests_covered h.rests⟩) hbegun

/-! ## Statements -/

theorem semicolon_ends (h : S.agree n s t) :
    S.Ends n (fun _ _ => S.agree n) (coverRequired .semicolon S.left s)
      (coverRequired .semicolon S.right t) :=
  coverRequired_ends h ReadsStatements.semicolon

/-- A value that may be left out before a semicolon. -/
theorem valueThenSemicolon_ends (hrules : S.KeepsStatements rules) (h : S.agree n s t) :
    S.Ends n (fun _ _ => S.agree n)
      ((do
        unless ← nextIs .semicolon do rules.assignment
        coverRequired .semicolon) S.left s)
      ((do
        unless ← nextIs .semicolon do rules.assignment
        coverRequired .semicolon) S.right t) := by
  apply ifNext_ends h
  · intro hhead
    exact semicolon_ends h
  · intro hhead
    refine hrules.assignment.bind h ?_
    intro valued valued' hvalued
    exact semicolon_ends hvalued

theorem expressionStatement_keeps (hrules : S.KeepsStatements rules) :
    S.Keeps (expressionStatement rules) :=
  .node _ ⟨valueThenSemicolon_ends hrules⟩

theorem keywordCondition_keeps (hrules : S.KeepsStatements rules) (keyword : Keyword) :
    S.Keeps (keywordCondition rules keyword) := by
  constructor
  intro n s t h
  refine .bind (coverRequired_ends h (ReadsExpressions.plain rfl)) ?_
  intro _ _ covered covered' hcovered
  refine .bind (require_ends hcovered (ReadsExpressions.plain rfl)) ?_
  intro _ _ opened opened' hopened
  refine hrules.assignment.bind hopened ?_
  intro tested tested' htested
  exact .bind (require_ends htested (ReadsExpressions.plain rfl)) fun _ _ _ _ hagree =>
    .ok hagree

theorem jump_ends (kind : NodeKind) (h : S.agree n s t)
    (hhead : (S.left.head s).kind.isPlain = true) :
    S.Ends n (fun _ _ => S.agree n) (jump kind S.left s) (jump kind S.right t) := by
  refine .node h fun hopened => ?_
  refine .bind (cover_ends hopened (ReadsExpressions.plain hhead)).recall ?_
  rintro _ _ covered covered' ⟨hcovered, hrun⟩
  exact coverThenRequire_ends hcovered ReadsStatements.semicolon (by simp) rfl
    (span_isSome_of_cover hopened (ne_end_of_isPlain hhead) hrun (.refl S.left covered))

theorem caseLabel_ends (hrules : S.KeepsStatements rules) (h : S.agree n s t)
    (hhead : (S.left.head s).kind.isPlain = true) :
    S.Ends n (fun _ _ => S.agree n) (caseLabel rules S.left s) (caseLabel rules S.right t) := by
  have hitems : S.Keeps (whileNext (fun token => !endsCase token.kind) (blockItem rules)) := by
    refine whileNext_keeps inferInstance ?_ fun h _ => (blockItem_keeps hrules).ends h
    intro n s t h
    rw [head_kind h]
  have hvalue : S.Keeps (expression rules.toValueRules) := expression_keeps hrules.toKeepsValues
  have hlabelled {m : S.Frame} {s t : Session} (h : S.agree m s t) :
      S.Ends m (fun _ _ => S.agree m)
        ((do
          coverRequired .colon
          whileNext (fun token => !endsCase token.kind) (blockItem rules)
          if ← nextIs (.keyword .break_) then jump .break_) S.left s)
        ((do
          coverRequired .colon
          whileNext (fun token => !endsCase token.kind) (blockItem rules)
          if ← nextIs (.keyword .break_) then jump .break_) S.right t) := by
    refine .bind (coverRequired_ends h (ReadsExpressions.plain rfl)) ?_
    intro _ _ colon colon' hcolon
    refine hitems.bind hcolon ?_
    intro listed listed' hlisted
    apply ifNext_ends hlisted
    · intro hbreak
      exact jump_ends _ hlisted (hbreak ▸ rfl)
    · intro hbreak
      exact .ok hlisted
  refine .node h fun hopened => ?_
  rw [nextIs_bind, nextIs_bind, head_kind hopened]
  refine .bind (cover_ends hopened (ReadsExpressions.plain hhead)) ?_
  intro _ _ covered covered' hcovered
  exact hvalue.optional hcovered hlabelled

theorem requireOpenBrace_ends (h : S.agree n s t) :
    S.Ends n (fun _ _ => S.agree (S.deeper n)) (require .openBrace S.left s)
      (require .openBrace S.right t) := by
  unfold require
  apply ifNext_ends h
  · intro hhead
    exact enter_ends .none h hhead
  · intro hhead
    exact failExpected_ends h _ (by simp [Message.expectedKind])

theorem switchStatement_keeps (hrules : S.KeepsStatements rules) :
    S.Keeps (switchStatement rules) := by
  apply Keeps.node
  constructor
  intro n s t h
  refine (keywordCondition_keeps hrules .switch).bind h ?_
  intro tested tested' htested
  refine .bind (requireOpenBrace_ends htested) ?_
  intro _ _ opened opened' hopened
  apply Ends.weaken ReadsExpressions.weaken
  refine repeat_ends ?_ hopened
  intro s t h
  rw [peek_bind, peek_bind, head_kind h]
  generalize hkind : (S.left.head s).kind = kind
  have hcase (hplain : kind.isPlain = true) :
      S.Ends (S.deeper n) (fun again again' => Round (S.agree (S.deeper n)) (S.agree n) again again') ((do caseLabel rules; return true) S.left s)
        ((do caseLabel rules; return true) S.right t) := by
    refine .bind (caseLabel_ends hrules h (hkind ▸ hplain)) ?_
    intro _ _ after after' hagree
    exact .ok ⟨rfl, hagree⟩
  split
  · refine .bind (Q := fun _ _ => S.agree n) (leave_ends .span h hkind) ?_
    intro _ _ closed closed' hclosed
    exact .ok ⟨rfl, hclosed⟩
  · exact hcase rfl
  · exact hcase rfl
  · exact failExpected_ends h _ (by simp [Message.expectedOneOfKinds])

theorem ifStatement_keeps (hrules : S.KeepsStatements rules) : S.Keeps (ifStatement rules) := by
  apply Keeps.node
  constructor
  intro n s t h
  refine (keywordCondition_keeps hrules .if_).bind h ?_
  intro tested tested' htested
  refine hrules.statement.bind htested ?_
  intro yes yes' hyes
  apply ifNext_ends hyes
  · intro hhead
    refine .bind (skip_ends hyes (ReadsExpressions.plain (hhead ▸ rfl))) ?_
    intro _ _ other other' hother
    exact hrules.statement.ends hother
  · intro hhead
    exact .ok hyes

theorem whileStatement_keeps (hrules : S.KeepsStatements rules) :
    S.Keeps (whileStatement rules) := by
  apply Keeps.node
  constructor
  intro n s t h
  refine (keywordCondition_keeps hrules .while_).bind h ?_
  intro tested tested' htested
  exact hrules.statement.ends htested

theorem doStatement_ends (hrules : S.KeepsStatements rules) (h : S.agree n s t)
    (hhead : (S.left.head s).kind.isPlain = true) :
    S.Ends n (fun _ _ => S.agree n) (doStatement rules S.left s) (doStatement rules S.right t) := by
  refine .node h fun hopened => ?_
  refine .bind (cover_ends hopened (ReadsExpressions.plain hhead)) ?_
  intro _ _ covered covered' hcovered
  refine hrules.statement.bind hcovered ?_
  intro done done' hdone
  refine (keywordCondition_keeps hrules .while_).bind hdone ?_
  intro tested tested' htested
  exact semicolon_ends htested

theorem forStatement_ends (hrules : S.KeepsStatements rules) (h : S.agree n s t)
    (hhead : (S.left.head s).kind.isPlain = true) :
    S.Ends n (fun _ _ => S.agree n) (forStatement rules S.left s)
      (forStatement rules S.right t) := by
  have hbody {m : S.Frame} {s t : Session} (h : S.agree m s t) :
      S.Ends m (fun _ _ => S.agree m)
        ((do
          if ← nextIs .closeParen then skip else failExpected (.expectedOneOfKinds [.comma, .closeParen])
          rules.statement) S.left s)
        ((do
          if ← nextIs .closeParen then skip else failExpected (.expectedOneOfKinds [.comma, .closeParen])
          rules.statement) S.right t) := by
    apply ifNext_ends h
    · intro hclose
      refine .bind (skip_ends h (ReadsExpressions.plain (hclose ▸ rfl))) ?_
      intro _ _ closed closed' hclosed
      exact hrules.statement.ends hclosed
    · intro hclose
      exact .never (failExpected_ends h _ (by simp [Message.expectedOneOfKinds]))
  have hrest {m : S.Frame} {s t : Session} (h : S.agree m s t) :
      S.Ends m (fun _ _ => S.agree m)
        ((do
          expressionStatement rules
          unless ← nextIs .closeParen do
            commaSeparated (node .expressionStatement rules.assignment)
          if ← nextIs .closeParen then skip else failExpected (.expectedOneOfKinds [.comma, .closeParen])
          rules.statement) S.left s)
        ((do
          expressionStatement rules
          unless ← nextIs .closeParen do
            commaSeparated (node .expressionStatement rules.assignment)
          if ← nextIs .closeParen then skip else failExpected (.expectedOneOfKinds [.comma, .closeParen])
          rules.statement) S.right t) := by
    refine (expressionStatement_keeps hrules).bind h ?_
    intro tested tested' htested
    apply ifNext_ends htested
    · intro hclose
      exact hbody htested
    · intro hclose
      refine (commaSeparated_keeps (.node _ hrules.assignment)
        (ReadsExpressions.plain rfl)).bind htested ?_
      intro listed listed' hlisted
      exact hbody hlisted
  refine .node h fun hopened => ?_
  refine .bind (cover_ends hopened (ReadsExpressions.plain hhead)) ?_
  intro _ _ covered covered' hcovered
  refine .bind (require_ends hcovered (ReadsExpressions.plain rfl)) ?_
  intro _ _ paren paren' hparen
  apply ifSees_ends (ReadsStatements.sees_variable rules.room) hparen
  · intro hsees
    refine (localVariable_keeps hrules.toKeepsValues).bind hparen ?_
    intro declared declared' hdeclared
    exact hrest hdeclared
  · intro hsees
    refine (expressionStatement_keeps hrules).bind hparen ?_
    intro started started' hstarted
    exact hrest hstarted

theorem returnStatement_ends (hrules : S.KeepsStatements rules) (h : S.agree n s t)
    (hhead : (S.left.head s).kind.isPlain = true) :
    S.Ends n (fun _ _ => S.agree n) (returnStatement rules S.left s)
      (returnStatement rules S.right t) := by
  refine .node h fun hopened => ?_
  refine .bind (cover_ends hopened (ReadsExpressions.plain hhead)) ?_
  intro _ _ covered covered' hcovered
  exact valueThenSemicolon_ends hrules hcovered

theorem tryStatement_ends (hrules : S.KeepsStatements rules) (h : S.agree n s t)
    (hhead : (S.left.head s).kind.isPlain = true) :
    S.Ends n (fun _ _ => S.agree n) (tryStatement rules S.left s)
      (tryStatement rules S.right t) := by
  refine .node h fun hopened => ?_
  refine .bind (cover_ends hopened (ReadsExpressions.plain hhead)) ?_
  intro _ _ covered covered' hcovered
  refine (block_keeps hrules).bind hcovered ?_
  intro tried tried' htried
  refine .bind (require_ends htried (ReadsExpressions.plain rfl)) ?_
  intro _ _ caught caught' hcaught
  exact (block_keeps hrules).ends hcaught

theorem statementBody_keeps (hrules : S.KeepsStatements rules) : S.Keeps (statementBody rules) := by
  constructor
  intro n s t h
  unfold statementBody
  rw [peek_bind, peek_bind, head_kind h]
  generalize hkind : (S.left.head s).kind = kind
  split
  · exact (block_keeps hrules).ends h
  · exact (ifStatement_keeps hrules).ends h
  · exact forStatement_ends hrules h (hkind ▸ rfl)
  · exact (whileStatement_keeps hrules).ends h
  · exact doStatement_ends hrules h (hkind ▸ rfl)
  · exact (switchStatement_keeps hrules).ends h
  · exact returnStatement_ends hrules h (hkind ▸ rfl)
  · exact jump_ends _ h (hkind ▸ rfl)
  · exact jump_ends _ h (hkind ▸ rfl)
  · exact tryStatement_ends hrules h (hkind ▸ rfl)
  · apply ifSees_ends (ReadsStatements.sees_variable rules.room) h
    · intro hsees
      exact fail_ends h _ _ rfl (by simp)
    · intro hsees
      exact (expressionStatement_keeps hrules).ends h

theorem blockRules_keeps (room : Nat) : S.KeepsStatements (blockRules room) := by
  have hvalues (room : Nat) : S.KeepsValues (blockRules room).toValueRules := by
    rw [blockRules_toValueRules]
    exact valueRules_keeps room
  induction room with
  | zero =>
      refine ⟨hvalues 0, ⟨?_⟩⟩
      intro n s t h
      exact fail_ends h _ _ rfl (by simp)
  | succ room ih => exact ⟨hvalues (room + 1), ⟨(statementBody_keeps ih).ends⟩⟩

end

end ScriptSyntax.Grammar.Comparison
