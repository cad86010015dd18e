import ScriptSyntax.Proofs.Comparison.Script
import ScriptSyntax.Proofs.Comparison.Statement

/-!
# Entries side by side

Whatever a source is parsed as, two sessions that agree lead to sessions that agree, if the
comparison goes on behind errors.
-/

namespace ScriptSyntax

/-- What is parsed up to the end of the source, and is a single node. -/
def Entry.isSignature : Entry → Bool
  | functionSignature | listFactorySignature | dataType _ | property => true
  | _ => false

/-- What is gone on with behind a syntax error. -/
def Entry.recovers : Entry → Bool
  | script | statementBlock _ => true
  | _ => false

end ScriptSyntax

namespace ScriptSyntax.Grammar.ScriptComparison

open Parse Comparison

section

set_option synthInstance.maxSize 2000

set_option linter.unusedSectionVars false

variable {α β : Type} {S : ScriptComparison} {n m : S.Frame} {p : Phase} {s t : Session}

theorem agree_of_lenient (hlenient : S.lenient) (h : S.done n s t) : S.agree n s t :=
  S.agree_of_done h (.inl hlenient)

theorem Finishes.ends {post : α → β → Session → Session → Prop}
    {result : Except Interruption α × Session} {other : Except Interruption β × Session}
    (hlenient : S.lenient) (h : S.Finishes n post result other) : S.Ends n post result other :=
  h.resolve_left fun hexhausts => hexhausts.1 hlenient

/-! ## List patterns -/

theorem isPatternMarker_congr {token other : Token} (h : S.alike token other) :
    isPatternMarker other = isPatternMarker token := by
  unfold isPatternMarker
  rw [isWord_congr h, isWord_congr h]

/-- The two sessions agree inside braces that start with the tokens. -/
structure InPattern (S : ScriptComparison) (start : List Token) (n : S.Frame) (s t : Session) :
    Prop where
  agrees : S.agree n s t
  begun : s.building.span.isSome
  heads : S.Heads s start

theorem InPattern.grows {start : List Token} {after after' : Session}
    (h : S.InPattern start n s t) (hgrows : s.building.Grows after.building)
    (hagree : S.agree n after after') : S.InPattern start n after after' :=
  ⟨hagree, hgrows.isSome h.begun, h.heads.grows h.begun hgrows⟩

theorem patternElement_ends (room : Nat) {nested : Parse Unit} [Advances nested]
    (hnested : ∀ {p n s t}, p ≠ .covered → S.relate p n s t →
      S.Ends n (fun _ _ => S.relate .covered n) (nested S.left s) (nested S.right t))
    (hlenient : S.lenient) {start start' : List Token} (hplaces : S.places n start start')
    (h : S.InPattern start n s t) :
    S.Ends (S.abandoned n) (fun _ _ after after' => S.relate .covered n after after' ∧
        s.building.Grows after.building)
      (patternElement room nested start S.left s) (patternElement room nested start' S.right t) := by
  have hnoted := S.note .span h.agrees (.inl hlenient) (.inr h.begun)
  have hgrows : s.building.Grows (S.left.noted .span s).building := s.building.grows_widen _
  have hgrown {rule : Parse Unit} [Advances rule]
      (hrule : S.Ends n (fun _ _ => S.relate .covered n) (rule S.left (S.left.noted .span s))
        (rule S.right (S.right.noted .span t))) :
      S.Ends (S.abandoned n) (fun _ _ after after' => S.relate .covered n after after' ∧
          s.building.Grows after.building) (rule S.left (S.left.noted .span s))
        (rule S.right (S.right.noted .span t)) := by
    refine hrule.recall.abandon.mono ?_
    rintro _ _ after after' ⟨hcovered, hrun⟩
    exact ⟨hcovered, hgrows.trans (advance_of_run hrun).building⟩
  unfold patternElement
  rw [peek_bind, peek_bind, widen_bind, widen_bind, head_kind h.agrees, head_text h.agrees,
    isPatternMarker_congr (S.head h.agrees)]
  generalize hkind : (S.left.head s).kind = kind
  split
  · exact (failExpected_ends hnoted _ (by simp)).abandon
  · exact (failExpected_ends hnoted _ (by simp)).abandon
  · exact failAtEnd_ends _ hplaces (h.heads.grows h.begun hgrows) hnoted hkind
  · exact hgrown (hnested (by simp [Phase.noting]) hnoted)
  · split
    · exact (fail_ends hnoted _ _ rfl (by simp)).abandon
    · exact hgrown (dataType_from room _ (by simp [Phase.noting]) hnoted)

theorem patternSeparator_ends (hlenient : S.lenient) {start start' : List Token}
    (hplaces : S.places n start start') (h : S.relate .covered n s t)
    (hspan : s.building.span.isSome) (hheads : S.Heads s start) :
    S.Ends (S.abandoned n)
      (fun again again' => Round (fun after after' => S.agree n after after' ∧
        s.building.Grows after.building) (S.agree n) again again')
      (patternSeparator start S.left s) (patternSeparator start' S.right t) := by
  have hnoted := S.note .span h (.inl hlenient) (.inr hspan)
  have hgrows : s.building.Grows (S.left.noted .span s).building := s.building.grows_widen _
  have hpassed (hhead : (S.left.head s).kind ≠ .endOfSource) :
      S.Ends (S.abandoned n) (fun _ _ after after' => S.agree n after after' ∧
          s.building.Grows after.building)
        (skip S.left (S.left.noted .span s)) (skip S.right (S.right.noted .span t)) := by
    refine (skip_done hnoted hhead).recall.abandon.mono ?_
    rintro _ _ after after' ⟨hdone, hrun⟩
    exact ⟨agree_of_lenient hlenient hdone, hgrows.trans (advance_of_run hrun).building⟩
  unfold patternSeparator
  rw [peek_bind, peek_bind, widen_bind, widen_bind, head_kind h, head_text h,
    isPatternMarker_congr (S.head h)]
  generalize hkind : (S.left.head s).kind = kind
  split
  · refine .bind (hpassed (by simp [hkind])) ?_
    rintro _ _ after after' ⟨hagree, -⟩
    exact .ok ⟨rfl, hagree⟩
  · refine .bind (hpassed (by simp [hkind])) ?_
    rintro _ _ after after' hafter
    exact .ok ⟨rfl, hafter⟩
  · exact failAtEnd_ends _ hplaces (hheads.grows hspan hgrows) hnoted hkind
  · split
    · exact (fail_ends hnoted _ _ rfl (by simp)).abandon
    · exact (failExpected_ends hnoted _ (by simp [Message.expectedEitherKind])).abandon

instance (room : Nat) (nested : Parse Unit) [Advances nested] (start : List Token) :
    Forwards (patternElement room nested start) := by
  unfold patternElement
  refine .bind inferInstance fun token => .bind inferInstance fun covered => ?_
  split <;> infer_instance

instance (start : List Token) : Forwards (patternSeparator start) := by
  unfold patternSeparator
  refine .bind inferInstance fun token => .bind inferInstance fun covered => ?_
  split <;> infer_instance

instance (start : List Token) : Rounds (patternSeparator start) := by
  constructor
  intro setting session after hended hrun
  unfold patternSeparator at hrun
  rw [peek_bind, widen_bind] at hrun
  generalize hkind : (setting.head session).kind = kind at hrun
  split at hrun
  · cases hrun
  · cases hrun
    exact hended.passes_tail (by simp [hkind])
  · cases hrun
  · split at hrun <;> cases hrun

theorem patternElements_ends (room : Nat) {nested : Parse Unit} [Advances nested]
    (hnested : ∀ {p n s t}, p ≠ .covered → S.relate p n s t →
      S.Ends n (fun _ _ => S.relate .covered n) (nested S.left s) (nested S.right t))
    (hlenient : S.lenient) {start start' : List Token} (hplaces : S.places n start start')
    (h : S.InPattern start n s t) :
    S.Ends (S.abandoned n) (fun _ _ => S.agree n)
      (repeatRule (do
        patternElement room nested start
        patternSeparator start) S.left s)
      (repeatRule (do
        patternElement room nested start'
        patternSeparator start') S.right t) := by
  refine repeatRule_ends ?_ (fun h => .inr ⟨_, _, h.agrees⟩) h
  intro s t h
  refine .bind (patternElement_ends room hnested hlenient hplaces h) ?_
  rintro _ _ element element' ⟨hcovered, helement⟩
  refine (patternSeparator_ends hlenient hplaces hcovered (helement.isSome h.begun)
    (h.heads.grows h.begun helement)).mono ?_
  rintro _ again after after' ⟨rfl, hround⟩
  refine ⟨rfl, ?_⟩
  cases again with
  | false => exact hround
  | true => exact h.grows (helement.trans hround.2) hround.1

theorem listPatternBody_from (room : Nat) {nested : Parse Unit} [Advances nested]
    (hnested : ∀ {p n s t}, p ≠ .covered → S.relate p n s t →
      S.Ends n (fun _ _ => S.relate .covered n) (nested S.left s) (nested S.right t))
    (hlenient : S.lenient) (hphase : p ≠ .covered) (h : S.relate p n s t) :
    S.Ends n (fun _ _ => S.relate (p.closing .settled) n) (listPatternBody room nested S.left s)
      (listPatternBody room nested S.right t) := by
  refine node_leaves (Q := fun _ _ => S.agree (S.inside n s)) hphase h (fun hinside => ?_) ?_
  case refine_2 =>
    intro _ _ after after' hadvance hagree
    exact S.closed hphase h hadvance hagree
  have hplaces := S.place hinside
  rw [ahead_bind, ahead_bind]
  refine .bind (coverBrace_ends hinside).recall.abandon ?_
  rintro _ _ opened opened' ⟨⟨hagree, hspan⟩, hbrace⟩
  have hopened : S.InPattern (s.opened .listPattern).ahead (S.inside n s) opened opened' :=
    ⟨hagree, hspan, (fronts_of_coverRequired hlenient hinside (by simp) hbrace).1⟩
  rw [peek_bind, peek_bind, isPatternMarker_congr (S.head hagree)]
  dsimp only
  split
  · refine .bind (reads_identifier.ends hagree).recall.abandon ?_
    rintro _ _ named named' ⟨hnamed, hrun⟩
    have hgrows := (advance_of_run hrun).building
    exact patternElements_ends room hnested hlenient hplaces (hopened.grows hgrows hnamed)
  · exact patternElements_ends room hnested hlenient hplaces hopened

theorem listPattern_from (room : Nat) (hlenient : S.lenient) (hphase : p ≠ .covered)
    (h : S.relate p n s t) :
    S.Ends n (fun _ _ => S.relate (p.closing .settled) n) (listPattern room S.left s)
      (listPattern room S.right t) := by
  induction room generalizing p n s t with
  | zero => exact tooDeep_from _ hphase h
  | succ room ih =>
      refine listPatternBody_from room (fun hphase h => ?_) hlenient hphase h
      exact (ih hphase h).mono fun _ _ _ _ => S.loosest

/-! ## Entries -/

instance : Advances expectEnd := by
  unfold expectEnd
  infer_instance

theorem expectEnd_keeps : S.Keeps expectEnd := by
  constructor
  intro n s t h
  unfold expectEnd
  rw [peek_bind, peek_bind, head_kind h]
  split
  · exact .ok h
  · exact failExpected_ends h _ (by simp [Message.expectedKind])

theorem template_keeps : S.Keeps Parse.template := by
  apply Keeps.node
  constructor
  intro n s t h
  have hparameter : S.Keeps (do
      if ← nextIs (.keyword .class_) then skip
      identifier) := by
    constructor
    intro n s t h
    apply ifNext_ends h
    · intro hhead
      refine .bind (skip_ends h (hhead ▸ passes_keyword _)) ?_
      intro _ _ skipped skipped' hskipped
      exact reads_identifier.ends hskipped
    · intro hhead
      exact reads_identifier.ends h
  refine reads_identifier.bind h ?_
  intro named named' hnamed
  refine .bind (require_ends hnamed (plain rfl)) ?_
  intro _ _ opened opened' hopened
  refine (commaSeparated_keeps hparameter (plain rfl)).bind hopened ?_
  intro listed listed' hlisted
  exact .bind (require_ends hlisted (S.inner (by simp) (by simp) (by simp)))
    fun _ _ _ _ hagree => .ok hagree

theorem registeredProperty_keeps (room : Nat) : S.Keeps (registeredProperty room) := by
  apply Keeps.node
  constructor
  intro n s t h
  refine (dataType_keeps room {}).bind h ?_
  intro typed typed' htyped
  refine (markIf_keeps (plain rfl)).bind htyped ?_
  intro marked marked' hmarked
  refine (scope_keeps room).bind hmarked ?_
  intro inner inner' hinner
  exact reads_identifier.ends hinner

theorem initializer_keeps {rules : ValueRules} [Advances rules.assignment]
    [Advances rules.initList] (hrules : S.KeepsValues rules) [S.ReadsExpressions] :
    S.Keeps (Parse.initializer rules) := by
  constructor
  intro n s t h
  have hbehind {s t : Session} (h : S.agree n s t) :
      S.Ends n (fun _ _ => S.agree n)
        ((do
          let after := (← peek).kind
          unless after.isEnd || Capture.endsInitializer after do
            fail (.unexpectedKind after)) S.left s)
        ((do
          let after := (← peek).kind
          unless after.isEnd || Capture.endsInitializer after do
            fail (.unexpectedKind after)) S.right t) := by
    rw [peek_bind, peek_bind, head_kind h]
    split
    · exact .ok h
    · exact fail_ends h _ _ rfl (by simp [Message.unexpectedKind])
  unfold Parse.initializer
  rw [peek_bind, peek_bind, head_kind h]
  generalize hkind : (S.left.head s).kind = kind
  dsimp only
  split
  · refine .bind (skip_ends h (hkind ▸ ReadsExpressions.plain rfl)) ?_
    intro _ _ assigned assigned' hassigned
    refine (assignedValue_keeps hrules).bind hassigned ?_
    intro valued valued' hvalued
    exact hbehind hvalued
  · refine (argumentList_keeps hrules true).bind h ?_
    intro listed listed' hlisted
    exact hbehind hlisted
  · exact .never (failExpected_ends h _ (by simp [Message.expectedOneOfKinds]))

theorem covered_of_keeps {rule : Parse Unit} (hrule : S.Keeps rule) (h : S.agree n s t) :
    S.Ends n (fun _ _ => S.relate .covered n) (rule S.left s) (rule S.right t) :=
  (hrule.ends h).mono fun _ _ _ _ => S.loosest

theorem then_expectEnd {rule : Parse Unit} (hrule : S.Keeps rule) :
    S.Keeps (do rule; expectEnd) :=
  ⟨fun h => hrule.bind h fun _ _ => expectEnd_keeps.ends⟩

/-- Behind a signature the nodes do not reach beyond what was read. -/
theorem entry_keeps (hlenient : S.lenient) {entry : Entry} (hentry : entry.isSignature = true)
    (room : Nat) : S.Keeps (entry.rule room) := by
  cases entry with
  | functionSignature => exact then_expectEnd (functionSignature_keeps room)
  | listFactorySignature =>
      refine then_expectEnd (.node _ ⟨?_⟩)
      intro n s t h
      refine (signature_keeps room).bind h ?_
      intro signed signed' hsigned
      exact listPattern_from room hlenient (by simp) hsigned
  | dataType ofReturn =>
      refine then_expectEnd (.node _ ⟨?_⟩)
      intro n s t h
      refine (dataType_keeps room _).bind h ?_
      intro typed typed' htyped
      split
      · exact (typeModifier_keeps false).ends htyped
      · exact .ok htyped
  | property => exact then_expectEnd (registeredProperty_keeps room)
  | _ => cases hentry

/-- Sessions that agree lead to sessions that agree, where an error is the end of the run. -/
theorem entry_halts [S.ReadsExpressions] (hlenient : S.lenient) {entry : Entry}
    (hentry : entry.recovers = false) (room : Nat) (h : S.agree n s t) :
    S.Ends n (fun _ _ => S.relate .covered n) (entry.rule room S.left s)
      (entry.rule room S.right t) := by
  by_cases hsignature : entry.isSignature = true
  · exact covered_of_keeps (entry_keeps hlenient hsignature room) h
  cases entry with
  | script => cases hentry
  | statementBlock start => cases hentry
  | expression => exact covered_of_keeps (expression_keeps (valueRules_keeps room)) h
  | initializer start => exact covered_of_keeps (initializer_keeps (valueRules_keeps room)) h
  | template => exact covered_of_keeps (then_expectEnd template_keeps) h
  | _ => exact absurd rfl hsignature

/-- Whatever a source is parsed as, sessions that agree lead to sessions that agree. -/
theorem entry_ends [S.Resumes] [S.ReadsStatements] (hlenient : S.lenient) (entry : Entry)
    (room : Nat) (h : S.agree n s t) :
    S.Ends n (fun _ _ => S.relate .covered n) (entry.rule room S.left s)
      (entry.rule room S.right t) := by
  by_cases hentry : entry.recovers = false
  · exact entry_halts hlenient hentry room h
  cases entry with
  | script =>
      refine ((script_finishes room h).ends hlenient).mono ?_
      rintro _ _ after after' (hdone | ⟨hcovered, -⟩)
      · exact S.loosest (agree_of_lenient hlenient hdone)
      · exact hcovered
  | statementBlock start => exact covered_of_keeps (block_keeps (blockRules_keeps room)) h
  | _ => exact absurd rfl hentry

end

end ScriptSyntax.Grammar.ScriptComparison
