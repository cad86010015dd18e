import ScriptSyntax.Proofs.Comparison.Statement
import ScriptSyntax.Proofs.Reading

/-!
# Invariants of one run

An invariant is a comparison of a run with itself.  It speaks of tokens that are read from the
source, so what a scan passes is read the same way.
-/

namespace ScriptSyntax.Grammar

/-- What holds of one session where so many brackets are open. -/
structure Invariant where
  setting : Setting
  holds : Nat → Session → Prop
  /-- Nothing is claimed of a session in which an error is reported. -/
  strict : Prop
  passes : TokenKind → Prop
  ended : setting.Ended
  whole : setting.Whole
  reads : ∀ {n s}, holds n s → setting.Reads s.ahead
  pass : ∀ {n s} (imprint : Imprint), holds n s → passes (setting.head s).kind →
    holds n (setting.passed imprint s)
  note : ∀ {n s} (imprint : Imprint), holds n s →
    ¬strict ∨ passes (setting.head s).kind ∧ (setting.head s).kind ≠ .comma ∧
      (setting.head s).kind.startsWithGreater = false →
    holds n (setting.noted imprint s)
  label : ∀ {n s}, holds n s → holds n (setting.labelled s)
  greater : ∀ {n s tokens}, holds n s → setting.afterGreater? s.ahead = some tokens →
    holds n (setting.shortened tokens s)
  opened : ∀ {n s} (kind : NodeKind), holds n s → holds n (s.opened kind)
  closed : ∀ {n s kind after}, holds n s → Advance setting (s.opened kind) after →
    holds n after → holds n (s.closed after)
  report : ∀ {n s} (message : Message), ¬strict → holds n s →
    (message = .unexpectedEndOfFile → (setting.head s).kind = .endOfSource) →
    holds n (setting.reports .error message s)

namespace Invariant

variable (I : Invariant)

/-- The invariant holds, and no error is reported where that is asked for. -/
def Sound (n : Nat) (session : Session) : Prop :=
  I.holds n session ∧ (I.strict → session.faults = [])

def comparison : Comparison where
  left := I.setting
  right := I.setting
  Frame := Nat
  relate _ n s t := t = s ∧ I.Sound n s
  broken n s t := t = s ∧ I.Sound n s
  inside n _ := n
  deeper n := n + 1
  abandoned := id
  lost s := I.strict ∧ s.faults ≠ []
  alike token other := other = token
  places _ _ _ := True
  begins _ _ := True
  lenient := ¬I.strict
  passes := I.passes
  options_eq := rfl
  application_eq := rfl
  ended := I.ended
  alike_kind := by
    rintro token _ rfl
    rfl
  alike_text := by
    rintro token _ rfl
    rfl
  lost_reported := by
    rintro session after hreported ⟨hstrict, hfaults⟩
    refine ⟨hstrict, fun hnil => hfaults ?_⟩
    have hlonger : session.faults <+: after.faults := hreported.filter _
    rwa [hnil, List.prefix_nil] at hlonger
  lenient_or := by
    by_cases hstrict : I.strict
    · exact .inr fun session hfaults => ⟨hstrict, hfaults⟩
    · exact .inl hstrict
  loosen := id
  loosest := id
  broken_of_covered := id
  abandon := id
  abandoned_deeper _ := rfl
  head := by
    rintro p n s _ ⟨rfl, -⟩
    rfl
  solid := by
    rintro p n s _ ⟨rfl, hholds, -⟩ hhead
    have hreads := I.reads hholds
    rw [Setting.Ended.ahead_cons I.ended hhead] at hreads
    exact ⟨hreads.start_lt_stop, hreads.start_lt_stop⟩
  second := by
    rintro n s _ ⟨rfl, -⟩ -
    rfl
  place _ := trivial
  place_deeper h := h
  begins_ahead _ _ := trivial
  begins_wider _ _ := trivial
  pass := by
    rintro p n s _ imprint ⟨rfl, hholds, hquiet⟩ hkind
    exact .inr ⟨rfl, I.pass imprint hholds hkind, hquiet⟩
  note := by
    rintro p n s _ imprint ⟨rfl, hholds, hquiet⟩ hkind -
    exact ⟨rfl, I.note imprint hholds hkind, hquiet⟩
  label := by
    rintro n s _ ⟨rfl, hholds, hquiet⟩
    exact ⟨rfl, I.label hholds, hquiet⟩
  greater := by
    rintro n s _ tokens ⟨rfl, hholds, hquiet⟩ hgreater
    exact ⟨tokens, hgreater, .inr ⟨rfl, I.greater hholds hgreater, hquiet⟩⟩
  noGreater := by
    rintro n s _ ⟨rfl, -⟩ hgreater
    exact hgreater
  opened := by
    rintro p n s _ kind ⟨rfl, hholds, hquiet⟩
    exact ⟨rfl, I.opened kind hholds, hquiet⟩
  closed := by
    rintro p q n s _ kind after _ - ⟨rfl, hholds, -⟩ hadvance ⟨rfl, hafter, hquiet⟩
    exact ⟨rfl, I.closed hholds hadvance hafter, hquiet⟩
  abandoned_closed := by
    rintro p n s _ kind after _ - ⟨rfl, hholds, -⟩ hadvance ⟨rfl, hafter, hquiet⟩
    exact ⟨rfl, I.closed hholds hadvance hafter, hquiet⟩
  report := by
    rintro p n s _ message message' hlenient ⟨rfl, hholds, -⟩ htext hmessage
    refine ⟨?_, I.report message hlenient hholds hmessage, fun hstrict => absurd hstrict hlenient⟩
    unfold Setting.reports Parse.reported
    rw [htext]
  fuel := by
    rintro p n s _ ⟨rfl, -⟩
    exact Nat.le_refl _
  shorter := by
    rintro p n s _ tokens ⟨-, hholds, -⟩ hpasses
    exact ((I.reads hholds).orderly).byteCount_lt hpasses

variable {I}

theorem seesAlike (scan : Scan Unit) : I.comparison.SeesAlike scan := by
  rintro n s _ ⟨rfl, -⟩
  rfl

theorem readsTypes (hpasses : ∀ {kind : TokenKind}, kind.isTypePart = true → I.passes kind) :
    I.comparison.ReadsTypes where
  passes := hpasses
  sees_scope _ := seesAlike _
  sees_templateScope _ := seesAlike _
  scopeMark := by
    rintro n s _ named listed room ⟨-, hholds, -⟩ hsees hname hlist
    have horderly := (I.reads hholds).orderly
    have hmark := Parse.templateScope_mark I.ended horderly hsees hname hlist
    change I.passes (I.setting.head listed).kind
    rw [hmark]
    exact hpasses rfl

open Parse Comparison in
/-- A block is captured like any text in braces that is passed, if its capture is complete. -/
theorem capturedBlock_keeps
    (henter : ∀ {n s}, I.holds n s → (I.setting.head s).kind = .openBrace →
      I.holds (n + 1) (I.setting.passed .span s))
    (hcomplete : ∀ {n s block}, I.holds (n + 1) s →
      block = Capture.group .openBrace .closeBrace 0 s.ahead → block.ending = .complete →
      I.holds n (captured block s))
    (hbroken : ∀ {n s block}, ¬I.strict → I.holds (n + 1) s →
      block = Capture.group .openBrace .closeBrace 0 s.ahead → block.ending ≠ .complete →
      block.ending = .fault .unterminatedString ∧
        I.holds n (I.setting.reports .error .unterminatedString (captured block
          { s with building := s.building.widen (block.rest.headD I.setting.finish).span }))) :
    I.comparison.Keeps capturedBlock := by
  apply Keeps.node
  constructor
  intro n s t h
  rw [ahead_bind, ahead_bind, coverRequired_eq]
  refine Ends.bind (Q := fun _ _ => I.comparison.agree (I.comparison.deeper n)) ?_ ?_
  · apply ifNext_ends h
    · intro hhead
      obtain ⟨rfl, hholds, hquiet⟩ := h
      exact .ok ⟨rfl, henter hholds hhead, hquiet⟩
    · intro hhead
      exact failExpected_ends h _ (by simp [Message.expectedKind])
  rintro _ _ _ after ⟨rfl, hholds, hquiet⟩
  rw [ahead_bind, ahead_bind]
  generalize hblock : Capture.group .openBrace .closeBrace 0 after.ahead = block
  by_cases hending : block.ending = .complete
  · simp only [hending, ↓reduceIte]
    rw [capture_run, capture_run, hending]
    have hagree : I.comparison.agree n (captured block after) (captured block after) :=
      ⟨rfl, hcomplete hholds hblock.symm hending, hquiet⟩
    exact .ok hagree
  · simp only [hending, ↓reduceIte]
    rw [read_bind, read_bind, widen_bind, widen_bind]
    by_cases hstrict : I.strict
    · refine .of_faults (not_not_intro hstrict) (s := after) ?_
      exact capture_faulty hending .statementBlock s.ahead I.setting
        { after with building := after.building.widen (block.rest.headD I.setting.finish).span }
    · obtain ⟨hfault, hreported⟩ := hbroken hstrict hholds hblock.symm hending
      rw [capture_run, capture_run, hfault]
      have hagree : I.comparison.agree n _ _ :=
        ⟨rfl, hreported, fun h => absurd h hstrict⟩
      exact .error hstrict hagree

end Invariant

/-- An invariant that every rule for expressions keeps. -/
structure ValueInvariant extends Invariant where
  plain : ∀ {kind : TokenKind}, kind.isPlain = true → passes kind
  enter : ∀ {n s} (imprint : Imprint), holds n s → (setting.head s).kind = .openBrace →
    holds (n + 1) (setting.passed imprint s)
  leave : ∀ {n s} (imprint : Imprint), holds (n + 1) s → (setting.head s).kind = .closeBrace →
    holds n (setting.passed imprint s)
  weaken : ∀ {n s}, ¬strict → holds (n + 1) s → holds n s
  slot : ∀ {n s}, holds (n + 1) s →
    (setting.head s).kind = .comma ∨ (setting.head s).kind = .closeBrace →
    holds (n + 1) (Comparison.slotted setting s)
  warn : ∀ {n s}, holds n s → holds n (setting.reports .warning .oldNamedArgument s)
  capturedBlock : toInvariant.comparison.Keeps Parse.capturedBlock

namespace ValueInvariant

theorem isPlain_of_isTypePart {kind : TokenKind} (h : kind.isTypePart = true) :
    kind.isPlain = true := by
  cases kind with
  | punctuation mark => cases mark <;> simp_all [TokenKind.isTypePart, TokenKind.isPlain]
  | _ => simp_all [TokenKind.isTypePart, TokenKind.isPlain]

theorem faults_warned (setting : Setting) (message : Message) (session : Session) :
    (setting.reports .warning message session).faults = session.faults := by
  simp [Session.faults, Setting.reports, Parse.reported, Diagnostics.push]

instance readsExpressions (I : ValueInvariant) : I.comparison.ReadsExpressions where
  toReadsTypes := Invariant.readsTypes fun h => I.plain (isPlain_of_isTypePart h)
  plain := I.plain
  enter := by
    rintro n s _ imprint ⟨rfl, hholds, hquiet⟩ hhead
    exact .inr ⟨rfl, I.enter imprint hholds hhead, hquiet⟩
  leave := by
    rintro p n s _ imprint ⟨rfl, hholds, hquiet⟩ hhead
    exact .inr ⟨rfl, I.leave imprint hholds hhead, hquiet⟩
  second := by
    rintro n s _ ⟨rfl, -⟩
    rfl
  weaken := by
    rintro n s _ hlenient ⟨rfl, hholds, hquiet⟩
    exact ⟨rfl, I.weaken hlenient hholds, hquiet⟩
  slot := by
    rintro n r s _ ⟨rfl, hholds, hquiet⟩ hhead
    exact ⟨rfl, I.slot hholds hhead, hquiet⟩
  warn := by
    rintro n s _ ⟨rfl, hholds, hquiet⟩
    refine ⟨rfl, I.warn hholds, fun hstrict => ?_⟩
    rw [show I.comparison.left = I.setting from rfl, faults_warned]
    exact hquiet hstrict
  sees_typedList _ := Invariant.seesAlike _
  sees_lambda := Invariant.seesAlike _
  sees_construction := Invariant.seesAlike _
  sees_call := Invariant.seesAlike _
  behindType := by
    rintro n s _ room ⟨rfl, -⟩
    rfl
  typedListMark := by
    rintro n s _ after room ⟨-, hholds, -⟩ hsees htype
    have horderly := (I.reads hholds).orderly
    have hmark := Parse.typedList_mark I.ended horderly hsees htype
    change I.passes (I.setting.head after).kind
    rw [hmark]
    exact I.plain rfl
  capturedBlock := I.capturedBlock

end ValueInvariant

/-- An invariant that every rule for statements keeps. -/
structure StatementInvariant extends ValueInvariant where
  semicolon : passes .semicolon
  stop : ∀ {n s}, ¬strict → holds n s → nextStop true s.ahead ≠ []
  resume : ∀ {n s}, ¬strict → holds n s → holds n { s with ahead := Grammar.resume true s.ahead }

instance StatementInvariant.readsStatements (I : StatementInvariant) :
    I.comparison.ReadsStatements where
  semicolon := I.semicolon
  sees_variable _ := Invariant.seesAlike _
  stop := by
    rintro n s _ hlenient ⟨rfl, -⟩
    rfl
  resume := by
    rintro p n s _ s₀ t₀ hlenient - ⟨rfl, hholds, hquiet⟩ -
    exact .inl ⟨rfl, I.resume hlenient hholds, hquiet⟩
  exhausted := by
    rintro p n s _ s₀ t₀ tokens others hlenient - - - ⟨-, hholds, -⟩ hnone
    exact absurd hnone (I.stop hlenient hholds)

end ScriptSyntax.Grammar
