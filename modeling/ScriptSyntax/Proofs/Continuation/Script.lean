import ScriptSyntax.Proofs.Comparison.Lockstep
import ScriptSyntax.Proofs.Parentheses

/-!
# Scripts with more text behind them

A script that is read without an error is read in the same way when more text stands behind it.
Nothing is claimed of a run in which an error is reported, so the runs need to agree only as long as
there are tokens of the first text ahead.
-/

namespace ScriptSyntax.Grammar

/-- One declaration of a script. -/
abbrev Parse.declarationStep (room : Nat) : Parse Bool :=
  scriptStep room false (namespaceDeclaration room)

/-- Where no text is left there are no more declarations. -/
theorem Parse.declarations_over {setting : Setting} {session : Session} {room count : Nat}
    (hended : setting.Ended) (hnil : session.ahead = []) :
    repeatUpTo count (declarationStep room) setting session = (.ok (), session) := by
  refine repeatUpTo_still (ScriptComparison.scriptStep_still _ _ ?_) count
  rw [endsText, hended.head_nil hnil]
  rfl

namespace Continuation

open Parse Comparison

/-! ## A group that is not closed -/

section

variable {room : Nat} {setting : Setting} {tokens : List Token} {s : Session}

/-- Behind an access modifier, if there is one. -/
def behindAccess (setting : Setting) (tokens : List Token) : List Token :=
  if (tokens.headD setting.finish).isAccessModifier then tokens.tail else tokens

theorem Unclosed.type (h : Unclosed room setting tokens) :
    ∃ rest, (typeAhead room setting).run (behindAccess setting tokens) = some ((), rest) ∧
      (rest.headD setting.finish).kind.isIdentifier = true := by
  obtain ⟨paren, rest, hrun, -⟩ := h
  unfold declaratorAhead at hrun
  rw [Scan.bind_run, Scan.skipIf_run, Option.bind_some, Scan.bind_run] at hrun
  obtain ⟨⟨⟨⟩, middle⟩, htype, hname⟩ := Option.bind_eq_some_iff.mp hrun
  refine ⟨middle, htype, ?_⟩
  rw [Scan.requireIdentifier_run] at hname
  split at hname
  · assumption
  · cases hname

theorem Unclosed.head (h : Unclosed room setting tokens) :
    (tokens.headD setting.finish).isAccessModifier = true ∨
      (tokens.headD setting.finish).kind.isTypePart = true := by
  obtain ⟨rest, htype, -⟩ := h.type
  unfold behindAccess at htype
  split at htype
  · exact .inl ‹_›
  · exact .inr (@typeAhead_head _ room _ (by rw [htype]; rfl))

/-- A name before a parenthesis is no type with a name behind it. -/
theorem constructorAhead_of_type (hended : setting.Ended) {rest : List Token}
    (htype : (typeAhead room setting).run tokens = some ((), rest))
    (hname : (rest.headD setting.finish).kind.isIdentifier = true) :
    (constructorAhead setting).run tokens = none := by
  have hpart := @typeAhead_head setting room tokens (by rw [htype]; rfl)
  have htilde : (tokens.headD setting.finish).kind ≠ .tilde := by
    intro heq
    rw [heq] at hpart
    cases hpart
  have hplain : ¬((tokens.headD setting.finish).kind.isIdentifier = true ∧
      (tokens.tail.headD setting.finish).kind = .openParen) := by
    rintro ⟨hfirst, hparen⟩
    have hended : setting.finish.kind = .endOfSource := hended
    match tokens with
    | [] => simp [hended, TokenKind.isIdentifier] at hfirst
    | [first] => simp [hended] at hparen
    | first :: second :: behind =>
        have hparen : second.kind = .openParen := hparen
        rw [typeAhead_of_constructor (by simpa [TokenKind.isIdentifier] using hfirst) hparen] at htype
        cases htype
        rw [List.headD_cons, hparen] at hname
        cases hname
  unfold constructorAhead
  rw [Scan.next_bind, Scan.peek_bind]
  have hfails : (decide ((tokens.headD setting.finish).kind = .tilde) ||
      (tokens.headD setting.finish).kind.isIdentifier &&
        decide ((tokens.tail.headD setting.finish).kind = .openParen)) = false := by
    rw [decide_eq_false htilde, Bool.false_or, ← Bool.not_eq_true, Bool.and_eq_true,
      decide_eq_true_eq]
    exact hplain
  rw [hfails]
  rfl

theorem methodAhead_of_unclosed (hended : setting.Ended) (h : Unclosed room setting tokens) :
    ((methodAhead room setting).run tokens).isSome = false := by
  obtain ⟨_, htype, hname⟩ := h.type
  obtain ⟨paren, rest, hrun, hparen, hgroup⟩ := h
  have hconstructor := constructorAhead_of_type hended htype hname
  unfold behindAccess at hconstructor
  rw [methodAhead_isSome, Scan.bind_run, Scan.skipIf_run, Option.bind_some, hconstructor,
    Option.isSome_none, Bool.false_or, Scan.bind_run, hrun, Option.bind_some]
  unfold methodMarkAhead
  rw [Scan.bind_run, Scan.require_run, List.headD_cons, if_pos hparen, Option.bind_some,
    Scan.bind_run, Scan.update_run, List.tail_cons, hgroup]
  rfl

/-- What looks like a function in a class, and has a group that is not closed, is not a member. -/
theorem classMember_faults (hended : setting.Ended) (h : Unclosed room setting s.ahead) :
    (classMember room setting s).2.faults ≠ [] := by
  have hhead {kind : TokenKind} (hkind : kind = .keyword .funcdef ∨ kind = .semicolon) :
      (setting.head s).kind ≠ kind := by
    intro heq
    have hfirst : (setting.head s).isAccessModifier = true ∨
        (setting.head s).kind.isTypePart = true := h.head
    unfold Token.isAccessModifier at hfirst
    rw [heq] at hfirst
    rcases hkind with rfl | rfl <;> simp [TokenKind.isTypePart] at hfirst
    cases hfirst
  unfold classMember
  rw [nextIs_bind]
  simp only [hhead (.inl rfl), decide_false, Bool.false_eq_true, ↓reduceIte]
  rw [sees_bind, methodAhead_of_unclosed hended h]
  simp only [Bool.false_eq_true, ↓reduceIte]
  rw [sees_bind, propertyAhead_of_unclosed h]
  simp only [Option.isSome_none, Bool.false_eq_true, ↓reduceIte]
  rw [sees_bind, variableAhead_of_unclosed h]
  simp only [Option.isSome_none, Bool.false_eq_true, ↓reduceIte]
  rw [nextIs_bind]
  simp only [hhead (.inr rfl), decide_false, Bool.false_eq_true, ↓reduceIte]
  exact expects_faults _ _ _

theorem globalMember_faults (hended : setting.Ended) (hwhole : setting.Whole)
    (hreads : setting.Reads s.ahead) (hquiet : s.faults = [])
    (h : Unclosed room setting s.ahead) : (globalMember room setting s).2.faults ≠ [] := by
  unfold globalMember
  rw [sees_bind, propertyAhead_of_unclosed h]
  simp only [Option.isSome_none, Bool.false_eq_true, ↓reduceIte]
  rw [sees_bind, variableAhead_of_unclosed h]
  simp only [Option.isSome_none, Bool.false_eq_true, ↓reduceIte]
  exact globalFunction_faults hended hwhole room hreads hquiet (firstGroup?_of_unclosed hreads h)

end

/-! ## Runs side by side -/

variable (K : Continuation) {s t : Session}

/-- The two sessions differ in what stands behind the first text, and no error is reported. -/
structure Beside (s t : Session) : Prop where
  building : t.building = s.building
  diagnostics : t.diagnostics = s.diagnostics
  quiet : s.faults = []
  ahead : t.ahead = s.ahead ++ K.more

variable {K}

theorem Beside.head (h : K.Beside s t) (hbefore : K.Before s.ahead) :
    K.right.head t = K.left.head s := by
  unfold Setting.head
  rw [h.ahead]
  exact hbefore.headD_eq

theorem Beside.noted (h : K.Beside s t) (hbefore : K.Before s.ahead) (imprint : Imprint) :
    K.Beside (K.left.noted imprint s) (K.right.noted imprint t) := by
  refine ⟨?_, h.diagnostics, h.quiet, h.ahead⟩
  change t.building.imprinted _ _ = s.building.imprinted _ _
  rw [h.building, h.head hbefore]

theorem Beside.passed (h : K.Beside s t) (hbefore : K.Before s.ahead) (imprint : Imprint) :
    K.Beside (K.left.passed imprint s) (K.right.passed imprint t) := by
  refine ⟨(h.noted hbefore imprint).building, h.diagnostics, h.quiet, ?_⟩
  change t.ahead.tail = s.ahead.tail ++ K.more
  rw [h.ahead]
  exact hbefore.tail_eq

theorem Beside.widen (h : K.Beside s t) {token other : Token} (hsame : other = token) :
    K.Beside { s with building := s.building.widen token.span }
      { t with building := t.building.widen other.span } := by
  refine ⟨?_, h.diagnostics, h.quiet, h.ahead⟩
  rw [h.building, hsame]

theorem Beside.closed {after other : Session} (h : K.Beside s t) (hafter : K.Beside after other) :
    K.Beside (s.closed after) (t.closed other) := by
  refine ⟨?_, hafter.diagnostics, hafter.quiet, hafter.ahead⟩
  unfold Session.closed
  rw [h.building, hafter.building]

/-- The brace behind the path of a namespace stands in the text. -/
theorem Beside.opening_eq (h : K.Beside s t) (hbefore : K.Before s.ahead) {brace brace' : Token}
    {rest rest' : List Token} (hopening : namespaceOpening s.ahead = brace :: rest)
    (hopening' : namespaceOpening t.ahead = brace' :: rest') : brace' = brace := by
  rw [h.ahead] at hopening'
  rcases namespaceOpening_before hbefore with ⟨hnone, -⟩ | ⟨-, hmore⟩
  · rw [hopening] at hnone
    cases hnone
  · rw [hmore, hopening, List.cons_append] at hopening'
    exact (List.cons.inj hopening').1.symm

theorem before_or_nil {tokens : List Token} (h : K.Before tokens) :
    K.Before tokens.tail ∨ tokens.tail = [] := by
  by_cases hnil : tokens.tail = []
  · exact .inr hnil
  · exact .inl (h.suffix (List.tail_suffix _) hnil)

variable (K)

def comparison : Comparison where
  left := K.left
  right := K.right
  Frame := Unit
  relate _ _ s t := K.Beside s t ∧ K.Before s.ahead
  broken _ s t := K.Beside s t ∧ K.Before s.ahead
  inside _ _ := ()
  deeper _ := ()
  abandoned _ := ()
  lost s := s.faults ≠ []
  alike := Eq
  places _ _ _ := True
  begins _ _ := True
  lenient := False
  passes kind := kind.endsDeclaration = false
  options_eq := K.options_eq
  application_eq := K.application_eq
  ended := K.ended
  alike_kind := by
    rintro token _ rfl
    rfl
  alike_text := by
    rintro token _ rfl
    rfl
  lost_reported := by
    intro session after hreported hfaults hnil
    have hlonger : session.faults <+: after.faults := hreported.filter _
    rw [hnil, List.prefix_nil] at hlonger
    exact hfaults hlonger
  lenient_or := .inr fun _ hfaults => hfaults
  loosen := id
  loosest := id
  broken_of_covered := id
  abandon := id
  abandoned_deeper _ := rfl
  head h := (h.1.head h.2).symm
  solid := by
    intro p n s t h hhead
    rw [h.1.head h.2]
    have hreads := h.2.reads
    rw [Setting.Ended.ahead_cons K.ended hhead] at hreads
    exact ⟨hreads.start_lt_stop, hreads.start_lt_stop⟩
  second := by
    intro n s t h hkind
    unfold Setting.second
    rw [h.1.ahead, h.2.tail_eq]
    exact (h.2.tail hkind).headD_eq.symm
  place _ := trivial
  place_deeper h := h
  begins_ahead _ _ := trivial
  begins_wider _ _ := trivial
  pass imprint h hkind := .inr ⟨h.1.passed h.2 imprint, h.2.tail hkind⟩
  note imprint h _ _ := ⟨h.1.noted h.2 imprint, h.2⟩
  label := by
    intro n s t h
    refine ⟨⟨?_, h.1.diagnostics, h.1.quiet, h.1.ahead⟩, h.2⟩
    unfold Setting.labelled
    rw [h.1.building, h.1.head h.2]
  greater := by
    intro n s t tokens h hgreater
    obtain ⟨hright, hnext⟩ := h.2.afterGreater?
    rw [hgreater] at hright
    refine ⟨tokens ++ K.more, by rw [h.1.ahead, hright]; rfl, .inr ⟨⟨?_, h.1.diagnostics,
      h.1.quiet, rfl⟩, hnext _ hgreater⟩⟩
    unfold Setting.shortened
    rw [h.1.building, h.1.head h.2]
  noGreater := by
    intro n s t h hgreater
    rw [h.1.ahead, h.2.afterGreater?.1, hgreater]
    rfl
  opened kind h := ⟨⟨rfl, h.1.diagnostics, h.1.quiet, h.1.ahead⟩, h.2⟩
  closed _ h _ hafter := ⟨h.1.closed hafter.1, hafter.2⟩
  abandoned_closed _ h _ hafter := ⟨h.1.closed hafter.1, hafter.2⟩
  report _ _ h := h.elim
  fuel := by
    intro p n s t h
    rw [h.1.ahead, byteCount_append]
    exact Nat.le_add_right _ _
  shorter h hpasses := h.2.reads.orderly.byteCount_lt hpasses

instance readsTypes : K.comparison.ReadsTypes where
  passes := by
    intro kind h
    refine TokenKind.endsDeclaration_eq_false.mpr ⟨?_, ?_⟩ <;>
    · rintro rfl
      cases h
  sees_scope room := by
    intro n s t h
    rw [h.1.ahead]
    exact scopeAhead_isSome_eq room h.2
  sees_templateScope room := by
    intro n s t h
    rw [h.1.ahead]
    exact (stays_templateScopeAhead room s.ahead h.2).isSome
  scopeMark := by
    intro n s t named listed room h hsees hname hlist
    have hmark := Parse.templateScope_mark K.ended h.2.reads.orderly hsees hname hlist
    change (K.left.head listed).kind.endsDeclaration = false
    rw [hmark]
    rfl

/-- The comparison of a script with the same script and more behind it. -/
def script : ScriptComparison where
  toComparison := K.comparison
  done _ s t := K.Beside s t ∧ (K.Before s.ahead ∨ s.ahead = [])
  types := K.readsTypes
  inner hsemicolon hbrace _ := TokenKind.endsDeclaration_eq_false.mpr ⟨hsemicolon, hbrace⟩
  done_of_agree h := ⟨h.1, .inl h.2⟩
  agree_of_done h hgoes := ⟨h.1, h.2.resolve_right (hgoes.resolve_left id)⟩
  there h _ := h.2.head_ne_end
  empty_iff h := by
    refine iff_of_false ?_ h.2.ne_nil
    rw [h.1.ahead]
    exact List.append_ne_nil_of_left_ne_nil h.2.ne_nil _
  finish imprint h _ := .inr ⟨h.1.passed h.2 imprint, before_or_nil h.2⟩
  done_closed h _ hafter := ⟨h.1.closed hafter.1, hafter.2⟩
  rewind _ h := h.elim
  sees_property room := by
    intro n s t h
    rw [h.1.ahead]
    exact (stays_propertyAhead room s.ahead h.2).isSome
  sees_member := by
    intro n s t room h
    by_cases hclosed : Unclosed room K.left s.ahead
    · exact .inl (classMember_faults K.ended hclosed)
    · rw [h.1.ahead]
      exact .inr ⟨methodAhead_isSome_eq room h.2 hclosed, variableAhead_isSome_eq room h.2 hclosed⟩
  sees_global := by
    intro n s t room h
    by_cases hclosed : Unclosed room K.left s.ahead
    · exact .inl (globalMember_faults K.ended K.whole h.2.reads h.1.quiet hclosed)
    · rw [h.1.ahead]
      exact .inr (variableAhead_isSome_eq room h.2 hclosed)
  opening h := by
    refine ⟨trivial, fun _ _ => trivial, ?_⟩
    rw [h.1.ahead]
    rcases namespaceOpening_before h.2 with ⟨hnone, hnone'⟩ | ⟨hopening, hopening'⟩
    · exact iff_of_true hnone' hnone
    · refine iff_of_false ?_ hopening.ne_nil
      rw [hopening']
      exact List.append_ne_nil_of_left_ne_nil hopening.ne_nil _
  back h₀ hopening hopening' _ h :=
    ⟨h.1.widen (h₀.1.opening_eq h₀.2 hopening hopening'), h.2⟩
  backBroken h₀ hopening hopening' _ h :=
    ⟨h.1.widen (h₀.1.opening_eq h₀.2 hopening hopening'), h.2⟩

/-- An error is never gone on behind, as it ends what is claimed. -/
instance : K.script.Resumes :=
  ⟨fun _ hlenient => hlenient.elim⟩

/-! ## The declarations of a script -/

variable {K}

/-- As long as there are tokens of the text ahead, its script goes on. -/
theorem declarationStep_goesOn {room : Nat} {again : Bool} {after : Session}
    (hbefore : K.Before s.ahead)
    (hrun : declarationStep room K.left s = (.ok again, after)) : again = true := by
  have hfirst := (dropWhile_before hbefore
    fun token (hrole : token.hasRole .declarationModifier = true) => by
      rw [kind_of_hasRole hrole]
      rfl).2.head_ne_end
  have hgoes : endsText false ((s.ahead.dropWhile (·.hasRole .declarationModifier)).headD
      K.left.finish) = false := by
    simpa [endsText, TokenKind.isEnd] using hfirst
  rw [declarationStep, ScriptComparison.scriptStep_run, hgoes, if_neg (by simp), bind_run] at hrun
  generalize recovering false _ K.left s = result at hrun
  obtain ⟨_ | ⟨⟩, middle⟩ := result
  · cases hrun
  · cases hrun
    rfl

/-- The rounds over the text are followed by those over what stands behind it. -/
theorem declarations_split (room : Nat) {count count' : Nat} (h : K.script.done () s t)
    (hcount : byteCount s.ahead < count) (hcount' : byteCount t.ahead < count')
    (hquiet : (repeatUpTo count (declarationStep room) K.left s).2.faults = []) :
    ∃ rounds, byteCount K.more < rounds ∧
      repeatUpTo count' (declarationStep room) K.right t =
        repeatUpTo rounds (declarationStep room) K.right
          ((repeatUpTo count (declarationStep room) K.left s).2.at K.more) := by
  induction count generalizing s t count' with
  | zero => exact absurd hcount (Nat.not_lt_zero _)
  | succ count ih =>
      obtain ⟨hbeside, hbefore | hnil⟩ := h
      case inr =>
        have hsame : t = s.at K.more := by
          obtain ⟨hbuilding, hdiagnostics, -, hahead⟩ := hbeside
          rw [hnil, List.nil_append] at hahead
          cases t
          cases hbuilding
          cases hdiagnostics
          cases hahead
          rfl
        subst hsame
        rw [Parse.declarations_over K.ended hnil]
        exact ⟨count', hcount', rfl⟩
      obtain ⟨fewer, rfl⟩ : ∃ fewer, count' = fewer + 1 := ⟨count' - 1, by omega⟩
      have hstep := ScriptComparison.scriptStep_ends (S := K.script) room false (n := ())
        (fun h => ScriptComparison.namespaceDeclaration_ends room h) ⟨hbeside, hbefore⟩
      have hfaults {value : Bool} {after : Session}
          (hrun : declarationStep room K.left s = (.ok value, after)) (hagain : value = true) :
          repeatUpTo (count + 1) (declarationStep room) K.left s =
            repeatUpTo count (declarationStep room) K.left after := by
        rw [repeatUpTo, bind_run, hrun, hagain]
        rfl
      change K.comparison.Ends _ _ (declarationStep room K.left s)
        (declarationStep room K.right t) at hstep
      generalize hresult : declarationStep room K.left s = result at hstep
      generalize hother : declarationStep room K.right t = other at hstep
      cases hstep with
      | @lost result _ after _ hlost =>
          rw [repeatUpTo, bind_run, hresult] at hquiet
          cases result with
          | error interruption => exact absurd hquiet hlost
          | ok again =>
              have hforwards : Forwards (if again then repeatUpTo count (declarationStep room)
                else return : Parse Unit) := inferInstance
              exact absurd hquiet (K.comparison.lost_reported (hforwards.reported K.left after) hlost)
      | error hlenient => exact hlenient.elim
      | @ok again again' after after' hround =>
          obtain ⟨rfl, hround⟩ := hround
          obtain rfl := declarationStep_goesOn hbefore hresult
          rw [hfaults hresult rfl] at hquiet ⊢
          have hdone : K.script.done () after after' := by
            rcases hround with hdone | ⟨hagree, -⟩
            · exact hdone
            · exact ⟨hagree.1, .inl hagree.2⟩
          have hless : byteCount after.ahead < byteCount s.ahead :=
            hbefore.reads.orderly.byteCount_lt (Rounds.passes K.left s after K.ended hresult)
          have hreads : K.right.Reads t.ahead := by
            rw [hbeside.ahead]
            exact hbefore.reads_right
          have hless' : byteCount after'.ahead < byteCount t.ahead :=
            hreads.orderly.byteCount_lt (Rounds.passes K.right t after' K.ended' hother)
          have hfewer : byteCount after'.ahead < fewer := by omega
          obtain ⟨rounds, hrounds, hsplit⟩ := ih hdone (by omega) hfewer hquiet
          refine ⟨rounds, hrounds, ?_⟩
          rw [← hsplit, repeatUpTo, bind_run, hother]
          rfl

end Continuation

end ScriptSyntax.Grammar
