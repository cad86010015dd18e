import ScriptSyntax.Proofs.Continuation
import ScriptSyntax.Proofs.LastToken
import ScriptSyntax.Proofs.QuietRuns
import ScriptSyntax.Proofs.TypesAhead

/-!
# Types in front of a name

A type that ends with a text is read in the same way if a name stands behind the text: behind the
type the rule only asks for marks that no name is.
-/

namespace ScriptSyntax.Grammar

theorem TokenKind.goesOn_of_isAngle {kind : TokenKind} (h : kind.isAngle = true) :
    kind.goesOn = false := by
  unfold TokenKind.isAngle at h
  split at h
  · rfl
  · rfl
  · rename_i hassign hequal
    cases kind <;> first | rfl | cases h

/-- A text with a name behind it that starts no scope. -/
structure NameBehind extends Continuation where
  name : (toContinuation.more.headD right.finish).kind = .identifier
  unscoped : (toContinuation.more.tail.headD right.finish).kind ≠ .scope

namespace NameBehind

variable {B : NameBehind} {diagnostics : Diagnostics} {s : Session} {tokens next : List Token}

/-! ## Tokens up to the end of the text -/

theorem tokensFrom_size (B : NameBehind) :
    B.right.source.tokensFrom B.left.source.size = B.more :=
  Source.tokensFrom_of_suffix? (Source.suffix?_eq_some_iff.mpr ⟨B.left.source, B.source_eq, rfl⟩)

/-- Tokens that are read from the text up to its end.  The last one does not go on behind it. -/
structure Before (B : NameBehind) (tokens : List Token) : Prop where
  reads : B.left.Reads tokens
  last : ∀ token, tokens.getLast? = some token →
    token.kind.goesOn = false ∧ token.span.stop = B.left.source.size

namespace Before

theorem reads_right (h : B.Before tokens) : B.right.Reads (tokens ++ B.more) := by
  cases hlast : tokens.getLast? with
  | none =>
      rw [List.getLast?_eq_none_iff] at hlast
      rw [hlast, List.nil_append]
      exact ⟨_, B.tokensFrom_size.symm⟩
  | some token =>
      obtain ⟨hkind, hstop⟩ := h.last token hlast
      obtain ⟨offset, rfl⟩ := h.reads
      exact ⟨offset, (Continuation.tokensFrom_append hlast hstop hkind).symm⟩

theorem step (h : B.Before tokens) (hstep : B.left.Step tokens next) : B.Before next := by
  refine ⟨h.reads.step hstep, fun token htoken => ?_⟩
  cases hlast : tokens.getLast? with
  | none =>
      rw [List.getLast?_eq_none_iff] at hlast
      subst hlast
      cases Setting.eq_nil_of_leads (.single hstep)
      cases htoken
  | some last =>
      obtain ⟨hkind, hstop⟩ := h.last last hlast
      refine ⟨?_, (h.reads.last_step hstep hlast htoken).trans hstop⟩
      rcases hstep with ⟨first, rfl⟩ | hgreater
      · rw [List.getLast?_cons, htoken] at hlast
        cases hlast
        exact hkind
      · rcases h.reads.last_or_isAngle hgreater htoken with hsame | hangle
        · cases hlast.symm.trans hsame
          exact hkind
        · exact TokenKind.goesOn_of_isAngle hangle

theorem leads (h : B.Before tokens) (hleads : B.left.Leads tokens next) : B.Before next := by
  induction hleads with
  | refl => exact h
  | tail _ hstep ih => exact ih.step hstep

theorem suffix (h : B.Before tokens) (hsuffix : next <:+ tokens) : B.Before next :=
  h.leads (B.left.leads_of_suffix hsuffix)

theorem tail (h : B.Before tokens) : B.Before tokens.tail :=
  h.suffix (List.tail_suffix tokens)

/-- A list of arguments that is closed in the text is closed there with the name behind it. -/
theorem afterGreater? (h : B.Before tokens) (hgreater : B.left.afterGreater? tokens = some next) :
    B.right.afterGreater? (tokens ++ B.more) = some (next ++ B.more) := by
  have hnext := h.step (.inr hgreater)
  obtain ⟨token, rest, rfl, hkind, rfl⟩ := h.reads.of_afterGreater? hgreater
  have hright : B.right.Reads (token :: (rest ++ B.more)) := h.reads_right
  rw [List.cons_append, hright.afterGreater?, if_pos hkind]
  refine congrArg some ?_
  cases hlast : (B.left.source.tokensFrom (token.span.start + 1)).getLast? with
  | none =>
      rw [List.getLast?_eq_none_iff] at hlast
      rw [hlast] at hgreater
      have hsome := List.getLast?_eq_some_getLast (List.cons_ne_nil token rest)
      obtain ⟨hsingle, hstop⟩ := h.reads.eq_of_afterGreater?_nil hgreater hsome
      obtain ⟨htoken, -⟩ := List.cons.inj hsingle
      rw [← htoken] at hstop hsome
      rw [hlast, ← hstop, (h.last token hsome).2]
      exact B.tokensFrom_size
  | some last =>
      obtain ⟨hkind, hstop⟩ := hnext.last last hlast
      exact Continuation.tokensFrom_append hlast hstop hkind

end Before

/-! ## Sessions -/

/-- The session with the name behind the text, whatever was reported before. -/
def extended (B : NameBehind) (diagnostics : Diagnostics) (s : Session) : Session :=
  ⟨s.ahead ++ B.more, diagnostics, s.building⟩

theorem head_eq (h : s.ahead ≠ []) : B.right.head (B.extended diagnostics s) = B.left.head s := by
  obtain ⟨token, rest, hahead⟩ := List.exists_cons_of_ne_nil h
  unfold Setting.head extended
  rw [hahead]
  rfl

theorem head_nil (B : NameBehind) (diagnostics : Diagnostics) (h : s.ahead = []) :
    (B.right.head (B.extended diagnostics s)).kind = .identifier ∧
      (B.left.head s).kind = .endOfSource := by
  unfold Setting.head extended
  rw [h]
  exact ⟨B.name, B.ended⟩

theorem ne_nil {kind : TokenKind} (hkind : (B.left.head s).kind = kind)
    (hend : kind ≠ .endOfSource) : s.ahead ≠ [] := by
  intro hnil
  exact hend (hkind.symm.trans (B.ended.head_nil hnil))

/-- Whether a mark comes next does not depend on the name behind the text. -/
theorem headD_kind_iff {kind : TokenKind} (hname : kind ≠ .identifier) (hend : kind ≠ .endOfSource) :
    ((tokens ++ B.more).headD B.right.finish).kind = kind ↔
      (tokens.headD B.left.finish).kind = kind := by
  cases tokens with
  | nil =>
      have hleft : B.left.finish.kind = .endOfSource := B.ended
      rw [List.nil_append, B.name, List.headD_nil, hleft]
      exact ⟨fun h => absurd h.symm hname, fun h => absurd h.symm hend⟩
  | cons token rest => exact Iff.rfl

theorem head_kind_iff {kind : TokenKind} (hname : kind ≠ .identifier) (hend : kind ≠ .endOfSource) :
    (B.right.head (B.extended diagnostics s)).kind = kind ↔ (B.left.head s).kind = kind :=
  headD_kind_iff hname hend

theorem isTemplateName_eq (token : Token) :
    B.right.isTemplateName token = B.left.isTemplateName token := by
  unfold Setting.isTemplateName
  rw [B.options_eq]

theorem listsArguments_behind (name : Token) :
    B.right.listsArguments name (tokens ++ B.more) = B.left.listsArguments name tokens := by
  unfold Setting.listsArguments
  rw [isTemplateName_eq, decide_eq_decide.mpr (headD_kind_iff (by simp) (by simp))]

end NameBehind

namespace Parse

variable {α β : Type}

/-- The rule does the same with a name behind the text, if it comes to its end in the text. -/
class ReadsInFront (rule : Parse α) : Prop where
  inFront : ∀ {B : NameBehind} {s after : Session} {value : α} (diagnostics : Diagnostics),
    B.Before s.ahead → rule B.left s = (.ok value, after) →
    rule B.right (B.extended diagnostics s) = (.ok value, B.extended diagnostics after)

/-- The rule does the same with a name behind the text, if it starts in the text and comes to its
end there. -/
class PassesInFront (rule : Parse α) : Prop where
  inFront : ∀ {B : NameBehind} {s after : Session} {value : α} (diagnostics : Diagnostics),
    B.Before s.ahead → s.ahead ≠ [] → rule B.left s = (.ok value, after) →
    rule B.right (B.extended diagnostics s) = (.ok value, B.extended diagnostics after)

/-- A kind of token that is neither a name nor the end. -/
class IsMark (kind : TokenKind) : Prop where
  ne : kind ≠ .identifier ∧ kind ≠ .endOfSource

/-! ## Building blocks -/

instance : IsMark .const :=
  ⟨by decide, by decide⟩

instance : IsMark .scope :=
  ⟨by decide, by decide⟩

instance : IsMark .less :=
  ⟨by decide, by decide⟩

instance : IsMark .comma :=
  ⟨by decide, by decide⟩

instance : IsMark .closeBracket :=
  ⟨by decide, by decide⟩

instance (value : α) : ReadsInFront (pure value) := by
  constructor
  intro B s after found diagnostics _ hrun
  cases hrun
  rfl

instance (message : Message) : ReadsInFront (failExpected message : Parse α) := by
  constructor
  intro B s after found diagnostics _ hrun
  cases hrun

instance (rule : Parse α) (next : α → Parse β) [Advances rule] [hrule : ReadsInFront rule]
    [hnext : ∀ value, ReadsInFront (next value)] : ReadsInFront (rule >>= next) := by
  constructor
  intro B s after value diagnostics hreads hrun
  obtain ⟨found, middle, hmiddle, hafter⟩ := bind_ok hrun
  rw [bind_run, hrule.inFront diagnostics hreads hmiddle]
  exact (hnext found).inFront diagnostics (hreads.leads (advance_of_run hmiddle).forward) hafter

instance (rule : Parse α) (next : α → Parse β) [Advances rule] [hrule : PassesInFront rule]
    [hnext : ∀ value, ReadsInFront (next value)] : PassesInFront (rule >>= next) := by
  constructor
  intro B s after value diagnostics hreads hne hrun
  obtain ⟨found, middle, hmiddle, hafter⟩ := bind_ok hrun
  rw [bind_run, hrule.inFront diagnostics hreads hne hmiddle]
  exact (hnext found).inFront diagnostics (hreads.leads (advance_of_run hmiddle).forward) hafter

instance (kind : TokenKind) (rule other : Parse α) [hkind : IsMark kind] [hrule : PassesInFront rule]
    [hother : ReadsInFront other] : ReadsInFront (do if ← nextIs kind then rule else other) := by
  constructor
  intro B s after value diagnostics hreads hrun
  rw [nextIs_bind] at hrun ⊢
  rw [decide_eq_decide.mpr (NameBehind.head_kind_iff hkind.ne.1 hkind.ne.2)]
  split at hrun
  · rename_i hhead
    rw [if_pos hhead]
    have hne := NameBehind.ne_nil (of_decide_eq_true hhead) hkind.ne.2
    exact hrule.inFront diagnostics hreads hne hrun
  · rename_i hhead
    rw [if_neg hhead]
    exact hother.inFront diagnostics hreads hrun

theorem passesInFront_of_cons {rule : Parse α}
    (h : ∀ (B : NameBehind) (token : Token) (rest : List Token) (reports diagnostics : Diagnostics)
      (building : Node) (value : α) (after : Session),
      rule B.left ⟨token :: rest, reports, building⟩ = (.ok value, after) →
      rule B.right ⟨token :: (rest ++ B.more), diagnostics, building⟩ =
        (.ok value, B.extended diagnostics after)) : PassesInFront rule := by
  constructor
  rintro B ⟨tokens, reports, building⟩ after value diagnostics _ hne hrun
  obtain ⟨token, rest, rfl⟩ := List.exists_cons_of_ne_nil hne
  exact h B token rest reports diagnostics building value after hrun

instance : PassesInFront skip :=
  passesInFront_of_cons fun _ _ _ _ _ _ _ _ hrun => by
    cases hrun
    rfl

instance : PassesInFront next :=
  passesInFront_of_cons fun _ _ _ _ _ _ _ _ hrun => by
    cases hrun
    rfl

instance : PassesInFront cover :=
  passesInFront_of_cons fun _ _ _ _ _ _ _ _ hrun => by
    cases hrun
    rfl

instance (kind : NodeKind) : PassesInFront (leaf kind) :=
  passesInFront_of_cons fun _ _ _ _ _ _ _ _ hrun => by
    cases hrun
    rfl

instance : PassesInFront mark :=
  inferInstanceAs (PassesInFront (leaf _))

instance (kind : TokenKind) [IsMark kind] : ReadsInFront (require kind) := by
  unfold require
  infer_instance

instance (kind : TokenKind) [IsMark kind] : ReadsInFront (markIf kind) := by
  unfold markIf
  infer_instance

instance (kind : TokenKind) [IsMark kind] : ReadsInFront (coverRequired kind) := by
  rw [Comparison.coverRequired_eq]
  infer_instance

instance : ReadsInFront identifier := by
  constructor
  rintro B ⟨tokens, reports, building⟩ after value diagnostics hreads hrun
  have hname := (identifier_ok hrun).1
  have hne := NameBehind.ne_nil hname (by simp)
  obtain ⟨token, rest, rfl⟩ := List.exists_cons_of_ne_nil hne
  rw [identifier_eq (decide_eq_true hname)] at hrun
  cases hrun
  exact identifier_eq (decide_eq_true hname)

instance (body : Parse Bool) [Rounds body] [Advances body] [hbody : ReadsInFront body] :
    ReadsInFront (repeatRule body) := by
  constructor
  intro B s after value diagnostics hreads hrun
  have hrepeats : Repeats body B.left s (repeatRule body B.left s) :=
    repeatRule_repeats B.ended hreads.reads
  rw [hrun] at hrepeats
  clear hrun
  generalize hresult : (Except.ok value, after) = result at hrepeats
  induction hrepeats with
  | last hround =>
      cases hresult
      exact repeatRule_last (hbody.inFront diagnostics hreads hround)
  | broken => cases hresult
  | again hround hrest ih =>
      rw [repeatRule_again B.ended' hreads.reads_right (hbody.inFront diagnostics hreads hround)]
      exact ih (hreads.leads (advance_of_run hround).forward) hresult

/-! ## Parts of types -/

/-- The name behind the text is no part of a scope. -/
theorem namesScope_behind (B : NameBehind) (diagnostics : Diagnostics) (s : Session) :
    ((B.right.head (B.extended diagnostics s)).kind.isIdentifier &&
        decide ((B.right.second (B.extended diagnostics s)).kind = .scope)) =
      ((B.left.head s).kind.isIdentifier && decide ((B.left.second s).kind = .scope)) := by
  obtain ⟨tokens, reports, building⟩ := s
  have hended : B.left.finish.kind = .endOfSource := B.ended
  match tokens with
  | [] =>
      change (_ && decide ((B.more.tail.headD B.right.finish).kind = .scope)) =
        (B.left.finish.kind.isIdentifier && _)
      rw [decide_eq_false B.unscoped, Bool.and_false, hended]
      rfl
  | [token] =>
      change (_ && decide ((B.more.headD B.right.finish).kind = .scope)) =
        (_ && decide (B.left.finish.kind = .scope))
      rw [B.name, hended]
      rfl
  | token :: second :: rest => rfl

instance readsInFront_scopeName : ReadsInFront (do
    if (← peek).kind.isIdentifier && (← peekSecond).kind = .scope then
      identifier
      mark
      return true
    else return false) := by
  have hname : PassesInFront (do mark; return true) := inferInstance
  constructor
  intro B s after value diagnostics hreads hrun
  rw [peek_bind, peekSecond_bind] at hrun ⊢
  rw [namesScope_behind]
  split at hrun
  · rename_i hscope
    rw [if_pos hscope]
    simp only [Bool.and_eq_true, decide_eq_true_eq] at hscope
    obtain ⟨_, named, hnamed, hmark⟩ := bind_ok hrun
    rw [bind_run, ReadsInFront.inFront diagnostics hreads hnamed]
    have hahead := (identifier_ok hnamed).2
    have hne : named.ahead ≠ [] := by
      intro hnil
      rw [hahead] at hnil
      have hend : B.left.finish.kind = .endOfSource := B.ended
      unfold Setting.second at hscope
      rw [hnil, List.headD_nil, hend] at hscope
      exact absurd hscope.2 (by simp)
    exact hname.inFront diagnostics (hahead ▸ hreads.tail) hne hmark
  · rename_i hscope
    rw [if_neg hscope]
    cases hrun
    rfl

instance : ReadsInFront typeSuffix := by
  have hbracket : PassesInFront (do
      mark
      coverRequired .closeBracket
      return true) := inferInstance
  have hhandle : PassesInFront (do
      mark
      markIf .const
      return true) := inferInstance
  constructor
  intro B s after value diagnostics hreads hrun
  unfold typeSuffix at hrun ⊢
  rw [peek_bind] at hrun ⊢
  by_cases hnil : s.ahead = []
  · obtain ⟨hright, hleft⟩ := B.head_nil diagnostics hnil
    rw [hleft] at hrun
    rw [hright]
    cases hrun
    rfl
  · rw [NameBehind.head_eq hnil]
    generalize (B.left.head s).kind = kind at hrun
    split at hrun
    · exact hbracket.inFront diagnostics hreads hnil hrun
    · exact hhandle.inFront diagnostics hreads hnil hrun
    · cases hrun
      rfl

instance : ReadsInFront typeSuffixes :=
  inferInstanceAs (ReadsInFront (repeatRule typeSuffix))

theorem typeName_eq {setting : Setting} {session : Session} {forms : TypeForms}
    (h : forms.allows (setting.head session) = true) :
    typeName forms setting session = (.ok (), ⟨session.ahead.tail, session.diagnostics,
      session.building.append (.ofToken .dataType (setting.head session))⟩) := by
  have hopened : forms.allows (setting.head (session.opened .dataType)) = true := h
  unfold typeName
  rw [Comparison.node_run, peek_bind, if_pos hopened]
  rfl

theorem typeName_behind {forms other : TypeForms} {B : NameBehind} {s after : Session}
    {value : Unit} (diagnostics : Diagnostics) (hother : other.allows (B.left.head s) = true)
    (hrun : typeName forms B.left s = (.ok value, after)) :
    typeName other B.right (B.extended diagnostics s) = (.ok value, B.extended diagnostics after) := by
  have hallows := (typeName_ok hrun).1
  have hne : s.ahead ≠ [] := NameBehind.ne_nil rfl (TypeForms.kind_ne_end_of_allows hallows)
  obtain ⟨tokens, reports, building⟩ := s
  obtain ⟨token, rest, rfl⟩ := List.exists_cons_of_ne_nil hne
  rw [typeName_eq hallows] at hrun
  cases hrun
  exact typeName_eq hother

/-! ## Lists of arguments -/

section

variable {B : NameBehind} {s after : Session} {value : Unit} (diagnostics : Diagnostics)

/-- Arguments that are each read in the same way with the name behind the text. -/
theorem arguments_behind {item : Parse Unit} [Advances item]
    (hitem : ∀ {s after : Session}, B.Before s.ahead → (B.left.head after).kind ≠ .scope →
      after.building.SeenBelow → item B.left s = (.ok (), after) →
      item B.right (B.extended diagnostics s) = (.ok (), B.extended diagnostics after))
    (hreads : B.Before s.ahead) (hscope : (B.left.head after).kind ≠ .scope)
    (hbelow : after.building.SeenBelow)
    (hrun : commaSeparated item B.left s = (.ok value, after)) :
    commaSeparated item B.right (B.extended diagnostics s) =
      (.ok value, B.extended diagnostics after) := by
  have hcomma : ReadsInFront (do
      if ← nextIs .comma then
        skip
        return true
      else return false) := inferInstance
  have hround {s middle : Session} {again : Bool} (hreads : B.Before s.ahead)
      (hscope : again = true ∨ (B.left.head middle).kind ≠ .scope)
      (hbelow : middle.building.SeenBelow)
      (h : (do
        item
        if ← nextIs .comma then
          skip
          return true
        else return false) B.left s = (.ok again, middle)) :
      (do
        item
        if ← nextIs .comma then
          skip
          return true
        else return false) B.right (B.extended diagnostics s) =
          (.ok again, B.extended diagnostics middle) := by
    obtain ⟨_, first, hfirst, hend⟩ := bind_ok h
    have hfirstReads := hreads.leads (advance_of_run hfirst).forward
    have hkind : (B.left.head first).kind ≠ .scope := by
      intro hkind
      rw [nextIs_bind, hkind] at hend
      cases hend
      exact hscope.resolve_left (by simp) hkind
    rw [bind_run, hitem hreads hkind (hbelow.of_grows (advance_of_run hend).building) hfirst]
    exact hcomma.inFront diagnostics hfirstReads hend
  have hrepeats : Repeats _ B.left s (commaSeparated item B.left s) :=
    repeatRule_repeats B.ended hreads.reads
  rw [hrun] at hrepeats
  clear hrun
  generalize hresult : (Except.ok value, after) = result at hrepeats
  induction hrepeats with
  | last hlast =>
      cases hresult
      exact repeatRule_last (hround hreads (.inr hscope) hbelow hlast)
  | broken => cases hresult
  | again hagain hrest ih =>
      have hgrows := (Repeats.advance hrest).building
      subst hresult
      unfold commaSeparated
      rw [repeatRule_again B.ended' hreads.reads_right
        (hround hreads (.inl rfl) (hbelow.of_grows hgrows) hagain)]
      exact ih (hreads.leads (advance_of_run hagain).forward) rfl

theorem templateArguments_behind {argument : Parse Unit} [Advances argument]
    (hargument : ∀ {s after : Session}, B.Before s.ahead → (B.left.head after).kind ≠ .scope →
      after.building.SeenBelow → argument B.left s = (.ok (), after) →
      argument B.right (B.extended diagnostics s) = (.ok (), B.extended diagnostics after))
    (hreads : B.Before s.ahead) (hbelow : after.building.SeenBelow)
    (hrun : templateArguments argument B.left s = (.ok value, after)) :
    templateArguments argument B.right (B.extended diagnostics s) =
      (.ok value, B.extended diagnostics after) := by
  obtain ⟨_, opened, hopened, hrun⟩ := bind_ok hrun
  obtain ⟨_, listed, hlisted, hclosing⟩ := bind_ok hrun
  have hopenedReads := hreads.leads (advance_of_run hopened).forward
  have hlistedReads := hopenedReads.leads (advance_of_run hlisted).forward
  have hgrows := (advance_of_run hclosing).building
  rw [read_bind, ahead_bind] at hclosing
  cases hgreater : B.left.afterGreater? listed.ahead with
  | none =>
      rw [hgreater] at hclosing
      cases hclosing
  | some rest =>
      have hends : endsArgument (B.left.head listed).kind = true :=
        endsArgument_of_afterGreater? (by simp [hgreater])
      have hscope : (B.left.head listed).kind ≠ .scope := by
        intro hkind
        rw [hkind] at hends
        cases hends
      have hne : listed.ahead ≠ [] := by
        intro hnil
        rw [hnil] at hgreater
        cases hgreater
      have hmore : B.right.afterGreater? (B.extended diagnostics listed).ahead =
          some (rest ++ B.more) := hlistedReads.afterGreater? hgreater
      rw [hgreater] at hclosing
      cases hclosing
      unfold templateArguments
      rw [bind_run, ReadsInFront.inFront diagnostics hreads hopened]
      dsimp only
      rw [bind_run, arguments_behind diagnostics hargument hopenedReads hscope
        (hbelow.of_grows hgrows) hlisted]
      dsimp only
      rw [read_bind, ahead_bind, hmore]
      dsimp only
      rw [peek_bind, NameBehind.head_eq hne]
      rfl

/-! ## Scopes -/

theorem templateScopeAhead_isSome {setting : Setting} {room : Nat} {tokens rest : List Token}
    (hlists : setting.listsArguments (tokens.headD setting.finish) tokens.tail = true)
    (hlisted : (templateList room (tokens.headD setting.finish) setting).run tokens.tail =
      some ((), rest)) (hscope : (rest.headD setting.finish).kind = .scope) :
    ((templateScopeAhead room setting).run tokens).isSome = true := by
  rw [Look.templateScopeAhead_run hlists]
  unfold Look.scopeListAhead
  rw [Scan.bind_run, hlisted, Option.bind_some, Scan.require_run, if_pos hscope]
  rfl

/-- The lists of arguments that are seen ahead are read in the same way with the name behind the
text. -/
def ListsBehind (B : NameBehind) (room : Nat) (diagnostics : Diagnostics) : Prop :=
  ∀ {s after : Session}, B.Before s.ahead → after.building.SeenBelow →
    templateArguments (dataType room {}) B.left s = (.ok (), after) →
    templateArguments (dataType room {}) B.right (B.extended diagnostics s) =
      (.ok (), B.extended diagnostics after)

variable {room : Nat} {forms : TypeForms} {qualified inside named listing last : Session}

/-- The parts of a type in the text are read from it up to its end. -/
theorem TypeRun.before {argument : Parse Unit} [Advances argument]
    (h : TypeRun B.left room argument forms s qualified inside named listing last)
    (hreads : B.Before s.ahead) :
    B.Before qualified.ahead ∧ B.Before inside.ahead ∧ B.Before named.ahead := by
  have hopenedReads : B.Before (s.opened .dataType).ahead := hreads
  have hqualifiedReads := hopenedReads.leads (advance_of_run h.qualifier).forward
  have hinsideReads := hqualifiedReads.leads (advance_of_run h.scope).forward
  exact ⟨hqualifiedReads, hinsideReads, hinsideReads.leads (advance_of_run h.name).forward⟩

/-- A template instance that is seen to be a scope in the text is seen with the name behind it: it
is read in the text, so it is read and seen there as well. -/
theorem templateScopeAhead_extended (hlists : ListsBehind B room diagnostics)
    (h : TypeRun B.left room (dataType room {}) forms s qualified inside named listing last)
    (hreads : B.Before s.ahead) (hbelow : last.building.SeenBelow)
    (hleft : ((templateScopeAhead room B.left).run
      (skipScopes (B.left.dropKind .scope qualified.ahead))).isSome = true) :
    ((templateScopeAhead room B.right).run
      (skipScopes (B.left.dropKind .scope qualified.ahead) ++ B.more)).isSome = true := by
  obtain ⟨hqualifiedReads, -, -⟩ := h.before hreads
  have hscopedReads := hqualifiedReads.suffix
    ((skipScopes_suffix _).trans (dropKind_suffix B.left .scope qualified.ahead))
  obtain ⟨behind, hlisting, hlisted, hmark⟩ := templateScopeAhead_some hleft
  obtain ⟨start, ending, marked, hstart, harguments, hmarked, -, hinside⟩ :=
    scopeOver_template B.ended hqualifiedReads.reads hleft h.scope
  have hmem : marked.building ∈ last.building.children := by
    refine h.behindScope.children.subset ?_
    rw [hinside]
    exact Node.mem_children_append _ _
  have hending := (hbelow.child hmem).of_grows (advance_of_run hmarked).building
  generalize skipScopes (B.left.dropKind .scope qualified.ahead) = tokens at *
  have hname := (kinds_of_listsArguments hlisting).1
  obtain ⟨name, rest, rfl⟩ : ∃ name rest, tokens = name :: rest := by
    refine List.exists_cons_of_ne_nil ?_
    rintro rfl
    cases hname.symm.trans B.ended
  change start.ahead = rest at hstart
  subst hstart
  have hahead : ending.ahead = behind :=
    templateArguments_ok B.ended hscopedReads.reads.orderly.tail hlisting hlisted harguments
  have hbelow : (B.extended diagnostics ending).building.SeenBelow := hending
  have hseen := templateArguments_seen B.ended' hscopedReads.tail.reads_right
    ((NameBehind.listsArguments_behind name).trans hlisting) hbelow
    (hlists hscopedReads.tail hending harguments)
  refine templateScopeAhead_isSome ((NameBehind.listsArguments_behind name).trans hlisting)
    hseen ?_
  rw [← hahead] at hmark
  exact (NameBehind.headD_kind_iff (by simp) (by simp)).mpr hmark

/-- No template instance is seen to be a scope only because a name stands behind the text: it would
be read in the text up to the scope mark, and no type ends there. -/
theorem templateScopeAhead_within (hlists : ListsBehind B room diagnostics)
    (h : TypeRun B.left room (dataType room {}) forms s qualified inside named listing last)
    (hreads : B.Before s.ahead) (hscope : (B.left.head last).kind ≠ .scope)
    (hbelow : last.building.SeenBelow)
    (hleft : ((templateScopeAhead room B.left).run
      (skipScopes (B.left.dropKind .scope qualified.ahead))).isSome = false) :
    ((templateScopeAhead room B.right).run
      (skipScopes (B.left.dropKind .scope qualified.ahead) ++ B.more)).isSome = false := by
  obtain ⟨hqualifiedReads, hinsideReads, hnamedReads⟩ := h.before hreads
  obtain ⟨hnamed, -⟩ := h.reads_named hinsideReads.reads
  have hinside := scopeOver_ok B.ended hqualifiedReads.reads.orderly hleft h.scope
  rw [← hinside]
  refine Bool.eq_false_iff.mpr fun hright => ?_
  obtain ⟨behind, hlisting, hlisted, hmark⟩ := templateScopeAhead_some hright
  have hne : inside.ahead ≠ [] :=
    NameBehind.ne_nil rfl (TypeForms.kind_ne_end_of_allows (typeName_ok h.name).1)
  have harguments := h.arguments
  unfold Setting.head at harguments
  obtain ⟨name, rest, hcons⟩ := List.exists_cons_of_ne_nil hne
  rw [hcons] at hlisting hlisted harguments hnamed
  change named.ahead = rest at hnamed
  subst hnamed
  rw [List.headD_cons,
    if_pos ((NameBehind.listsArguments_behind name).symm.trans hlisting)] at harguments
  have hread := hlists hnamedReads
    (hbelow.of_grows (advance_of_run h.suffixes).building) harguments
  have hahead : listing.ahead ++ B.more = behind :=
    templateArguments_ok B.ended' hnamedReads.reads_right.orderly hlisting hlisted hread
  rw [← hahead] at hmark
  have hkind : (B.left.head listing).kind = .scope :=
    (NameBehind.headD_kind_iff (by simp) (by simp)).mp hmark
  cases typeSuffixes_still hkind (by simp) (by simp) h.suffixes
  exact hscope hkind

/-- A template instance is seen to be a scope in the text whatever stands behind it. -/
theorem templateScopeAhead_behind (hlists : ListsBehind B room diagnostics)
    (h : TypeRun B.left room (dataType room {}) forms s qualified inside named listing last)
    (hreads : B.Before s.ahead) (hscope : (B.left.head last).kind ≠ .scope)
    (hbelow : last.building.SeenBelow) :
    ((templateScopeAhead room B.right).run
        (skipScopes (B.left.dropKind .scope qualified.ahead) ++ B.more)).isSome =
      ((templateScopeAhead room B.left).run
        (skipScopes (B.left.dropKind .scope qualified.ahead))).isSome := by
  cases hleft : ((templateScopeAhead room B.left).run
      (skipScopes (B.left.dropKind .scope qualified.ahead))).isSome with
  | true => exact templateScopeAhead_extended diagnostics hlists h hreads hbelow hleft
  | false => exact templateScopeAhead_within diagnostics hlists h hreads hscope hbelow hleft

/-- Whether a scope comes first does not depend on the name behind the text. -/
theorem scopeAhead_behind {tokens : List Token}
    (hinstance : ((templateScopeAhead room B.right).run
        (skipScopes (B.left.dropKind .scope tokens) ++ B.more)).isSome =
      ((templateScopeAhead room B.left).run
        (skipScopes (B.left.dropKind .scope tokens))).isSome) :
    ((scopeAhead room B.right).run (tokens ++ B.more)).isSome =
      ((scopeAhead room B.left).run tokens).isSome := by
  have hname := namesScope_behind B {} ⟨tokens, {}, .empty .undefined⟩
  change (decide (((tokens ++ B.more).headD B.right.finish).kind = .identifier) &&
    decide (((tokens ++ B.more).tail.headD B.right.finish).kind = .scope)) =
      (decide ((tokens.headD B.left.finish).kind = .identifier) &&
        decide ((tokens.tail.headD B.left.finish).kind = .scope)) at hname
  rw [scopeAhead_isSome, scopeAhead_isSome, hname,
    decide_eq_decide.mpr (NameBehind.headD_kind_iff (by simp) (by simp))]
  by_cases hmark : (tokens.headD B.left.finish).kind = .scope
  · simp only [hmark, decide_true, Bool.true_or]
  by_cases hscope : (tokens.headD B.left.finish).kind = .identifier ∧
      (tokens.tail.headD B.left.finish).kind = .scope
  · simp only [hscope, decide_true, Bool.and_true, Bool.or_true, Bool.true_or]
  rw [show B.left.dropKind .scope tokens = tokens from if_neg hmark, skipScopes_other hscope]
    at hinstance
  rw [hinstance]

/-- A template instance that is seen to be a scope is read in the same way with the name behind the
text. -/
theorem scopeInstance_behind (hlists : ListsBehind B room diagnostics) (hreads : B.Before s.ahead)
    (hfound : ((templateScopeAhead room B.left).run s.ahead).isSome = true)
    (hbelow : after.building.SeenBelow)
    (hrun : (do
      identifier
      templateArguments (dataType room {})
      mark : Parse Unit) B.left s = (.ok value, after)) :
    (do
      identifier
      templateArguments (dataType room {})
      mark : Parse Unit) B.right (B.extended diagnostics s) =
        (.ok value, B.extended diagnostics after) := by
  obtain ⟨_, start, hstart, hrun⟩ := bind_ok hrun
  obtain ⟨_, ending, hending, hmark⟩ := bind_ok hrun
  have hstartReads := hreads.leads (advance_of_run hstart).forward
  have hendingReads := hstartReads.leads (advance_of_run hending).forward
  have hscope : (B.left.head ending).kind = .scope :=
    templateScope_mark B.ended hreads.reads.orderly hfound hstart hending
  have hne : ending.ahead ≠ [] := NameBehind.ne_nil hscope (by simp)
  rw [bind_run, ReadsInFront.inFront diagnostics hreads hstart]
  dsimp only
  rw [bind_run, hlists hstartReads (hbelow.of_grows (advance_of_run hmark).building) hending]
  exact PassesInFront.inFront diagnostics hendingReads hne hmark

/-- A scope in front of a name is read in the same way with another name behind the text. -/
theorem scopeOver_behind (hlists : ListsBehind B room diagnostics)
    (h : TypeRun B.left room (dataType room {}) forms s qualified inside named listing last)
    (hreads : B.Before s.ahead) (hscope : (B.left.head last).kind ≠ .scope)
    (hbelow : last.building.SeenBelow) :
    scopeOver room (dataType room {}) B.right (B.extended diagnostics qualified) =
      (.ok (), B.extended diagnostics inside) := by
  have hinstance := templateScopeAhead_behind diagnostics hlists h hreads hscope hbelow
  obtain ⟨hqualifiedReads, -, -⟩ := h.before hreads
  have hrun := h.scope
  have hgrows := h.behindScope
  unfold scopeOver at hrun ⊢
  rw [sees_bind] at hrun ⊢
  change (if ((scopeAhead room B.right).run (qualified.ahead ++ B.more)).isSome = true then _
    else _ : Parse Unit) _ _ = _
  rw [scopeAhead_behind hinstance]
  split at hrun
  · rename_i hseen
    rw [if_pos hseen]
    obtain ⟨inner, hinner, rfl⟩ := node_ok hrun
    have hmem : inner.building ∈ last.building.children :=
      hgrows.children.subset (Node.mem_children_append _ _)
    have hinside := hbelow.child hmem
    refine node_of_ok (show _ = (Except.ok (), B.extended diagnostics inner) from ?_)
    rw [show { (B.extended diagnostics qualified) with building := .empty .scope } =
      B.extended diagnostics (qualified.opened .scope) from rfl]
    obtain ⟨_, marked, hmarked, hinner⟩ := bind_ok hinner
    obtain ⟨_, looped, hlooped, hinner⟩ := bind_ok hinner
    have hmark := markIf_ok hmarked
    change marked.ahead = B.left.dropKind .scope qualified.ahead at hmark
    have hmarkedReads : B.Before marked.ahead :=
      hmark ▸ hqualifiedReads.suffix (dropKind_suffix B.left .scope qualified.ahead)
    have hloop := scopeNames_ok B.ended hmarkedReads.reads.orderly hlooped
    have hloopedReads := hmarkedReads.leads (advance_of_run hlooped).forward
    rw [hmark] at hloop
    rw [bind_run, ReadsInFront.inFront (s := qualified.opened .scope) diagnostics hqualifiedReads
      hmarked]
    dsimp only
    rw [bind_run, ReadsInFront.inFront diagnostics hmarkedReads hlooped]
    dsimp only
    rw [sees_bind] at hinner ⊢
    change (if ((templateScopeAhead room B.right).run (looped.ahead ++ B.more)).isSome = true
      then _ else _ : Parse Unit) _ _ = _
    rw [hloop, hinstance]
    rw [hloop] at hinner
    split at hinner
    · rename_i hfound
      rw [if_pos hfound]
      exact scopeInstance_behind diagnostics hlists hloopedReads (hloop ▸ hfound) hinside hinner
    · rename_i hfound
      rw [if_neg hfound]
      cases hinner
      rfl
  · rename_i hseen
    rw [if_neg hseen]
    cases hrun
    rfl

/-! ## Types -/

namespace TypeRun

theorem behind {other : TypeForms} (hlists : ListsBehind B room diagnostics)
    (h : TypeRun B.left room (dataType room {}) forms s qualified inside named listing last)
    (hreads : B.Before s.ahead) (hscope : (B.left.head last).kind ≠ .scope)
    (hbelow : last.building.SeenBelow) (hname : other.allows (B.left.head inside) = true) :
    TypeRun B.right room (dataType room {}) other (B.extended diagnostics s)
      (B.extended diagnostics qualified) (B.extended diagnostics inside) (B.extended diagnostics named)
      (B.extended diagnostics listing) (B.extended diagnostics last) := by
  obtain ⟨-, -, hnamedReads⟩ := h.before hreads
  have hne : inside.ahead ≠ [] :=
    NameBehind.ne_nil rfl (TypeForms.kind_ne_end_of_allows (typeName_ok h.name).1)
  refine ⟨?_, scopeOver_behind diagnostics hlists h hreads hscope hbelow,
    typeName_behind diagnostics hname h.name, ?_, ?_⟩
  · exact ReadsInFront.inFront (s := s.opened .dataType) diagnostics hreads h.qualifier
  · have harguments := h.arguments
    change if B.right.listsArguments _ (named.ahead ++ B.more) = true then _ else _
    rw [NameBehind.head_eq hne, NameBehind.listsArguments_behind]
    split at harguments
    · rename_i hlisting
      rw [if_pos hlisting]
      exact hlists hnamedReads (hbelow.of_grows (advance_of_run h.suffixes).building) harguments
    · rename_i hlisting
      rw [if_neg hlisting, harguments]
  · exact ReadsInFront.inFront diagnostics (hnamedReads.leads h.listed.forward) h.suffixes

end TypeRun

theorem typeBody_behind {other : TypeForms} (hlists : ListsBehind B room diagnostics)
    (hconst : forms.const = true) (hconst' : other.const = true)
    (hname : ∀ {tokens : List Token}, B.left.Leads s.ahead tokens →
      forms.allows (tokens.headD B.left.finish) = true →
      other.allows (tokens.headD B.left.finish) = true)
    (hreads : B.Before s.ahead) (hscope : (B.left.head after).kind ≠ .scope)
    (hbelow : ∀ type, after.building = s.building.append type → type.SeenBelow)
    (hrun : typeBody room (dataType room {}) forms B.left s = (.ok value, after)) :
    typeBody room (dataType room {}) other B.right (B.extended diagnostics s) =
      (.ok value, B.extended diagnostics after) := by
  obtain ⟨qualified, inside, named, listing, last, hparts, rfl⟩ := exists_typeRun hconst hrun
  obtain ⟨hqualified, -⟩ := hparts.reads_qualified hreads.reads
  have hleads : B.left.Leads s.ahead inside.ahead :=
    (hqualified ▸ B.left.leads_of_suffix (dropKind_suffix _ _ _)).trans
      (advance_of_run hparts.scope).forward
  have hbehind := hparts.behind diagnostics hlists hreads hscope (hbelow _ rfl)
    (hname hleads (typeName_ok hparts.name).1)
  exact hbehind.run hconst'

theorem listsBehind (B : NameBehind) (room : Nat) (diagnostics : Diagnostics) :
    ListsBehind B room diagnostics := by
  induction room with
  | zero =>
      intro s after hreads hbelow hrun
      exact absurd (templateArguments_first hrun).1 (Nat.lt_irrefl 0)
  | succ room ih =>
      intro s after hreads hbelow hrun
      refine templateArguments_behind diagnostics ?_ hreads hbelow hrun
      intro s after hreads hscope hbelow hrun
      have hbody : typeBody room (dataType room {}) {} B.left s = (.ok (), after) := hrun
      refine typeBody_behind diagnostics ih rfl rfl (fun _ => id) hreads hscope ?_ hbody
      intro type htype
      exact hbelow.child (htype ▸ Node.mem_children_append _ _)

/-- A type that ends with a text is read in the same way with a name behind the text. -/
theorem dataType_behind {other : TypeForms} (hconst : forms.const = true)
    (hconst' : other.const = true)
    (hname : ∀ {tokens : List Token}, B.left.Leads s.ahead tokens →
      forms.allows (tokens.headD B.left.finish) = true →
      other.allows (tokens.headD B.left.finish) = true)
    (hreads : B.Before s.ahead) (hscope : (B.left.head after).kind ≠ .scope)
    (hbelow : ∀ type, after.building = s.building.append type → type.SeenBelow)
    (hrun : dataType room forms B.left s = (.ok value, after)) :
    dataType room other B.right (B.extended diagnostics s) =
      (.ok value, B.extended diagnostics after) := by
  obtain ⟨room, rfl, hbody⟩ := dataType_succ_of_ok hrun
  exact typeBody_behind diagnostics (listsBehind B room diagnostics) hconst hconst' hname hreads
    hscope hbelow hbody

end

end Parse

end ScriptSyntax.Grammar
