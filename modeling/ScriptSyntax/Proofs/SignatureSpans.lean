import ScriptSyntax.Proofs.LastToken
import ScriptSyntax.Proofs.ReportPlaces
import ScriptSyntax.Proofs.StatementBlock
import ScriptSyntax.Proofs.TreeSpans

/-!
# What a signature covers

A signature is read up to the end of the source.  If nothing is wrong with it, its node reaches from
the first token to the last one: it covers both, and no node reaches beyond the tokens.
-/

namespace ScriptSyntax

namespace Grammar

section Between

variable {setting : Setting} {session after : Session} {tokens next : List Token} {low high : Nat}

/-- What was built so far lies between two offsets, and so does what is left to be read. -/
structure Session.Between (low high : Nat) (session : Session) : Prop where
  building : session.building.Within low high
  ahead : ∀ token ∈ session.ahead, token.span.Within low high

theorem Setting.Reads.within_step (h : setting.Reads tokens)
    (htokens : ∀ token ∈ tokens, token.span.Within low high) (hstep : setting.Step tokens next) :
    ∀ token ∈ next, token.span.Within low high := by
  have hreads := h.step hstep
  intro other hother
  cases hlast : tokens.getLast? with
  | none =>
      rw [List.getLast?_eq_none_iff.mp hlast] at hstep
      rw [Setting.eq_nil_of_leads (.single hstep)] at hother
      cases hother
  | some last =>
      obtain ⟨final, hfinal⟩ : ∃ final, next.getLast? = some final := by
        cases hnext : next.getLast? with
        | none =>
            rw [List.getLast?_eq_none_iff.mp hnext] at hother
            cases hother
        | some final => exact ⟨final, rfl⟩
      have hstop := hreads.stop_le_last hfinal hother
      rw [h.last_step hstep hlast hfinal] at hstop
      have hhigh := (htokens last (List.mem_of_getLast? hlast)).le_high
      refine ⟨?_, Nat.le_of_lt (hreads.lt_of_mem hother), Nat.le_trans hstop hhigh⟩
      rcases hstep with ⟨token, rfl⟩ | hgreater
      · exact (htokens other (List.mem_cons_of_mem _ hother)).low_le
      · obtain ⟨token, rest, rfl, -, hnext⟩ := h.of_afterGreater? hgreater
        have hlow := (htokens token List.mem_cons_self).low_le
        obtain ⟨first, behind, rfl⟩ := List.exists_cons_of_ne_nil (List.ne_nil_of_mem hother)
        obtain ⟨body, text, -, hstart, -⟩ := Source.tokensFrom_eq_cons hnext.symm
        have hle := hreads.start_le_of_head rfl hother
        omega

namespace Session.Between

theorem head (h : session.Between low high) (hne : session.ahead ≠ []) :
    (setting.head session).span.Within low high := by
  obtain ⟨token, rest, hahead⟩ := List.exists_cons_of_ne_nil hne
  rw [Setting.head_cons hahead]
  exact h.ahead token (hahead ▸ List.mem_cons_self)

theorem moved (h : session.Between low high) (hsuffix : tokens <:+ session.ahead) :
    (session.at tokens).Between low high :=
  ⟨h.building, fun token hmem => h.ahead token (hsuffix.mem hmem)⟩

theorem built (h : session.Between low high) {node : Node} (hnode : node.Within low high) :
    Between low high { session with building := node } :=
  ⟨hnode, h.ahead⟩

theorem shortened (h : session.Between low high) (hreads : setting.Reads session.ahead)
    (hgreater : setting.afterGreater? session.ahead = some tokens) :
    (setting.shortened tokens session).Between low high := by
  obtain ⟨token, rest, hahead, -, -⟩ := hreads.of_afterGreater? hgreater
  have hlt : token.span.start < token.span.stop :=
    hreads.lt_of_mem (hahead ▸ List.mem_cons_self)
  obtain ⟨hlow, -, hhigh⟩ := h.ahead token (hahead ▸ List.mem_cons_self)
  have hbyte : (Span.ofLength token.span.start 1).Within low high :=
    ⟨hlow, Nat.le_succ _, Nat.le_trans hlt hhigh⟩
  have hhead : setting.head session = token := Setting.head_cons hahead
  rw [← hhead] at hbyte
  exact ⟨h.building.widen hbyte, hreads.within_step h.ahead (.inr hgreater)⟩

end Session.Between

theorem errors_ne_nil_of_grown
    (hreported : session.diagnostics.reported <+: after.diagnostics.reported)
    (herrors : session.diagnostics.errors ≠ []) : after.diagnostics.errors ≠ [] :=
  fun hnone => herrors (List.prefix_nil.mp (hnone ▸ hreported.filter _))

/-- Nothing that was read lies elsewhere, except that a node that does not end before the next token
may cover the end of the source. -/
def Session.Bounded (low high : Nat) (p : Phase) (session : Session) : Prop :=
  session.Between low high ∨ p ≠ .settled ∧ session.ahead = []

/-- Every session of a run is bounded by the tokens, as long as no error is reported. -/
def Solo.bounded (setting : Setting) (hended : setting.Ended) (low high : Nat) : Solo where
  setting := setting
  ended := hended
  Frame := Unit
  holds p _ session := session.Bounded low high p
  rewound _ _ := False
  astray _ _ := False
  inside _ _ := ()
  within _ _ := True
  begins _ _ := True
  within_ahead _ := trivial
  within_suffix _ _ _ := trivial
  begins_ahead _ _ := trivial
  begins_suffix _ _ _ := trivial
  begins_wider _ _ := trivial
  lost session := session.diagnostics.errors ≠ []
  lost_reported := errors_ne_nil_of_grown
  loosen := by
    rintro p n s (h | ⟨hsettled, -⟩)
    · exact .inl h
    · exact absurd rfl hsettled
  loosest h := h.imp_right fun hnil => ⟨by simp, hnil.2⟩
  note := by
    intro p n s imprint hreads h hthere
    by_cases hne : s.ahead = []
    · exact .inr ⟨by cases p <;> simp [Phase.noting], hne⟩
    · obtain h := h.resolve_right fun hnil => hne hnil.2
      exact .inl (h.built (h.building.imprinted (h.head hne) imprint))
  label := by
    rintro n s hreads (h | ⟨hsettled, -⟩)
    · exact .inl (h.built (.mk h.building.spans h.building.nodes))
    · exact absurd rfl hsettled
  slot := by
    rintro n s hreads (h | ⟨hsettled, -⟩) hkind
    · refine .inl (h.built ?_)
      rw [hreads.separator_span hended hkind]
      refine h.building.widen (h.head fun hnil => ?_)
      have hend := hended.head_nil hnil
      rcases hkind with hkind | hkind <;> cases hkind.symm.trans hend
    · exact absurd rfl hsettled
  shorten := by
    rintro n s tokens hreads (h | ⟨hsettled, -⟩) hgreater
    · exact .inl (h.shortened hreads hgreater)
    · exact absurd rfl hsettled
  behind := by
    rintro n s tokens hreads h hne hsuffix
    have h := h.resolve_right fun hnil => hne hnil.2
    exact .inl (h.moved (hsuffix.trans (List.tail_suffix _)))
  onward := by
    rintro n s tokens hreads h hsuffix
    refine h.imp (fun h => h.moved hsuffix) fun hnil => ⟨hnil.1, ?_⟩
    exact List.suffix_nil.mp (hnil.2 ▸ hsuffix)
  opened := by
    rintro p n s kind hreads (h | ⟨-, hnil⟩)
    · exact .inl (h.built (.empty kind))
    · refine .inl ⟨.empty kind, fun token hmem => ?_⟩
      change token ∈ s.ahead at hmem
      rw [hnil] at hmem
      cases hmem
  closed := by
    rintro p q n s kind after hphase hreads h hadvance hafter
    rcases h with h | ⟨hp, hnil⟩
    · rcases hafter with hafter | ⟨hq, hnil⟩
      · exact .inl (hafter.built (h.building.append hafter.building))
      · exact .inr ⟨by cases p <;> cases q <;> simp_all [Phase.closing], hnil⟩
    · have hforward : setting.Leads s.ahead after.ahead := hadvance.forward
      rw [hnil] at hforward
      exact .inr ⟨by cases p <;> cases q <;> simp_all [Phase.closing],
        Setting.eq_nil_of_leads hforward⟩
  rewound_closed _ _ _ _ h := h
  astray_closed _ _ _ _ h := h
  report severity message _ hreads h := h.imp (fun h => ⟨h.building, h.ahead⟩) id
  rewind := by
    intro n s tokens construct _ _ htokens hreads h hblamed
    obtain ⟨note, hnoted, -⟩ :=
      setting.reported_reports .info (.whileParsing construct) (s.at tokens)
    exact .inl (errors_ne_nil_of_grown ⟨[note], hnoted.symm⟩ hblamed.errors_ne_nil)
  rewound_reach _ _ _ _ _ h _ := h
  astray_reach _ _ _ _ _ h _ := h
  reach := by
    rintro p n s s₀ token tokens hreads₀ (h₀ | ⟨hsettled, -⟩) hsuffix hreads h hleads
    · refine h.imp (fun h => ?_) id
      exact h.built (h.building.widen (h₀.ahead token (hsuffix.mem List.mem_cons_self)))
    · exact absurd rfl hsettled

end Between

/-! ## Up to the end -/

namespace Parse

theorem expectEnd_ok {setting : Setting} {session after : Session} {value : Unit}
    (hreads : setting.Reads session.ahead)
    (hrun : expectEnd setting session = (.ok value, after)) : after = session ∧ session.ahead = [] := by
  unfold expectEnd at hrun
  rw [peek_bind] at hrun
  split at hrun
  · rename_i hend
    cases hrun
    refine ⟨rfl, ?_⟩
    cases hahead : session.ahead with
    | nil => rfl
    | cons token rest =>
        rw [hahead] at hreads
        rw [Setting.head_cons hahead] at hend
        exact absurd (of_decide_eq_true hend) hreads.ne_end
  · cases hrun

/-- A node that is read up to the end of the source covers the first token and the last one. -/
theorem covers_of_expectEnd {kind : NodeKind} {rule : Parse Unit} [hhead : CoversHead rule]
    [hconsumes : Consumes rule] [hend : ReachesEnd rule] {setting : Setting}
    {session after : Session} {value : Unit} (hended : setting.Ended)
    (hreads : setting.Reads session.ahead)
    (hrun : (do node kind rule; expectEnd) setting session = (.ok value, after)) :
    ∃ first last child, session.ahead.head? = some first ∧ session.ahead.getLast? = some last ∧
      after.building = session.building.append child ∧ child.Covers first.span ∧
      child.ReachesTo last.span.stop := by
  obtain ⟨_, closed, hnode, hexpect⟩ := bind_ok hrun
  obtain ⟨inner, hinner, rfl⟩ := node_ok hnode
  have hpasses : setting.Passes session.ahead inner.ahead :=
    hconsumes.passes setting (session.opened kind) _ inner hended hinner
  have hbehind : setting.Reads (session.closed inner).ahead :=
    hreads.leads hpasses.to_reflTransGen
  obtain ⟨rfl, hnil⟩ := expectEnd_ok hbehind hexpect
  cases hahead : session.ahead with
  | nil =>
      rw [hahead] at hpasses
      exact absurd hpasses (setting.not_passes_nil _)
  | cons first rest =>
      have hfirst : setting.head (session.opened kind) = first := Setting.head_cons hahead
      have hlt : first.span.start < first.span.stop := by
        rw [hahead] at hreads
        exact hreads.start_lt_stop
      obtain ⟨last, hlast⟩ : ∃ last, (first :: rest).getLast? = some last :=
        ⟨_, List.getLast?_cons⟩
      refine ⟨first, last, inner.building, rfl, hlast, rfl, ?_, ?_⟩
      · rw [← hfirst] at hlt ⊢
        exact hhead.covers setting (session.opened kind) _ inner hlt hinner
      · rw [← hahead] at hlast
        exact hend.reaches setting (session.opened kind) _ inner last hended hreads hinner hnil hlast

instance (room : Nat) : CoversHead (signature room) := by
  unfold signature returnType
  infer_instance

instance (room : Nat) : Consumes (signature room) := by
  unfold signature
  infer_instance

end Parse

end Grammar

namespace Entry

open Grammar Grammar.Parse

/-- A signature is one node, whose rule covers the first token that it reads, and the last one. -/
theorem rule_of_isSignature {entry : Entry} (hentry : entry.isSignature = true) (room : Nat) :
    ∃ kind rule, entry.rule room = (do node kind rule; expectEnd) ∧
      CoversHead rule ∧ Consumes rule ∧ ReachesEnd rule := by
  cases entry with
  | functionSignature =>
      exact ⟨_, signature room, rfl, inferInstance, inferInstance, inferInstance⟩
  | listFactorySignature =>
      exact ⟨_, _, rfl, inferInstance, inferInstance, inferInstance⟩
  | dataType ofReturn =>
      exact ⟨_, _, rfl, inferInstance, inferInstance, inferInstance⟩
  | property =>
      exact ⟨_, _, rfl, inferInstance, inferInstance, inferInstance⟩
  | _ => cases hentry

theorem session_faults (entry : Entry) (options : Options) (source : Source)
    (hclean : (entry.parse options source).diagnostics.errors = []) :
    (entry.session options source).faults = [] := by
  refine faults_eq_nil hclean fun diagnostic hmem hinfo => ?_
  have hnoted : (entry.session options source).diagnostics.infos ≠ [] :=
    List.ne_nil_of_mem (List.mem_filter.mpr ⟨hmem, decide_eq_true hinfo⟩)
  exact (entry.session_placed options source).noted hnoted hclean

/-- Without an error the rule of the entry comes to its end. -/
theorem run_of_clean (entry : Entry) (options : Options) (source : Source)
    (hclean : (entry.parse options source).diagnostics.errors = []) :
    entry.rule options.maxDepth (entry.setting options source)
        ⟨source.tokensFrom entry.start, {}, .empty .undefined⟩ =
      (.ok (), entry.session options source) :=
  ok_of_quiet rfl (entry.session_faults options source hclean)

theorem root_eq {entry : Entry} {options : Options} {source : Source} {child : Node}
    (h : (entry.session options source).building = (Node.empty .undefined).append child) :
    (entry.parse options source).root = child := by
  change (entry.session options source).building.children.headD _ = child
  rw [h, Node.children_append]
  rfl

/-- The node of a signature that is parsed without an error reaches from the start of the first token
to the end of the last one. -/
theorem signature_span {entry : Entry} (hentry : entry.isSignature = true) (options : Options)
    (source : Source) (hclean : (entry.parse options source).diagnostics.errors = []) :
    ∃ first last, (source.tokensFrom 0).head? = some first ∧
      (source.tokensFrom 0).getLast? = some last ∧
      (entry.parse options source).root.span = some ⟨first.span.start, last.span.stop⟩ := by
  let setting := entry.setting options source
  have hstart : entry.start = 0 := by
    cases entry <;> first | rfl | cases hentry
  let session : Session := ⟨source.tokensFrom 0, {}, .empty .undefined⟩
  have hended : setting.Ended := rfl
  have hreads : setting.Reads session.ahead := ⟨0, rfl⟩
  have hrun := entry.run_of_clean options source hclean
  rw [hstart] at hrun
  change entry.rule options.maxDepth setting session = _ at hrun
  obtain ⟨kind, rule, hrule, hhead, hconsumes, hend⟩ :=
    rule_of_isSignature hentry options.maxDepth
  obtain ⟨first, last, child, hfirst, hlast, hbuilding, hcovers, hreaches⟩ :=
    covers_of_expectEnd hended hreads (hrule ▸ hrun)
  have hroot : (entry.parse options source).root = child := root_eq hbuilding
  have hbetween : session.Between first.span.start last.span.stop := by
    refine ⟨.empty _, fun token hmem => ⟨?_, Nat.le_of_lt (hreads.lt_of_mem hmem), ?_⟩⟩
    · exact hreads.start_le_of_head hfirst hmem
    · exact hreads.stop_le_last hlast hmem
  have hbounded := (Solo.bounded setting hended first.span.start last.span.stop).signature_holds
    hentry options.maxDepth (n := ()) hreads (.inl hbetween) hrun
  have hinside := (hbounded.resolve_left (not_not_intro hclean)).resolve_right
    fun hnoted => hnoted.1 rfl
  have hwithin : child.Within first.span.start last.span.stop := by
    refine hinside.building.nodes child ?_
    rw [hbuilding, Node.children_append]
    exact List.mem_append_right _ List.mem_cons_self
  obtain ⟨wide, hwide, hlow, -⟩ := hcovers
  obtain ⟨wide', hwide', hhigh⟩ := hreaches
  obtain rfl : wide = wide' := Option.some.inj (hwide.symm.trans hwide')
  obtain ⟨hlow', -, hhigh'⟩ := hwithin.spans wide hwide
  refine ⟨first, last, hfirst, hlast, ?_⟩
  rw [hroot, hwide, ← Nat.le_antisymm hlow hlow', ← Nat.le_antisymm hhigh' hhigh]

/-- A type between blanks, whose last token closes two lists. -/
theorem signature_span_nestedTemplate :
    let source : Source := [' ', 'A', '<', 'A', '<', 'i', 'n', 't', '>', '>', ' ']
    let outcome := (dataType false).parse { templateTypes := ["A"] } source
    outcome.diagnostics.errors = [] ∧ outcome.root.span = some ⟨1, 10⟩ ∧
      ∃ first last, (source.tokensFrom 0).head? = some first ∧
        (source.tokensFrom 0).getLast? = some last ∧
        outcome.root.span = some ⟨first.span.start, last.span.stop⟩ := by
  have hclean : ((dataType false).parse { templateTypes := ["A"] }
      [' ', 'A', '<', 'A', '<', 'i', 'n', 't', '>', '>', ' ']).diagnostics.errors = [] := by
    decide +kernel
  exact ⟨hclean, by decide +kernel, signature_span rfl _ _ hclean⟩

end Entry

end ScriptSyntax
