import ScriptSyntax.Proofs.Comparison.Solo

/-!
# Spans of trees

Whatever is parsed, and whatever is wrong with it: a span of a tree covers some text, from one
character's start to another's, and the spans of everything below it lie in it.
-/

namespace ScriptSyntax

/-! ## Spans of a source -/

/-- The offset lies between two characters, or at an end of the source. -/
def Source.IsBoundary (source : Source) (offset : Nat) : Prop :=
  (source.suffix? offset).isSome = true

/-- The ends of the span lie between characters, in order. -/
structure Source.Delimits (source : Source) (span : Span) : Prop where
  start : source.IsBoundary span.start
  stop : source.IsBoundary span.stop
  ordered : span.start ≤ span.stop

def Span.Contains (outer inner : Span) : Prop :=
  outer.start ≤ inner.start ∧ inner.stop ≤ outer.stop

namespace Source

variable {source : Source} {offset : Nat} {first second : Span}

theorem isBoundary_of_suffix? {rest : Source} (h : source.suffix? offset = some rest) :
    source.IsBoundary offset := by
  unfold IsBoundary
  rw [h]
  rfl

theorem isBoundary_size (source : Source) : source.IsBoundary (size source) :=
  isBoundary_of_suffix? (suffix?_eq_some_iff.mpr ⟨source, (List.append_nil _).symm, rfl⟩)

theorem IsBoundary.le_size (h : source.IsBoundary offset) : offset ≤ size source := by
  obtain ⟨rest, hrest⟩ := Option.isSome_iff_exists.mp h
  exact suffix?_le_size hrest

theorem Delimits.hull (hfirst : source.Delimits first) (hsecond : source.Delimits second) :
    source.Delimits (first.hull second) := by
  refine ⟨?_, ?_, ?_⟩
  · change source.IsBoundary (min first.start second.start)
    rcases Nat.le_total first.start second.start with hle | hle
    · rw [Nat.min_eq_left hle]
      exact hfirst.start
    · rw [Nat.min_eq_right hle]
      exact hsecond.start
  · change source.IsBoundary (max first.stop second.stop)
    rcases Nat.le_total first.stop second.stop with hle | hle
    · rw [Nat.max_eq_right hle]
      exact hsecond.stop
    · rw [Nat.max_eq_left hle]
      exact hfirst.stop
  · exact Nat.le_trans (Nat.min_le_left _ _) (Nat.le_trans hfirst.ordered (Nat.le_max_left _ _))

theorem Holds.delimits {token : Token} {body after : Source} (h : Holds source token body after) :
    source.Delimits token.span :=
  ⟨isBoundary_of_suffix? h.found, isBoundary_of_suffix? h.found_after, Nat.le_of_lt h.start_lt_stop⟩

end Source

/-! ## Trees -/

namespace Node

mutual

theorem outline_map (depth depth' : Nat) :
    ∀ node : Node, (node.outline depth).map (·.2) = (node.outline depth').map (·.2)
  | ⟨_, _, _, children⟩ => by
      simp only [outline, List.map_cons, outlines_map (depth + 1) (depth' + 1) children]

theorem outlines_map (depth depth' : Nat) :
    ∀ nodes : List Node, (outlines depth nodes).map (·.2) = (outlines depth' nodes).map (·.2)
  | [] => rfl
  | node :: rest => by
      simp only [outlines, List.map_append, outline_map depth depth' node,
        outlines_map depth depth' rest]

end

theorem outlines_map_eq (depth : Nat) (nodes : List Node) :
    (outlines depth nodes).map (·.2) = nodes.flatMap descendants := by
  induction nodes with
  | nil => rfl
  | cons node rest ih =>
      rw [outlines, List.map_append, ih, List.flatMap_cons, outline_map depth 0 node]
      rfl

theorem descendants_eq (node : Node) :
    node.descendants = node :: node.children.flatMap descendants := by
  obtain ⟨kind, token, span, children⟩ := node
  unfold descendants
  rw [outline, List.map_cons, outlines_map_eq]
  rfl

/-- Every span in the tree covers some text of the source, and those below it. -/
inductive WellSpanned (source : Source) : Node → Prop
  | mk {node : Node}
      (bounds : ∀ span, node.span = some span → source.Delimits span ∧ span.start < span.stop)
      (nested : ∀ child ∈ node.children, ∀ span, child.span = some span →
        ∃ outer, node.span = some outer ∧ outer.Contains span)
      (children : ∀ child ∈ node.children, WellSpanned source child) : WellSpanned source node

/-- A hull has text if the first of its spans has. -/
theorem hull_bounded {source : Source} {old span : Span}
    (hold : source.Delimits old ∧ old.start < old.stop) (hspan : source.Delimits span) :
    source.Delimits (old.hull span) ∧ (old.hull span).start < (old.hull span).stop :=
  ⟨hold.1.hull hspan, Nat.lt_of_le_of_lt (Nat.min_le_left _ _)
    (Nat.lt_of_lt_of_le hold.2 (Nat.le_max_left _ _))⟩

namespace WellSpanned

variable {source : Source} {node child : Node} {span : Span}

theorem bounded (h : node.WellSpanned source) :
    ∀ span, node.span = some span → source.Delimits span ∧ span.start < span.stop := by
  cases h with
  | mk bounds nested children => exact bounds

theorem covers (h : node.WellSpanned source) : ∀ child ∈ node.children, ∀ span,
    child.span = some span → ∃ outer, node.span = some outer ∧ outer.Contains span := by
  cases h with
  | mk bounds nested children => exact nested

theorem nodes (h : node.WellSpanned source) :
    ∀ child ∈ node.children, child.WellSpanned source := by
  cases h with
  | mk bounds nested children => exact children

theorem empty (kind : NodeKind) : (Node.empty kind).WellSpanned source := by
  refine .mk ?_ ?_ ?_
  · rintro span ⟨⟩
  · rintro child ⟨⟩
  · rintro child ⟨⟩

/-- A span without text adds nothing of its own, so the node must have one already. -/
theorem widen (h : node.WellSpanned source) (hspan : source.Delimits span)
    (hthere : span.start < span.stop ∨ node.span.isSome) : (node.widen span).WellSpanned source := by
  have hgrows := node.grows_widen span
  have hfirst (hnone : node.span = none) : source.Delimits span ∧ span.start < span.stop :=
    ⟨hspan, hthere.resolve_right (by simp [hnone])⟩
  refine .mk (span_of_widen h.bounded hfirst fun hold => hull_bounded hold hspan) ?_ ?_
  · intro child hmem inner hinner
    rw [children_widen] at hmem
    obtain ⟨outer, houter, hstart, hstop⟩ := h.covers child hmem inner hinner
    obtain ⟨wider, hwider, hstart', hstop'⟩ := hgrows.span outer houter
    exact ⟨wider, hwider, Nat.le_trans hstart' hstart, Nat.le_trans hstop hstop'⟩
  · rw [children_widen]
    exact h.nodes

theorem imprinted (h : node.WellSpanned source) {token : Token} (hspan : source.Delimits token.span)
    (hthere : token.span.start < token.span.stop ∨ node.span.isSome) (imprint : Grammar.Imprint) :
    (node.imprinted token imprint).WellSpanned source := by
  cases imprint with
  | none => exact h
  | span => exact h.widen hspan hthere
  | anchor =>
      have hmarked : ({ node with token := some token.kind } : Node).WellSpanned source :=
        .mk h.bounded h.covers h.nodes
      exact hmarked.widen hspan hthere

theorem append (h : node.WellSpanned source) (hchild : child.WellSpanned source) :
    (node.append child).WellSpanned source := by
  have hgrows := node.grows_append child
  refine .mk (span_of_append h.bounded hchild.bounded fun hold hnew => hull_bounded hold hnew.1) ?_ ?_
  · intro other hmem span hspan
    rw [children_append] at hmem
    rcases List.mem_append.mp hmem with hmem | hmem
    · obtain ⟨outer, houter, hstart, hstop⟩ := h.covers other hmem span hspan
      obtain ⟨wider, hwider, hstart', hstop'⟩ := hgrows.span outer houter
      exact ⟨wider, hwider, Nat.le_trans hstart' hstart, Nat.le_trans hstop hstop'⟩
    · rw [List.mem_singleton.mp hmem] at hspan
      rw [span_append, hspan, Option.elim_some, span_widen (hchild.bounded span hspan).2]
      refine ⟨_, rfl, ?_⟩
      cases node.span with
      | none => exact ⟨Nat.le_refl _, Nat.le_refl _⟩
      | some old => exact ⟨Nat.min_le_right _ _, Nat.le_max_right _ _⟩
  · rw [children_append]
    intro other hmem
    rcases List.mem_append.mp hmem with hmem | hmem
    · exact h.nodes other hmem
    · rw [List.mem_singleton.mp hmem]
      exact hchild

/-- What holds of a tree holds of every node in it, and its span lies in that of the tree. -/
theorem descendant (h : node.WellSpanned source) : ∀ other ∈ node.descendants,
    other.WellSpanned source ∧ ∀ span, other.span = some span →
      ∃ outer, node.span = some outer ∧ outer.Contains span := by
  induction h with
  | @mk node bounds nested children ih =>
      intro other hmem
      rw [descendants_eq] at hmem
      rcases List.mem_cons.mp hmem with rfl | hmem
      · exact ⟨.mk bounds nested children, fun span hspan => ⟨span, hspan, Nat.le_refl _, Nat.le_refl _⟩⟩
      · obtain ⟨child, hchild, hother⟩ := List.mem_flatMap.mp hmem
        obtain ⟨hwell, hinner⟩ := ih child hchild other hother
        refine ⟨hwell, ?_⟩
        intro span hspan
        obtain ⟨middle, hmiddle, hstart, hstop⟩ := hinner span hspan
        obtain ⟨outer, houter, hstart', hstop'⟩ := nested child hchild middle hmiddle
        exact ⟨outer, houter, Nat.le_trans hstart' hstart, Nat.le_trans hstop hstop'⟩

end WellSpanned

end Node

/-! ## Runs -/

namespace Grammar

/-- What was built and reported so far is well spanned. -/
structure Session.WellSpanned (source : Source) (session : Session) : Prop where
  building : session.building.WellSpanned source
  reports : ∀ diagnostic ∈ session.diagnostics.reported, source.Delimits diagnostic.span

variable {setting : Setting} {session : Session}

/-- A comma or a closing brace is one byte long. -/
theorem vocabulary_separators : ∀ entry ∈ Lexeme.vocabulary,
    entry.2 = .comma ∨ entry.2 = .closeBrace → Source.size entry.1 = 1 := by decide

theorem Setting.Reads.separator_span (hended : setting.Ended) (h : setting.Reads session.ahead)
    (hkind : (setting.head session).kind = .comma ∨ (setting.head session).kind = .closeBrace) :
    Span.ofLength (setting.head session).span.start 1 = (setting.head session).span := by
  have hne : (setting.head session).kind ≠ .endOfSource := by
    rcases hkind with hkind | hkind <;> simp [hkind]
  rw [hended.ahead_cons hne] at h
  obtain ⟨⟨body, after, hholds⟩, -⟩ := h.cons
  have hvocabulary : (setting.head session).kind.inVocabulary = true := by
    rcases hkind with hkind | hkind <;> rw [hkind] <;> rfl
  have hsize : Source.size body = 1 :=
    vocabulary_separators _ (hholds.mem_vocabulary hvocabulary) hkind
  unfold Span.ofLength
  rw [← hsize, ← hholds.stop]

section

variable (hfinish : setting.source.Delimits setting.finish.span)

include hfinish

theorem Setting.Reads.delimits_head {tokens : List Token} (h : setting.Reads tokens) :
    setting.source.Delimits (tokens.headD setting.finish).span := by
  cases tokens with
  | nil => exact hfinish
  | cons token rest =>
      obtain ⟨⟨body, after, hholds⟩, -⟩ := h.cons
      exact hholds.delimits

theorem Session.WellSpanned.reported (h : session.WellSpanned setting.source)
    (hreads : setting.Reads session.ahead) (severity : Severity) (message : Message) :
    (setting.reports severity message session).WellSpanned setting.source := by
  refine ⟨h.building, ?_⟩
  intro diagnostic hmem
  rcases List.mem_append.mp hmem with hmem | hmem
  · exact h.reports diagnostic hmem
  · rw [List.mem_singleton.mp hmem]
    exact hreads.delimits_head hfinish

end

theorem Session.WellSpanned.built (h : session.WellSpanned setting.source) {node : Node}
    (hnode : node.WellSpanned setting.source) :
    Session.WellSpanned setting.source { session with building := node } :=
  ⟨hnode, h.reports⟩

theorem Session.WellSpanned.moved (h : session.WellSpanned setting.source) (tokens : List Token) :
    (session.at tokens).WellSpanned setting.source :=
  ⟨h.building, h.reports⟩

/-- Every session of a run is well spanned. -/
def Solo.wellSpanned (setting : Setting) (hended : setting.Ended)
    (hfinish : setting.source.Delimits setting.finish.span) : Solo where
  setting := setting
  ended := hended
  Frame := Unit
  holds _ _ session := session.WellSpanned setting.source
  rewound _ _ := False
  astray _ _ := False
  inside _ _ := ()
  within _ _ := True
  begins _ _ := True
  within_ahead _ := trivial
  within_suffix _ _ _ := trivial
  begins_ahead _ _ := trivial
  begins_suffix _ _ _ := trivial
  begins_wider _ _ := trivial
  lost _ := False
  lost_reported _ h := h
  loosen := id
  loosest := id
  note := by
    intro p n s imprint hreads h hthere
    refine h.built (h.building.imprinted (hreads.delimits_head hfinish) ?_ imprint)
    refine hthere.imp_left fun hne => ?_
    obtain ⟨token, rest, hahead⟩ := List.exists_cons_of_ne_nil hne
    rw [hahead] at hreads ⊢
    exact hreads.start_lt_stop
  label := by
    intro n s hreads h
    exact h.built (.mk h.building.bounded h.building.covers h.building.nodes)
  slot := by
    intro n s hreads h hkind
    refine h.built ?_
    rw [hreads.separator_span hended hkind]
    refine h.building.widen (hreads.delimits_head hfinish) (.inl ?_)
    have hne : (setting.head s).kind ≠ .endOfSource := by
      rcases hkind with hkind | hkind <;> simp [hkind]
    rw [hended.ahead_cons hne] at hreads
    exact hreads.start_lt_stop
  shorten := by
    intro n s tokens hreads h hgreater
    obtain ⟨token, rest, hahead, hkind, -⟩ := hreads.of_afterGreater? hgreater
    rw [hahead] at hreads
    obtain ⟨⟨body, after, hholds⟩, -⟩ := hreads.cons
    obtain ⟨others, rfl⟩ := hholds.greater_cons hkind
    have hspan : setting.source.Delimits (.ofLength token.span.start 1) :=
      ⟨Source.isBoundary_of_suffix? hholds.found, Source.isBoundary_of_suffix? hholds.found_next,
        Nat.le_succ _⟩
    have hbuilding := h.building.widen hspan (.inl (Nat.lt_succ_self _))
    refine ⟨?_, h.reports⟩
    unfold Setting.shortened Setting.head
    rw [hahead]
    exact hbuilding
  behind _ h _ _ := h.moved _
  onward _ h _ := h.moved _
  opened kind _ h := h.built (.empty kind)
  closed _ _ h _ hafter := hafter.built (h.building.append hafter.building)
  rewound_closed _ _ _ _ h := h
  astray_closed _ _ _ _ h := h
  report severity message _ hreads h := h.reported hfinish hreads severity message
  rewind := by
    intro n s tokens construct _ _ htokens hreads h _
    exact .inr (.inl ((h.moved tokens).reported hfinish htokens _ _))
  rewound_reach _ _ _ _ _ h _ := h
  astray_reach _ _ _ _ _ h _ := h
  reach := by
    intro p n s s₀ token tokens hreads₀ h₀ hsuffix hreads h hleads
    have htoken := hreads₀.suffix hsuffix
    exact h.built (h.building.widen (htoken.delimits_head hfinish) (.inl htoken.start_lt_stop))

theorem Solo.wellSpanned_resumes (setting : Setting) (hended : setting.Ended)
    (hfinish : setting.source.Delimits setting.finish.span) :
    (Solo.wellSpanned setting hended hfinish).Resumes :=
  ⟨fun _ _ h => h.elim⟩

end Grammar

namespace Entry

open Grammar

theorem session_wellSpanned (entry : Entry) (options : Options) {source : Source}
    (hstart : entry.start ≤ source.size) :
    (entry.session options source).WellSpanned source := by
  have hfinish : source.Delimits (Token.endAt (max entry.start source.size)).span := by
    rw [Nat.max_eq_right hstart]
    exact ⟨source.isBoundary_size, source.isBoundary_size, Nat.le_refl _⟩
  have hfirst : Session.WellSpanned source
      ⟨source.tokensFrom entry.start, {}, .empty .undefined⟩ :=
    ⟨.empty _, fun diagnostic hmem => absurd hmem List.not_mem_nil⟩
  have hresumes := Solo.wellSpanned_resumes (entry.setting options source) rfl hfinish
  have hafter := (Solo.wellSpanned (entry.setting options source) rfl hfinish).entry_holds
    entry options.maxDepth (n := ()) ⟨entry.start, rfl⟩ hfirst
  exact (hafter.resolve_left id).resolve_right id

/-- Whatever a source holds, every node of its tree covers some text, and the text of the nodes
below it; what is reported stands at places of the source. -/
theorem parse_wellSpanned (entry : Entry) (options : Options) (source : Source)
    (hstart : entry.start ≤ source.size) :
    (∀ node ∈ (entry.parse options source).root.descendants,
      (∀ span, node.span = some span →
        span.start < span.stop ∧ span.stop ≤ source.size ∧
          source.IsBoundary span.start ∧ source.IsBoundary span.stop) ∧
      ∀ other ∈ node.descendants, ∀ inner, other.span = some inner →
        ∃ outer, node.span = some outer ∧ outer.Contains inner) ∧
    ∀ diagnostic ∈ (entry.parse options source).diagnostics.reported,
      diagnostic.span.start ≤ diagnostic.span.stop ∧ diagnostic.span.stop ≤ source.size ∧
        source.IsBoundary diagnostic.span.start ∧ source.IsBoundary diagnostic.span.stop := by
  have hsession := entry.session_wellSpanned options hstart
  constructor
  · have hroot : (entry.parse options source).root.WellSpanned source := by
      change ((entry.session options source).building.children.headD _).WellSpanned source
      cases hchildren : (entry.session options source).building.children with
      | nil => exact .empty _
      | cons child rest =>
          exact hsession.building.nodes child (hchildren ▸ List.mem_cons_self)
    intro node hmem
    obtain ⟨hnode, -⟩ := hroot.descendant node hmem
    constructor
    · intro span hspan
      obtain ⟨hdelimits, hlt⟩ := hnode.bounded span hspan
      exact ⟨hlt, hdelimits.stop.le_size, hdelimits.start, hdelimits.stop⟩
    · intro other hother
      exact (hnode.descendant other hother).2
  · intro diagnostic hmem
    have hdelimits := hsession.reports diagnostic hmem
    exact ⟨hdelimits.ordered, hdelimits.stop.le_size, hdelimits.start, hdelimits.stop⟩

/-- A block that is not closed, behind a character of two bytes. -/
theorem parse_wellSpanned_openBlock :
    let source := ['é', '{', '1', ';']
    let outcome := (Entry.statementBlock 2).parse {} source
    outcome.root.span = some ⟨2, 5⟩ ∧
      (∀ other ∈ outcome.root.descendants, ∀ inner, other.span = some inner →
        (⟨2, 5⟩ : Span).Contains inner) ∧
      outcome.diagnostics.reported.length = 4 ∧
      ∀ diagnostic ∈ outcome.diagnostics.reported, diagnostic.span.stop ≤ 5 := by
  have hspan :
      ((Entry.statementBlock 2).parse {} ['é', '{', '1', ';']).root.span = some ⟨2, 5⟩ := by
    decide +kernel
  have hwell := parse_wellSpanned (.statementBlock 2) {} ['é', '{', '1', ';'] (by decide)
  refine ⟨hspan, ?_, by decide +kernel, fun diagnostic hmem => (hwell.2 diagnostic hmem).2.1⟩
  intro other hother inner hinner
  obtain ⟨outer, houter, hcontains⟩ := (hwell.1 _ (by
    rw [Node.descendants_eq]
    exact List.mem_cons_self)).2 other hother inner hinner
  rw [hspan] at houter
  rwa [Option.some.inj houter]

end Entry

end ScriptSyntax
