import ScriptSyntax.Proofs.TreeSpans

/-!
# The order of siblings

The children of a node stand in the order of the source and apart from each other, but where text is
read twice.  Where the source ends inside a construct, the run goes back to the start of the
construct, and recovery goes on from there.  Text that is read again may stand in two siblings: in
what was built of the construct, and in what is read behind it.
-/

namespace ScriptSyntax

/-- The first span ends before the second one starts. -/
def Span.Precedes (first second : Span) : Prop :=
  first.stop ≤ second.start

instance : DecidableRel Span.Precedes := fun first second =>
  inferInstanceAs (Decidable (first.stop ≤ second.start))

/-! ## Text that is read again -/

/-- A note behind an error takes the run back to the start of a construct, at `start` or behind it.
From there recovery, inside braces or outside, goes on at the offset or before it, and the error
stands behind the offset. -/
def Diagnostics.ReadsAgain (source : Source) (diagnostics : Diagnostics) (start offset : Nat) :
    Prop :=
  ∃ pair ∈ diagnostics.reported.zip diagnostics.reported.tail,
    pair.2.severity = .info ∧ start ≤ pair.2.span.start ∧ offset < pair.1.span.stop ∧
      ∃ inBraces, ∃ token ∈ Grammar.resume inBraces (source.tokensFrom pair.2.span.start),
        token.span.start ≤ offset

instance (source : Source) (diagnostics : Diagnostics) (start offset : Nat) :
    Decidable (diagnostics.ReadsAgain source start offset) :=
  inferInstanceAs (Decidable (∃ pair ∈ diagnostics.reported.zip diagnostics.reported.tail,
    pair.2.severity = .info ∧ start ≤ pair.2.span.start ∧ offset < pair.1.span.stop ∧
      ∃ inBraces, ∃ token ∈ Grammar.resume inBraces (source.tokensFrom pair.2.span.start),
        token.span.start ≤ offset))

theorem mem_zip_tail_iff {α : Type} {first second : α} {items : List α} :
    (first, second) ∈ items.zip items.tail ↔ [first, second] <:+: items := by
  induction items with
  | nil => simp
  | cons item rest ih =>
      cases rest with
      | nil => simp [List.infix_cons_iff]
      | cons next rest =>
          rw [List.infix_cons_iff, ← ih]
          simp [List.cons_prefix_cons]

namespace Diagnostics.ReadsAgain

variable {source : Source} {diagnostics more : Diagnostics} {start start' offset : Nat}

theorem mono (h : diagnostics.ReadsAgain source start offset)
    (hmore : diagnostics.reported <+: more.reported) : more.ReadsAgain source start offset := by
  obtain ⟨⟨error, note⟩, hpair, hagain⟩ := h
  refine ⟨(error, note), ?_, hagain⟩
  rw [mem_zip_tail_iff] at hpair ⊢
  exact hpair.trans hmore.isInfix

theorem earlier (h : diagnostics.ReadsAgain source start offset) (hle : start' ≤ start) :
    diagnostics.ReadsAgain source start' offset := by
  obtain ⟨pair, hpair, hseverity, hstart, hagain⟩ := h
  exact ⟨pair, hpair, hseverity, Nat.le_trans hle hstart, hagain⟩

theorem note (h : diagnostics.ReadsAgain source start offset) :
    ∃ note ∈ diagnostics.reported, note.severity = .info := by
  obtain ⟨⟨error, note⟩, hpair, hseverity, -⟩ := h
  exact ⟨note, List.mem_of_mem_tail (List.of_mem_zip hpair).2, hseverity⟩

end Diagnostics.ReadsAgain

/-- Which offsets are read again after text that starts somewhere. -/
structure Rereading where
  again : Nat → Nat → Prop
  earlier : ∀ {start start' offset}, again start offset → start' ≤ start → again start' offset

/-- The offsets that are read again by a run with these reports, if it goes on behind errors. -/
def Diagnostics.rereading (diagnostics : Diagnostics) (source : Source) (recovers : Prop) :
    Rereading where
  again start offset := recovers ∧ diagnostics.ReadsAgain source start offset
  earlier h hle := ⟨h.1, h.2.earlier hle⟩

theorem Diagnostics.rereading_mono {diagnostics more : Diagnostics} {source : Source}
    {recovers : Prop} (hmore : diagnostics.reported <+: more.reported) {start offset : Nat}
    (h : (diagnostics.rereading source recovers).again start offset) :
    (more.rereading source recovers).again start offset :=
  ⟨h.1, h.2.mono hmore⟩

namespace Span

variable {R R' : Rereading} {span other : Span} {low low' : Nat}

/-- Two spans one behind the other, or the second one starts in text that is read again. -/
def Apart (R : Rereading) (first second : Span) : Prop :=
  first.Precedes second ∨ R.again first.start second.start

/-- What starts at the offset or behind it is apart from the span. -/
def ClearAt (R : Rereading) (low : Nat) (span : Span) : Prop :=
  ∀ offset, low ≤ offset → span.stop ≤ offset ∨ R.again span.start offset

theorem ClearAt.of_le (h : span.stop ≤ low) : span.ClearAt R low :=
  fun _ hle => .inl (Nat.le_trans h hle)

theorem ClearAt.stop_le (h : span.ClearAt R low) (hnever : ∀ {start offset}, ¬R.again start offset) :
    span.stop ≤ low :=
  (h low (Nat.le_refl _)).resolve_right hnever

theorem ClearAt.mono (h : span.ClearAt R low)
    (hmore : ∀ {start offset}, R.again start offset → R'.again start offset) (hlow : low ≤ low') :
    span.ClearAt R' low' :=
  fun offset hle => (h offset (Nat.le_trans hlow hle)).imp_right hmore

theorem ClearAt.hull (h : span.ClearAt R low) (hother : other.ClearAt R low) :
    (span.hull other).ClearAt R low := by
  intro offset hle
  rcases h offset hle with hstop | hagain
  · rcases hother offset hle with hstop' | hagain
    · exact .inl (Nat.max_le.mpr ⟨hstop, hstop'⟩)
    · exact .inr (R.earlier hagain (Nat.min_le_right _ _))
  · exact .inr (R.earlier hagain (Nat.min_le_left _ _))

end Span

/-! ## Trees -/

namespace Node

/-- The span of the node, if it has one, starts at the offset or behind it. -/
def StartsFrom (low : Nat) (node : Node) : Prop :=
  ∀ span, node.span = some span → low ≤ span.start

/-- The span of the node, if it has one, starts at the offset or before it. -/
def StartsBy (high : Nat) (node : Node) : Prop :=
  ∀ span, node.span = some span → span.start ≤ high

/-- The span of the node, if it has one, starts at the first offset or behind it, and what starts at
the second one or behind it is apart from it. -/
def Between (R : Rereading) (low high : Nat) (node : Node) : Prop :=
  ∀ span, node.span = some span → low ≤ span.start ∧ span.ClearAt R high

/-- The children of every node in the tree stand one behind the other, as far as they have spans. -/
inductive Ordered (R : Rereading) : Node → Prop
  | mk {node : Node} (siblings : (node.children.filterMap (·.span)).Pairwise (Span.Apart R))
      (children : ∀ child ∈ node.children, Ordered R child) : Ordered R node

/-- An ordered node, which reaches from `low` to `outer`, and with its children to `inner`. -/
structure Fills (R : Rereading) (low inner outer : Nat) (node : Node) : Prop where
  ordered : node.Ordered R
  span : node.Between R low outer
  children : ∀ child ∈ node.children, child.Between R low inner

variable {R R' : Rereading} {node child : Node} {span : Span}
  {low low' high high' inner inner' outer outer' : Nat}

theorem StartsFrom.widen (h : node.StartsFrom low) (hspan : low ≤ span.start) :
    (node.widen span).StartsFrom low :=
  span_of_widen (P := (low ≤ ·.start)) h (fun _ => hspan) fun hold => Nat.le_min.mpr ⟨hold, hspan⟩

theorem StartsFrom.append (h : node.StartsFrom low) (hchild : child.StartsFrom low) :
    (node.append child).StartsFrom low :=
  span_of_append (P := (low ≤ ·.start)) h hchild fun hold hnew => Nat.le_min.mpr ⟨hold, hnew⟩

theorem StartsBy.mono (h : node.StartsBy high) (hle : high ≤ high') : node.StartsBy high' :=
  fun span hspan => Nat.le_trans (h span hspan) hle

theorem StartsBy.widen (h : node.StartsBy high) (hspan : span.start ≤ high) :
    (node.widen span).StartsBy high :=
  span_of_widen (P := (·.start ≤ high)) h (fun _ => hspan)
    fun hold => Nat.le_trans (Nat.min_le_left _ _) hold

theorem StartsBy.append (h : node.StartsBy high) (hchild : child.StartsBy high) :
    (node.append child).StartsBy high :=
  span_of_append (P := (·.start ≤ high)) h hchild
    fun hold _ => Nat.le_trans (Nat.min_le_left _ _) hold

theorem StartsBy.imprinted (h : node.StartsBy high) {token : Token} (hspan : token.span.start ≤ high)
    (imprint : Grammar.Imprint) : (node.imprinted token imprint).StartsBy high := by
  have hlabelled : ({ node with token := some token.kind } : Node).StartsBy high := h
  cases imprint with
  | none => exact h
  | span => exact h.widen hspan
  | anchor => exact hlabelled.widen hspan

namespace Between

theorem startsFrom (h : node.Between R low high) : node.StartsFrom low :=
  fun span hspan => (h span hspan).1

theorem mono (h : node.Between R low high)
    (hmore : ∀ {start offset}, R.again start offset → R'.again start offset) (hlow : low' ≤ low)
    (hhigh : high ≤ high') : node.Between R' low' high' := by
  intro span hspan
  obtain ⟨hstart, hclear⟩ := h span hspan
  exact ⟨Nat.le_trans hlow hstart, hclear.mono hmore hhigh⟩

theorem hull {old new : Span} (hold : low ≤ old.start ∧ old.ClearAt R high)
    (hnew : low ≤ new.start ∧ new.ClearAt R high) :
    low ≤ (old.hull new).start ∧ (old.hull new).ClearAt R high :=
  ⟨Nat.le_min.mpr ⟨hold.1, hnew.1⟩, hold.2.hull hnew.2⟩

theorem widen (h : node.Between R low high) (hlow : low ≤ span.start)
    (hhigh : span.ClearAt R high) : (node.widen span).Between R low high :=
  span_of_widen (P := fun span => low ≤ span.start ∧ span.ClearAt R high) h
    (fun _ => ⟨hlow, hhigh⟩) fun hold => hull hold ⟨hlow, hhigh⟩

theorem append (h : node.Between R low high) (hchild : child.Between R low high) :
    (node.append child).Between R low high :=
  span_of_append (P := fun span => low ≤ span.start ∧ span.ClearAt R high) h hchild hull

end Between

namespace Ordered

theorem siblings (h : node.Ordered R) :
    (node.children.filterMap (·.span)).Pairwise (Span.Apart R) := by
  cases h with
  | mk siblings children => exact siblings

theorem nodes (h : node.Ordered R) : ∀ child ∈ node.children, child.Ordered R := by
  cases h with
  | mk siblings children => exact children

theorem empty (kind : NodeKind) : (Node.empty kind).Ordered R :=
  .mk .nil fun _ hmem => absurd hmem List.not_mem_nil

theorem of_children {other : Node} (h : node.Ordered R)
    (hchildren : other.children = node.children) : other.Ordered R := by
  refine .mk ?_ ?_
  · rw [hchildren]
    exact h.siblings
  · rw [hchildren]
    exact h.nodes

theorem mono (h : node.Ordered R)
    (hmore : ∀ {start offset}, R.again start offset → R'.again start offset) : node.Ordered R' := by
  induction h with
  | mk siblings children ih => exact .mk (siblings.imp fun hapart => hapart.imp_right hmore) ih

/-- A child that starts where its siblings are apart from it is put last. -/
theorem append (h : node.Ordered R) (hchild : child.Ordered R)
    (hsiblings : ∀ other ∈ node.children, other.Between R low inner)
    (hbehind : ∀ span, child.span = some span → inner ≤ span.start) :
    (node.append child).Ordered R := by
  refine .mk ?_ ?_
  · rw [children_append, List.filterMap_append, List.pairwise_append]
    refine ⟨h.siblings, ?_, ?_⟩
    · cases hspan : child.span with
      | none => simp [hspan]
      | some span => simp [hspan]
    · intro first hfirst second hsecond
      obtain ⟨other, hother, hfirst⟩ := List.mem_filterMap.mp hfirst
      obtain ⟨last, hlast, hsecond⟩ := List.mem_filterMap.mp hsecond
      rw [List.mem_singleton.mp hlast] at hsecond
      exact (hsiblings other hother first hfirst).2 _ (hbehind second hsecond)
  · rw [children_append]
    intro other hmem
    rcases List.mem_append.mp hmem with hmem | hmem
    · exact h.nodes other hmem
    · rw [List.mem_singleton.mp hmem]
      exact hchild

theorem descendant (h : node.Ordered R) : ∀ other ∈ node.descendants, other.Ordered R := by
  induction h with
  | @mk node siblings children ih =>
      intro other hmem
      rw [descendants_eq] at hmem
      rcases List.mem_cons.mp hmem with rfl | hmem
      · exact .mk siblings children
      · obtain ⟨child, hchild, hother⟩ := List.mem_flatMap.mp hmem
        exact ih child hchild other hother

end Ordered

namespace Fills

theorem empty (kind : NodeKind) : (Node.empty kind).Fills R low inner outer := by
  refine ⟨.empty kind, ?_, ?_⟩
  · rintro span ⟨⟩
  · rintro child ⟨⟩

theorem mono (h : node.Fills R low inner outer)
    (hmore : ∀ {start offset}, R.again start offset → R'.again start offset) (hinner : inner ≤ inner')
    (houter : outer ≤ outer') : node.Fills R' low inner' outer' :=
  ⟨h.ordered.mono hmore, h.span.mono hmore (Nat.le_refl _) houter,
    fun child hmem => (h.children child hmem).mono hmore (Nat.le_refl _) hinner⟩

theorem reaches (h : node.Fills R low inner outer) (hinner : inner ≤ inner') (houter : outer ≤ outer') :
    node.Fills R low inner' outer' :=
  h.mono id hinner houter

theorem labelled (h : node.Fills R low inner outer) (kind : TokenKind) :
    ({ node with token := some kind } : Node).Fills R low inner outer :=
  ⟨h.ordered.of_children rfl, h.span, h.children⟩

theorem widen (h : node.Fills R low inner outer) (hlow : low ≤ span.start)
    (hhigh : span.stop ≤ outer) : (node.widen span).Fills R low inner outer := by
  refine ⟨h.ordered.of_children (children_widen node span), h.span.widen hlow (.of_le hhigh), ?_⟩
  rw [children_widen]
  exact h.children

theorem imprinted (h : node.Fills R low inner outer) {token : Token} (hlow : low ≤ token.span.start)
    (hhigh : token.span.stop ≤ outer) (imprint : Grammar.Imprint) :
    (node.imprinted token imprint).Fills R low inner outer := by
  cases imprint with
  | none => exact h
  | span => exact h.widen hlow hhigh
  | anchor => exact (h.labelled token.kind).widen hlow hhigh

/-- A child that starts behind the others is put last. -/
theorem append (h : node.Fills R low inner outer) {start : Nat} (hordered : child.Ordered R)
    (hchild : child.Between R start outer') (hspan : node.Between R low outer') (hlow : low ≤ start)
    (hbehind : inner ≤ start) (hinner : inner ≤ outer') :
    (node.append child).Fills R low outer' outer' := by
  have hwithin : child.Between R low outer' := hchild.mono id hlow (Nat.le_refl _)
  refine ⟨h.ordered.append hordered h.children ?_, hspan.append hwithin, ?_⟩
  · exact fun span hspan => Nat.le_trans hbehind (hchild span hspan).1
  · rw [children_append]
    intro other hmem
    rcases List.mem_append.mp hmem with hmem | hmem
    · exact (h.children other hmem).mono id (Nat.le_refl _) hinner
    · rw [List.mem_singleton.mp hmem]
      exact hwithin

end Fills

end Node

namespace Grammar

/-! ## Runs -/

/-- Up to where a node reaches whose next token has the span. -/
def Phase.outer : Phase → Span → Nat
  | settled, span => span.start
  | _, span => span.stop

/-- Up to where the children of a node reach whose next token has the span. -/
def Phase.inner : Phase → Span → Nat
  | covered, span => span.stop
  | _, span => span.start

theorem Phase.start_le_outer {p : Phase} {span : Span} (h : span.start ≤ span.stop) :
    span.start ≤ p.outer span := by
  cases p with
  | settled => exact Nat.le_refl _
  | _ => exact h

theorem Phase.inner_eq {p : Phase} (h : p ≠ .covered) (span : Span) : p.inner span = span.start := by
  cases p with
  | covered => exact absurd rfl h
  | _ => rfl

theorem Phase.outer_le_stop {p : Phase} {span : Span} (h : span.start ≤ span.stop) :
    p.outer span ≤ span.stop := by
  cases p with
  | settled => exact h
  | _ => exact Nat.le_refl _

section

variable (setting : Setting) (recovers : Prop)

/-- The text that is read again by a run that has come to the session. -/
abbrev Setting.rereading (session : Session) : Rereading :=
  session.diagnostics.rereading setting.source recovers

/-- The node that is being built was opened at a token with the first span, and the run has not gone
back behind that token. -/
structure Underway (opening : Span) (session : Session) : Prop where
  next : (setting.head session).span.start ≤ (setting.head session).span.stop
  start : opening.start ≤ (setting.head session).span.start
  stop : opening.stop ≤ (setting.head session).span.stop
  begun : session.building.StartsBy (setting.head session).span.start

/-- The node that is being built is ordered, and it reaches no further than its phase allows. -/
structure Tidy (p : Phase) (opening : Span) (session : Session) : Prop
    extends Underway setting opening session where
  building : session.building.Fills (setting.rereading recovers session) opening.start
    (p.inner (setting.head session).span) (p.outer (setting.head session).span)

/-- The next token stands behind all that was read, or it is read again: the token at which the node
was opened included. -/
structure Behind (opening : Span) (session : Session) : Prop
    extends Tidy setting recovers .settled opening session where
  clear : opening.ClearAt (setting.rereading recovers session) (setting.head session).span.start

/-- The next token stands behind the node that is being built, or it is read again; nothing is said
of the children of the node, as it is not gone on with. -/
structure Beyond (opening : Span) (session : Session) : Prop
    extends Underway setting opening session where
  clear : opening.ClearAt (setting.rereading recovers session) (setting.head session).span.start
  span : session.building.Between (setting.rereading recovers session) opening.start
    (setting.head session).span.start

/-- An ordered node that does not begin before the token at which it was opened. -/
structure Sorted (opening : Span) (session : Session) : Prop where
  ordered : session.building.Ordered (setting.rereading recovers session)
  low : session.building.StartsFrom opening.start

/-- The run has gone back to the start of a construct, and recovery goes on behind the node that is
being built. -/
structure Rewound (opening : Span) (session : Session) : Prop
    extends Sorted setting recovers opening session where
  resumes : recovers → ∀ inBraces,
    Beyond setting recovers opening (session.at (resume inBraces session.ahead))

/-- Recovery goes on in the node that is being built. -/
structure Astray (opening : Span) (session : Session) : Prop
    extends Sorted setting recovers opening session where
  resumes : recovers → ∀ inBraces,
    Behind setting recovers opening (session.at (resume inBraces session.ahead))

end

variable {setting : Setting} {recovers : Prop} {p q : Phase} {opening : Span}
  {session after : Session} {tokens : List Token} {kind : NodeKind}

namespace Underway

theorem moved (h : Underway setting opening session)
    (hreads : setting.Reads tokens) (hfinish : setting.finish.span.start = setting.finish.span.stop)
    (hstart : (setting.head session).span.start ≤ (tokens.headD setting.finish).span.start)
    (hstop : (setting.head session).span.stop ≤ (tokens.headD setting.finish).span.stop) :
    Underway setting opening (session.at tokens) :=
  ⟨hreads.start_le_stop (Nat.le_of_eq hfinish), Nat.le_trans h.start hstart,
    Nat.le_trans h.stop hstop, h.begun.mono hstart⟩

theorem built (h : Underway setting opening session) {node : Node}
    (hnode : node.StartsBy (setting.head session).span.start) :
    Underway setting opening { session with building := node } :=
  ⟨h.next, h.start, h.stop, hnode⟩

theorem closed (h : Underway setting opening session)
    (hafter : Underway setting (setting.head session).span after) :
    Underway setting opening (session.closed after) :=
  ⟨hafter.next, Nat.le_trans h.start hafter.start, Nat.le_trans h.stop hafter.stop,
    (h.begun.mono hafter.start).append hafter.begun⟩

end Underway

namespace Tidy

theorem loosen (h : Tidy setting recovers .settled opening session) :
    Tidy setting recovers p opening session := by
  refine ⟨h.toUnderway, ?_⟩
  cases p with
  | settled => exact h.building
  | noted => exact h.building.reaches (Nat.le_refl _) h.next
  | covered => exact h.building.reaches h.next h.next

theorem loosest (h : Tidy setting recovers p opening session) :
    Tidy setting recovers .covered opening session := by
  refine ⟨h.toUnderway, ?_⟩
  cases p with
  | settled => exact h.building.reaches h.next h.next
  | noted => exact h.building.reaches h.next (Nat.le_refl _)
  | covered => exact h.building

theorem noted (h : Tidy setting recovers p opening session) (imprint : Imprint) :
    Tidy setting recovers p.noting opening (setting.noted imprint session) := by
  refine ⟨h.toUnderway.built (h.begun.imprinted (Nat.le_refl _) imprint), ?_⟩
  cases p with
  | settled =>
      exact (h.building.reaches (Nat.le_refl _) h.next).imprinted h.start (Nat.le_refl _) imprint
  | noted => exact h.building.imprinted h.start (Nat.le_refl _) imprint
  | covered => exact h.building.imprinted h.start (Nat.le_refl _) imprint

theorem reported (h : Tidy setting recovers p opening session) (severity : Severity)
    (message : Message) :
    Tidy setting recovers p opening (setting.reports severity message session) := by
  obtain ⟨report, hreported, -⟩ := setting.reported_reports severity message session
  have hmore := @Diagnostics.rereading_mono session.diagnostics
    (setting.reports severity message session).diagnostics setting.source recovers
    ⟨[report], hreported.symm⟩
  exact ⟨⟨h.next, h.start, h.stop, h.begun⟩, h.building.mono hmore (Nat.le_refl _) (Nat.le_refl _)⟩

theorem opened (h : Tidy setting recovers p opening session) (kind : NodeKind) :
    Tidy setting recovers .settled (setting.head session).span (session.opened kind) :=
  ⟨⟨h.next, Nat.le_refl _, Nat.le_refl _, by rintro span ⟨⟩⟩, .empty kind⟩

/-- What was built around a node, once the node is closed. -/
theorem around (h : Tidy setting recovers p opening session)
    (hadvance : Advance setting (session.opened kind) after) :
    session.building.Fills (setting.rereading recovers after) opening.start
      (p.inner (setting.head session).span) (p.outer (setting.head session).span) :=
  h.building.mono (Diagnostics.rereading_mono hadvance.reported) (Nat.le_refl _) (Nat.le_refl _)

/-- A node that was opened at the next token and is closed. -/
theorem closed (hphase : p ≠ .covered)
    (h : Tidy setting recovers p opening session)
    (hadvance : Advance setting (session.opened kind) after)
    (hafter : Tidy setting recovers q (setting.head session).span after) :
    Tidy setting recovers (p.closing q) opening (session.closed after) := by
  have hbuilding := h.around hadvance
  have hinner := hafter.building
  have hlast := hafter.loosest.building
  have hbefore := Nat.le_trans hafter.start hafter.next
  refine ⟨h.toUnderway.closed hafter.toUnderway, ?_⟩
  have hcovered (hstart : p.inner (setting.head session).span ≤ (setting.head session).span.start)
      (hstop : p.outer (setting.head session).span ≤ (setting.head after).span.stop) :
      (session.building.append after.building).Fills (setting.rereading recovers after) opening.start
        (setting.head after).span.stop (setting.head after).span.stop :=
    hbuilding.append hlast.ordered hlast.span (hbuilding.span.mono id (Nat.le_refl _) hstop) h.start
      hstart (Nat.le_trans hstart hbefore)
  cases p with
  | covered => exact absurd rfl hphase
  | noted => exact hcovered (Nat.le_refl _) hafter.stop
  | settled =>
      cases q with
      | settled =>
          exact hbuilding.append hinner.ordered hinner.span
            (hbuilding.span.mono id (Nat.le_refl _) hafter.start) h.start (Nat.le_refl _) hafter.start
      | noted => exact hcovered (Nat.le_refl _) hbefore
      | covered => exact hcovered (Nat.le_refl _) hbefore

/-- A node may be widened over a token in it that stands before what it reaches up to. -/
theorem widen (h : Tidy setting recovers p opening session) {span : Span}
    (hlow : opening.start ≤ span.start) (hnext : span.start ≤ (setting.head session).span.start)
    (hhigh : span.stop ≤ p.outer (setting.head session).span) :
    Tidy setting recovers p opening { session with building := session.building.widen span } :=
  ⟨h.toUnderway.built (h.begun.widen hnext), h.building.widen hlow hhigh⟩

section

variable (hwhole : setting.Whole)

include hwhole

/-- A token that comes later in the node. -/
theorem start_le (hreads : setting.Reads session.ahead)
    (h : Tidy setting recovers p opening session) {token : Token}
    (hsuffix : token :: tokens <:+ session.ahead) : opening.start ≤ token.span.start :=
  Nat.le_trans h.start (hreads.start_le hwhole (setting.leads_of_suffix hsuffix))

variable (hfinish : setting.finish.span.start = setting.finish.span.stop)
  (hreads : setting.Reads session.ahead)

include hfinish hreads

theorem behind (h : Tidy setting recovers .covered opening session) (hne : session.ahead ≠ [])
    (hsuffix : tokens <:+ session.ahead.tail) :
    Tidy setting recovers .settled opening (session.at tokens) := by
  have htokens := hreads.suffix (hsuffix.trans (List.tail_suffix _))
  have hbehind : (setting.head session).span.stop ≤ (tokens.headD setting.finish).span.start := by
    obtain ⟨token, rest, hahead⟩ := List.exists_cons_of_ne_nil hne
    rw [Setting.head_cons hahead]
    rw [hahead] at hreads hsuffix
    exact hreads.stop_le_behind hwhole (setting.leads_of_suffix hsuffix)
  have hnext := htokens.start_le_stop (Nat.le_of_eq hfinish)
  exact ⟨h.toUnderway.moved htokens hfinish (Nat.le_trans h.next hbehind)
    (Nat.le_trans hbehind hnext), h.building.reaches hbehind hbehind⟩

theorem onward (h : Tidy setting recovers .covered opening session)
    (hsuffix : tokens <:+ session.ahead) :
    Tidy setting recovers .covered opening (session.at tokens) := by
  have hleads := setting.leads_of_suffix hsuffix
  have hstop : (setting.head session).span.stop ≤ (tokens.headD setting.finish).span.stop :=
    hreads.stop_le (Nat.le_of_eq hfinish) hwhole hleads
  exact ⟨h.toUnderway.moved (hreads.suffix hsuffix) hfinish (hreads.start_le hwhole hleads) hstop,
    h.building.reaches hstop hstop⟩

/-- Behind the first byte of the next token. -/
theorem shortened (h : Tidy setting recovers .settled opening session)
    (hgreater : setting.afterGreater? session.ahead = some tokens) :
    Tidy setting recovers .settled opening (setting.shortened tokens session) := by
  have hstep : setting.Step session.ahead tokens := .inr hgreater
  obtain ⟨token, rest, hahead, -, hlt⟩ := hreads.start_lt hwhole hstep
  have hstart : (setting.head session).span.start < (tokens.headD setting.finish).span.start := by
    rw [Setting.head_cons hahead]
    exact hlt
  have hle := Nat.le_of_lt hstart
  have hmoved : Tidy setting recovers .settled opening (session.at tokens) :=
    ⟨h.toUnderway.moved (hreads.step hstep) hfinish hle
      (hreads.stop_le_step (Nat.le_of_eq hfinish) hwhole hstep), h.building.reaches hle hle⟩
  exact hmoved.widen h.start hle hstart

end

end Tidy

theorem Behind.beyond (h : Behind setting recovers opening session) :
    Beyond setting recovers opening session :=
  ⟨h.toUnderway, h.clear, h.building.span⟩

/-- A node may be widened over a token in it that stands before the next one. -/
theorem Behind.widen (h : Behind setting recovers opening session) {span : Span}
    (hlow : opening.start ≤ span.start) (hnext : span.start ≤ (setting.head session).span.start)
    (hhigh : span.stop ≤ (setting.head session).span.start) :
    Behind setting recovers opening { session with building := session.building.widen span } :=
  ⟨h.toTidy.widen hlow hnext hhigh, h.clear⟩

namespace Beyond

theorem widen (h : Beyond setting recovers opening session) {span : Span}
    (hlow : opening.start ≤ span.start) (hnext : span.start ≤ (setting.head session).span.start)
    (hhigh : span.stop ≤ (setting.head session).span.start) :
    Beyond setting recovers opening { session with building := session.building.widen span } :=
  ⟨h.toUnderway.built (h.begun.widen hnext), h.clear, h.span.widen hlow (.of_le hhigh)⟩

/-- Behind a child that is not gone on with its node is gone on with. -/
theorem closed (hphase : p ≠ .covered)
    (h : Tidy setting recovers p opening session)
    (hadvance : Advance setting (session.opened kind) after)
    (hordered : after.building.Ordered (setting.rereading recovers after))
    (hafter : Beyond setting recovers (setting.head session).span (after.at tokens)) :
    Behind setting recovers opening ((session.closed after).at tokens) := by
  have hbuilding := h.around hadvance
  have hnext : (setting.head session).span.start ≤ (tokens.headD setting.finish).span.start :=
    hafter.start
  -- what the node covers of the token at which the child was opened may be read again
  have hclear {span : Span} (hspan : span.start ≤ (setting.head session).span.start)
      (hstop : span.ClearAt (setting.rereading recovers after) (setting.head session).span.stop) :
      span.ClearAt (setting.rereading recovers after) (tokens.headD setting.finish).span.start := by
    intro offset hle
    rcases hafter.clear offset hle with hpassed | hagain
    · exact hstop offset hpassed
    · exact .inr (Rereading.earlier _ hagain hspan)
  have hinner := Phase.inner_eq hphase (setting.head session).span
  have hunderway : Underway setting opening (session.closed (after.at tokens)) :=
    h.toUnderway.closed hafter.toUnderway
  refine ⟨⟨hunderway, ?_⟩, hclear h.start (.of_le h.stop)⟩
  refine hbuilding.append hordered hafter.span ?_ h.start (Nat.le_of_eq hinner)
    (Nat.le_trans (Nat.le_of_eq hinner) hnext)
  intro span hspan
  obtain ⟨hlow, hhigh⟩ := hbuilding.span span hspan
  exact ⟨hlow, hclear (h.begun span hspan) (hhigh.mono id (Phase.outer_le_stop h.next))⟩

end Beyond

namespace Sorted

theorem widen (h : Sorted setting recovers opening session) {span : Span}
    (hlow : opening.start ≤ span.start) :
    Sorted setting recovers opening { session with building := session.building.widen span } :=
  ⟨h.ordered.of_children (Node.children_widen _ _), h.low.widen hlow⟩

theorem reported (h : Sorted setting recovers opening session) (severity : Severity)
    (message : Message) :
    Sorted setting recovers opening (setting.reports severity message session) := by
  obtain ⟨report, hreported, -⟩ := setting.reported_reports severity message session
  exact ⟨h.ordered.mono (Diagnostics.rereading_mono ⟨[report], hreported.symm⟩), h.low⟩

/-- A node that was opened at the next token stands behind what was built before. -/
theorem closed (hphase : p ≠ .covered) (h : Tidy setting recovers p opening session)
    (hadvance : Advance setting (session.opened kind) after)
    (hafter : Sorted setting recovers (setting.head session).span after) :
    Sorted setting recovers opening (session.closed after) := by
  have hbuilding := h.around hadvance
  have hinner := Phase.inner_eq hphase (setting.head session).span
  refine ⟨hbuilding.ordered.append hafter.ordered hbuilding.children ?_, ?_⟩
  · intro span hspan
    exact Nat.le_trans (Nat.le_of_eq hinner) (hafter.low span hspan)
  · exact hbuilding.span.startsFrom.append fun span hspan =>
      Nat.le_trans h.start (hafter.low span hspan)

end Sorted

theorem Rewound.closed (hphase : p ≠ .covered) (h : Tidy setting recovers p opening session)
    (hadvance : Advance setting (session.opened kind) after)
    (hafter : Rewound setting recovers (setting.head session).span after) :
    Astray setting recovers opening (session.closed after) :=
  ⟨.closed hphase h hadvance hafter.toSorted, fun hrecovers inBraces =>
    (hafter.resumes hrecovers inBraces).closed hphase h hadvance hafter.ordered⟩

theorem Astray.closed (hphase : p ≠ .covered) (h : Tidy setting recovers p opening session)
    (hadvance : Advance setting (session.opened kind) after)
    (hafter : Astray setting recovers (setting.head session).span after) :
    Astray setting recovers opening (session.closed after) :=
  Rewound.closed hphase h hadvance
    ⟨hafter.toSorted, fun hrecovers inBraces => (hafter.resumes hrecovers inBraces).beyond⟩

section

variable (hwhole : setting.Whole)

include hwhole

/-- Recovery does not stop before a brace that was passed. -/
theorem Setting.Reads.brace_le {brace : Token} (hkind : brace.kind = .openBrace)
    (hreads : setting.Reads (brace :: tokens))
    (hleads : setting.Leads (brace :: tokens) session.ahead) (inBraces : Bool) :
    brace.span.start ≤ (setting.head (session.at (resume inBraces session.ahead))).span.start ∧
      brace.span.stop ≤ (setting.head (session.at (resume inBraces session.ahead))).span.start := by
  have hpasses := @Parse.resume_passes setting inBraces _ _ _ hleads (by simp [hkind])
  have hstop := hreads.stop_le_behind hwhole (Setting.leads_of_passes hkind hpasses)
  exact ⟨Nat.le_trans (Nat.le_of_lt hreads.start_lt_stop) hstop, hstop⟩

variable (hfinish : setting.finish.span.start = setting.finish.span.stop)
  (hreads : setting.Reads session.ahead) (htokens : setting.Reads tokens)

include hfinish hreads htokens

/-- Back at the start of a construct, what was clear behind the error that was reported last is
clear where recovery goes on, as what comes before the end of the error is read again. -/
theorem Setting.Blamed.clearAt (hblamed : setting.Blamed session) (construct : Construct)
    (hrecovers : recovers) (inBraces : Bool) {span : Span}
    (hstart : span.start ≤ (tokens.headD setting.finish).span.start)
    (hclear : span.ClearAt (setting.rereading recovers session) (setting.head session).span.stop) :
    span.ClearAt
      (setting.rereading recovers (setting.reports .info (.whileParsing construct)
        (session.at tokens)))
      ((resume inBraces tokens).headD setting.finish).span.start := by
  obtain ⟨front, report, hreported, -, hspan⟩ := hblamed
  obtain ⟨note, hnoted, hseverity, hplace⟩ :=
    setting.reported_reports .info (.whileParsing construct) (session.at tokens)
  intro offset hle
  by_cases hbefore : (setting.head session).span.stop ≤ offset
  · exact (hclear offset hbefore).imp_right (Diagnostics.rereading_mono ⟨[note], hnoted.symm⟩)
  · have hpair : [report, note] <:+: (setting.reports .info (.whileParsing construct)
        (session.at tokens)).diagnostics.reported := by
      refine ⟨front, [], ?_⟩
      rw [hnoted]
      change _ = session.diagnostics.reported ++ [note]
      rw [hreported, List.append_nil, List.append_assoc, List.singleton_append]
    have hfrom : setting.source.tokensFrom note.span.start = tokens := by
      rw [hplace]
      exact htokens.eq_tokensFrom hwhole
    have hagain : ∃ token ∈ resume inBraces tokens, token.span.start ≤ offset := by
      cases hresumed : resume inBraces tokens with
      | cons token rest =>
          rw [hresumed] at hle
          exact ⟨token, List.mem_cons_self, hle⟩
      | nil =>
          rw [hresumed] at hle
          have hlast : (setting.head session).span.stop ≤ setting.finish.span.stop :=
            hreads.stop_le (Nat.le_of_eq hfinish) hwhole (setting.leads_of_suffix (List.nil_suffix))
          exact absurd (Nat.le_trans hlast (Nat.le_trans (Nat.le_of_eq hfinish.symm) hle)) hbefore
    refine .inr ⟨hrecovers, (report, note), mem_zip_tail_iff.mpr hpair, hseverity, ?_, ?_, inBraces,
      ?_⟩
    · rw [hplace]
      exact hstart
    · rw [hspan]
      exact Nat.lt_of_not_le hbefore
    · rw [hfrom]
      exact hagain

/-- Back at the start of a construct in the node that is being built, or of that node. -/
theorem Tidy.rewound (h : Tidy setting recovers .covered opening session)
    (hblamed : setting.Blamed session) (construct : Construct)
    (hstart : opening.start ≤ (tokens.headD setting.finish).span.start)
    (hstop : opening.stop ≤ (tokens.headD setting.finish).span.stop)
    (hbegun : session.building.StartsBy (tokens.headD setting.finish).span.start) :
    Rewound setting recovers opening
      (setting.reports .info (.whileParsing construct) (session.at tokens)) := by
  have hmoved : Sorted setting recovers opening (session.at tokens) :=
    ⟨h.building.ordered, h.building.span.startsFrom⟩
  refine ⟨hmoved.reported _ _, fun hrecovers inBraces => ?_⟩
  have hsuffix := resume_suffix inBraces tokens
  have hleads := setting.leads_of_suffix hsuffix
  have hlater : (tokens.headD setting.finish).span.start ≤
      ((resume inBraces tokens).headD setting.finish).span.start :=
    htokens.start_le hwhole hleads
  have hlaterStop : (tokens.headD setting.finish).span.stop ≤
      ((resume inBraces tokens).headD setting.finish).span.stop :=
    htokens.stop_le (Nat.le_of_eq hfinish) hwhole hleads
  refine ⟨⟨?_, Nat.le_trans hstart hlater, Nat.le_trans hstop hlaterStop, hbegun.mono hlater⟩,
    hblamed.clearAt hwhole hfinish hreads htokens construct hrecovers inBraces hstart
      (.of_le h.stop), ?_⟩
  · exact (htokens.suffix hsuffix).start_le_stop (Nat.le_of_eq hfinish)
  · intro span hspan
    obtain ⟨hlow, hhigh⟩ := h.building.span span hspan
    exact ⟨hlow, hblamed.clearAt hwhole hfinish hreads htokens construct hrecovers inBraces
      (hbegun span hspan) hhigh⟩

end

/-- Every session of a run is tidy. -/
def Solo.tidy (setting : Setting) (hended : setting.Ended) (hwhole : setting.Whole)
    (hfinish : setting.finish.span.start = setting.finish.span.stop) (recovers : Prop) : Solo where
  setting := setting
  ended := hended
  Frame := Span
  holds := Tidy setting recovers
  rewound := Rewound setting recovers
  astray := Astray setting recovers
  inside _ session := (setting.head session).span
  within opening tokens := opening.start ≤ (tokens.headD setting.finish).span.start ∧
    opening.stop ≤ (tokens.headD setting.finish).span.stop
  begins span tokens := span.start ≤ (tokens.headD setting.finish).span.start
  within_ahead h := ⟨h.start, h.stop⟩
  within_suffix hreads h hsuffix :=
    have hleads := setting.leads_of_suffix hsuffix
    ⟨Nat.le_trans h.1 (hreads.start_le hwhole hleads),
      Nat.le_trans h.2 (hreads.stop_le (Nat.le_of_eq hfinish) hwhole hleads)⟩
  begins_ahead h := h.begun _
  begins_suffix hreads h hsuffix :=
    Nat.le_trans h (hreads.start_le hwhole (setting.leads_of_suffix hsuffix))
  begins_wider h hle := Nat.le_trans hle h
  lost _ := False
  lost_reported _ hlost := hlost
  loosen h := h.loosen
  loosest h := h.loosest
  note imprint _ h _ := h.noted imprint
  label _ h := ⟨h.toUnderway.built h.begun, h.building.labelled _⟩
  slot := by
    intro n s hreads h hkind
    unfold Comparison.slotted
    rw [hreads.separator_span hended hkind]
    exact h.loosest.widen h.start (Nat.le_refl _) (Nat.le_refl _)
  shorten hreads h hgreater := h.shortened hwhole hfinish hreads hgreater
  behind hreads h hne hsuffix := h.behind hwhole hfinish hreads hne hsuffix
  onward hreads h hsuffix := h.onward hwhole hfinish hreads hsuffix
  opened kind _ h := h.opened kind
  closed hphase _ h hadvance hafter := h.closed hphase hadvance hafter
  rewound_closed hphase _ h hadvance hafter := Rewound.closed hphase h hadvance hafter
  astray_closed hphase _ h hadvance hafter := Astray.closed hphase h hadvance hafter
  report severity message _ _ h := h.reported severity message
  rewind construct hwithin hbegins htokens hreads h hblamed :=
    .inr (.inr (h.rewound hwhole hfinish hreads htokens hblamed construct hwithin.1 hwithin.2
      hbegins))
  reach := by
    intro p n s s₀ token tokens hreads₀ h₀ hsuffix hreads h hleads
    have htoken := hreads₀.suffix hsuffix
    have hlow := h₀.start_le hwhole hreads₀ hsuffix
    rcases hleads with hleads | ⟨rfl, hahead⟩
    · have hstop := htoken.stop_le_behind hwhole hleads
      exact h.widen hlow (Nat.le_trans (Nat.le_of_lt htoken.start_lt_stop) hstop)
        (Nat.le_trans hstop (Phase.start_le_outer h.next))
    · have hhead := setting.head_cons hahead.symm
      have hstart : token.span.start = (setting.head s).span.start := by rw [hhead]
      have hstop : token.span.stop = (setting.head s).span.stop := by rw [hhead]
      exact h.widen hlow (Nat.le_of_eq hstart) (Nat.le_of_eq hstop)
  rewound_reach hreads₀ h₀ hsuffix hkind _ h hleads :=
    have hlow := h₀.start_le hwhole hreads₀ hsuffix
    ⟨h.toSorted.widen hlow, fun hrecovers inBraces =>
      have hbrace := (hreads₀.suffix hsuffix).brace_le hwhole hkind hleads inBraces
      (h.resumes hrecovers inBraces).widen hlow hbrace.1 hbrace.2⟩
  astray_reach hreads₀ h₀ hsuffix hkind _ h hleads :=
    have hlow := h₀.start_le hwhole hreads₀ hsuffix
    ⟨h.toSorted.widen hlow, fun hrecovers inBraces =>
      have hbrace := (hreads₀.suffix hsuffix).brace_le hwhole hkind hleads inBraces
      (h.resumes hrecovers inBraces).widen hlow hbrace.1 hbrace.2⟩

theorem Solo.tidy_resumes (setting : Setting) (hended : setting.Ended) (hwhole : setting.Whole)
    (hfinish : setting.finish.span.start = setting.finish.span.stop) {recovers : Prop}
    (hrecovers : recovers) : (Solo.tidy setting hended hwhole hfinish recovers).Resumes :=
  ⟨fun inBraces _ h => (h.resumes hrecovers inBraces).toTidy⟩

end Grammar

namespace Entry

open Grammar

/-- The tree of a run is ordered, but for text that is read again where the entry recovers. -/
theorem session_ordered (entry : Entry) (options : Options) (source : Source) :
    (entry.session options source).building.Ordered
      ((entry.setting options source).rereading (entry.recovers = true)
        (entry.session options source)) := by
  have hwhole : (entry.setting options source).Whole := Nat.le_max_right _ _
  have hfirst : Tidy (entry.setting options source) (entry.recovers = true) .settled
      ((entry.setting options source).head
        ⟨source.tokensFrom entry.start, {}, .empty .undefined⟩).span
      ⟨source.tokensFrom entry.start, {}, .empty .undefined⟩ :=
    ⟨⟨Setting.Reads.start_le_stop (Nat.le_refl _) ⟨_, rfl⟩, Nat.le_refl _, Nat.le_refl _,
      by rintro span ⟨⟩⟩, .empty _⟩
  obtain ⟨opening, hlast⟩ : ∃ opening,
      Tidy (entry.setting options source) (entry.recovers = true) .covered opening
        (entry.session options source) ∨
      Astray (entry.setting options source) (entry.recovers = true) opening
        (entry.session options source) := by
    let I := Solo.tidy (entry.setting options source) rfl hwhole rfl (entry.recovers = true)
    by_cases hrecovers : entry.recovers = true
    · have hresumes := Solo.tidy_resumes (entry.setting options source) rfl hwhole rfl hrecovers
      exact ⟨_, (I.entry_holds entry options.maxDepth ⟨entry.start, rfl⟩ hfirst).resolve_left id⟩
    · have hhalts := Bool.eq_false_iff.mpr hrecovers
      exact ⟨_, (I.entry_halted hhalts options.maxDepth ⟨entry.start, rfl⟩ hfirst).resolve_left id⟩
  rcases hlast with htidy | hastray
  · exact htidy.building.ordered
  · exact hastray.ordered

theorem root_ordered (entry : Entry) (options : Options) (source : Source) :
    (entry.parse options source).root.Ordered
      ((entry.parse options source).diagnostics.rereading source (entry.recovers = true)) := by
  have hsession := entry.session_ordered options source
  change ((entry.session options source).building.children.headD _).Ordered _
  cases hchildren : (entry.session options source).building.children with
  | nil => exact .empty _
  | cons child rest => exact hsession.nodes child (hchildren ▸ List.mem_cons_self)

/-- Where nothing but warnings is reported no text is read again. -/
theorem siblings_of_quiet (entry : Entry) (options : Options) (source : Source)
    (hquiet : (entry.session options source).faults = []) :
    ∀ node ∈ (entry.parse options source).root.descendants,
      (node.children.filterMap (·.span)).Pairwise Span.Precedes := by
  intro node hmem
  refine ((entry.root_ordered options source).descendant node hmem).siblings.imp fun hapart => ?_
  refine hapart.resolve_right ?_
  rintro ⟨-, hagain⟩
  obtain ⟨note, hnote, hseverity⟩ := hagain.note
  have hfault : note ∈ (entry.session options source).faults :=
    List.mem_filter.mpr ⟨hnote, by simp [hseverity]⟩
  exact absurd (hquiet ▸ hfault) List.not_mem_nil

/-- Whatever a source holds, the children of each node of its tree stand in order and apart from
each other, unless the entry recovers and the second of two starts in text that is read again after
the first one starts. -/
theorem parse_ordered (entry : Entry) (options : Options) (source : Source) :
    ∀ node ∈ (entry.parse options source).root.descendants,
      (node.children.filterMap (·.span)).Pairwise fun first second =>
        first.Precedes second ∨ entry.recovers = true ∧
          (entry.parse options source).diagnostics.ReadsAgain source first.start second.start :=
  fun node hmem => ((entry.root_ordered options source).descendant node hmem).siblings

/-- The initializer of the first variable is not closed, so it covers the second one, which is read
again; the second and the third variable do not overlap. -/
theorem parse_ordered_openInitializer :
    let source : Source := ['i', 'n', 't', ' ', 'x', ' ', '=', ' ', '(', '1', ';', ' ', 'i', 'n', 't',
      ' ', 'y', ';', ' ', 'i', 'n', 't', ' ', 'z', ';']
    let outcome := script.parse {} source
    outcome.root.children.filterMap (·.span) = [⟨0, 25⟩, ⟨12, 18⟩, ⟨19, 25⟩] ∧
      outcome.diagnostics.ReadsAgain source 0 12 ∧ (⟨12, 18⟩ : Span).Precedes ⟨19, 25⟩ := by
  intro source outcome
  have hspans : outcome.root.children.filterMap (·.span) = [⟨0, 25⟩, ⟨12, 18⟩, ⟨19, 25⟩] := by
    decide +kernel
  have hroot : outcome.root ∈ outcome.root.descendants := by
    rw [Node.descendants_eq]
    exact List.mem_cons_self
  have hordered := parse_ordered script {} source outcome.root hroot
  rw [hspans] at hordered
  obtain ⟨hfirst, hrest⟩ := List.pairwise_cons.mp hordered
  have hagain := hfirst ⟨12, 18⟩ List.mem_cons_self
  have hapart := (List.pairwise_cons.mp hrest).1 ⟨19, 25⟩ List.mem_cons_self
  refine ⟨hspans, (hagain.resolve_left (by decide)).2, hapart.resolve_right ?_⟩
  rintro ⟨-, hagain⟩
  exact absurd hagain (by decide +kernel)

/-- An initializer that the source ends in is read twice: it covers the declaration behind it. -/
theorem siblings_overlap :
    ¬∀ (entry : Entry) (options : Options) (source : Source),
      ∀ node ∈ (entry.parse options source).root.descendants,
        (node.children.filterMap (·.span)).Pairwise Span.Precedes := by
  intro hordered
  have hspans : (Entry.script.parse {} ['i', 'n', 't', ' ', 'x', ' ', '=', ' ', '(', '1', ';', ' ',
      'i', 'n', 't', ' ', 'y', ';']).root.children.filterMap (·.span) = [⟨0, 18⟩, ⟨12, 18⟩] := by
    decide +kernel
  have hroot := hordered .script {} ['i', 'n', 't', ' ', 'x', ' ', '=', ' ', '(', '1', ';', ' ',
      'i', 'n', 't', ' ', 'y', ';'] _ (by
    rw [Node.descendants_eq]
    exact List.mem_cons_self)
  rw [hspans] at hroot
  exact absurd hroot (by decide)

end Entry

end ScriptSyntax
