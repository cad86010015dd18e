import ScriptSyntax.Proofs.Layout

/-!
# Runs at another place

A text that stands behind another one, on lines of its own, is read in the same way as it is read
alone.  Every span is further on by the length of the text in front, every row by the number of its
lines, and the columns are the same, through errors and recoveries.
-/

namespace ScriptSyntax

/-! ## Rows and columns -/

namespace LineIndex

variable {source : Source} {offset : Nat}

theorem startsAfter_append (offset : Nat) (first second : Source) :
    startsAfter offset (first ++ second) =
      startsAfter offset first ++ startsAfter (offset + first.size) second := by
  induction first generalizing offset with
  | nil => rfl
  | cons c rest ih =>
      rw [List.cons_append, startsAfter, startsAfter, ih, Source.size_cons, ← Nat.add_assoc]
      split <;> rfl

theorem startsAfter_shifted (offset distance : Nat) (source : Source) :
    startsAfter (offset + distance) source = (startsAfter offset source).map (· + distance) := by
  induction source generalizing offset with
  | nil => rfl
  | cons c rest ih =>
      rw [startsAfter, startsAfter, Nat.add_right_comm, ih]
      split <;> rfl

theorem length_startsAfter (offset : Nat) (source : Source) :
    (startsAfter offset source).length = source.count '\n' := by
  induction source generalizing offset with
  | nil => rfl
  | cons c rest ih =>
      rw [startsAfter, List.count_cons]
      split
      · rename_i hbreak
        simp [ih, hbreak]
      · rename_i hother
        simp [ih, hother]

theorem le_of_mem_startsAfter {start : Nat} (h : start ∈ startsAfter offset source) :
    start ≤ offset + source.size := by
  induction source generalizing offset with
  | nil => cases h
  | cons c rest ih =>
      rw [startsAfter] at h
      rw [Source.size_cons]
      split at h
      · rcases List.mem_cons.mp h with rfl | hmem
        · omega
        · have hle := ih hmem
          omega
      · have hle := ih h
        omega

/-- Behind a line break a line starts. -/
theorem getLast?_startsAfter (hbreak : source.getLast? = some '\n') :
    (startsAfter offset source).getLast? = some (offset + source.size) := by
  obtain ⟨before, rfl⟩ := List.getLast?_eq_some_iff.mp hbreak
  have hlast (start : Nat) : startsAfter start ['\n'] = [start + 1] := rfl
  rw [startsAfter_append, hlast, List.getLast?_concat, Source.size_append]
  rfl

variable {passed behind : Source}

theorem lineStarts_append (passed behind : Source) :
    (ofSource (passed ++ behind)).lineStarts =
      (ofSource passed).lineStarts ++ (ofSource behind).lineStarts.map (· + passed.size) := by
  unfold ofSource
  rw [startsAfter_append, startsAfter_shifted 0 passed.size]

theorem le_size_of_mem_lineStarts {start : Nat} (h : start ∈ (ofSource passed).lineStarts) :
    start ≤ passed.size := by
  have hle := le_of_mem_startsAfter h
  omega

theorem row_append (offset : Nat) :
    (ofSource (passed ++ behind)).row (offset + passed.size) =
      (ofSource behind).row offset + passed.count '\n' := by
  have hpassed : (ofSource passed).lineStarts.countP (· ≤ offset + passed.size) =
      passed.count '\n' := by
    rw [List.countP_eq_length.mpr, ofSource, length_startsAfter]
    intro start hmem
    have hle := le_size_of_mem_lineStarts hmem
    simp only [decide_eq_true_eq]
    omega
  have hbehind : ((ofSource behind).lineStarts.map (· + passed.size)).countP
      (· ≤ offset + passed.size) = (ofSource behind).lineStarts.countP (· ≤ offset) := by
    rw [List.countP_map]
    congr 1
    funext start
    simp
  rw [row, row, lineStarts_append, List.countP_append, hpassed, hbehind]
  omega

/-- Behind a line break the columns are those of the text alone. -/
theorem column_append (hbreak : passed.getLast? = some '\n') (offset : Nat) :
    (ofSource (passed ++ behind)).column (offset + passed.size) =
      (ofSource behind).column offset := by
  have hpassed : (ofSource passed).lineStarts.filter (· ≤ offset + passed.size) =
      (ofSource passed).lineStarts := by
    refine List.filter_eq_self.mpr fun start hmem => ?_
    have hle := le_size_of_mem_lineStarts hmem
    simp only [decide_eq_true_eq]
    omega
  have hbehind : ((ofSource behind).lineStarts.map (· + passed.size)).filter
      (· ≤ offset + passed.size) =
        ((ofSource behind).lineStarts.filter (· ≤ offset)).map (· + passed.size) := by
    rw [List.filter_map]
    congr 2
    funext start
    simp
  have hlast : (ofSource passed).lineStarts.getLast? = some passed.size := by
    rw [ofSource, getLast?_startsAfter hbreak, Nat.zero_add]
  have hstart : (ofSource (passed ++ behind)).lineStart (offset + passed.size) =
      (ofSource behind).lineStart offset + passed.size := by
    rw [lineStart, lineStart, lineStarts_append, List.filter_append, hpassed, hbehind,
      List.getLast?_append, hlast, List.getLast?_map]
    cases ((ofSource behind).lineStarts.filter (· ≤ offset)).getLast? with
    | none => simp
    | some start => simp
  rw [column, column, exactColumn, exactColumn, hstart, Nat.add_sub_add_right]

end LineIndex

/-! ## Spans and trees further on -/

def Span.shifted (distance : Nat) (span : Span) : Span :=
  ⟨span.start + distance, span.stop + distance⟩

def Diagnostic.shifted (distance rows : Nat) (diagnostic : Diagnostic) : Diagnostic :=
  { diagnostic with span := diagnostic.span.shifted distance, row := diagnostic.row + rows }

namespace Node

mutual

/-- The tree, so many bytes further on. -/
def shifted (distance : Nat) : Node → Node
  | ⟨kind, token, span, children⟩ =>
      ⟨kind, token, span.map (Span.shifted distance), shiftedAll distance children⟩

def shiftedAll (distance : Nat) : List Node → List Node
  | [] => []
  | node :: rest => shifted distance node :: shiftedAll distance rest

end

theorem shiftedAll_eq (distance : Nat) (nodes : List Node) :
    shiftedAll distance nodes = nodes.map (shifted distance) := by
  induction nodes with
  | nil => rfl
  | cons node rest ih => rw [shiftedAll, ih, List.map_cons]

theorem shifted_eq (distance : Nat) (node : Node) :
    node.shifted distance = ⟨node.kind, node.token, node.span.map (Span.shifted distance),
      node.children.map (shifted distance)⟩ := by
  obtain ⟨kind, token, span, children⟩ := node
  rw [shifted, shiftedAll_eq]

variable {node child : Node} {span : Span} {token : Token} {distance : Nat}

theorem widen_shifted (hspan : 0 < span.stop) :
    (node.widen span).shifted distance = (node.shifted distance).widen (span.shifted distance) := by
  have hhull (first second : Span) :
      (first.hull second).shifted distance = (first.shifted distance).hull (second.shifted distance) := by
    simp [Span.hull, Span.shifted, Nat.add_min_add_right, Nat.add_max_add_right]
  have hsolid : span ≠ .nowhere := by
    rintro rfl
    exact absurd hspan (Nat.lt_irrefl 0)
  have hsolid' : span.shifted distance ≠ .nowhere := by
    intro heq
    have hstop := congrArg Span.stop heq
    change span.stop + distance = 0 at hstop
    omega
  unfold widen
  rw [if_neg hsolid, if_neg hsolid', shifted_eq, shifted_eq]
  cases hold : node.span with
  | none => simp
  | some old => simp [hhull]

theorem imprinted_shifted (htoken : 0 < token.span.stop) (imprint : Grammar.Imprint) :
    (node.imprinted token imprint).shifted distance =
      (node.shifted distance).imprinted (token.shifted distance) imprint := by
  cases imprint with
  | none => rfl
  | span => exact widen_shifted htoken
  | anchor =>
      unfold imprinted anchor
      dsimp only
      rw [widen_shifted htoken, shifted_eq, shifted_eq distance node]
      rfl

theorem append_shifted (hchild : child.Solid) :
    (node.append child).shifted distance =
      (node.shifted distance).append (child.shifted distance) := by
  have hchildren : ({ node with children := node.children ++ [child] } : Node).shifted distance =
      { node.shifted distance with
        children := (node.shifted distance).children ++ [child.shifted distance] } := by
    rw [shifted_eq, shifted_eq distance node]
    simp
  unfold append
  dsimp only
  rw [← hchildren]
  cases hspan : child.span with
  | none =>
      have hspan' : (child.shifted distance).span = none := by
        rw [shifted_eq, hspan]
        rfl
      rw [hspan']
      rfl
  | some span =>
      have hspan' : (child.shifted distance).span = some (span.shifted distance) := by
        rw [shifted_eq, hspan]
        rfl
      rw [hspan', Option.elim_some, Option.elim_some, widen_shifted (hchild span hspan)]

end Node

/-! ## Tokens further on -/

theorem Source.suffix?_append (passed source : Source) (offset : Nat) :
    (passed ++ source).suffix? (offset + passed.size) = source.suffix? offset := by
  refine Option.ext fun rest => ?_
  rw [Source.suffix?_eq_some_iff, Source.suffix?_eq_some_iff]
  constructor
  · rintro ⟨before, hsplit, hsize⟩
    rcases List.append_eq_append_iff.mp hsplit with ⟨more, rfl, hmore⟩ | ⟨more, rfl, hmore⟩
    · refine ⟨more, hmore, ?_⟩
      rw [Source.size_append] at hsize
      omega
    · rw [Source.size_append] at hsize
      cases more with
      | nil => exact ⟨[], hmore.symm, by rw [Source.size_nil]; omega⟩
      | cons c more =>
          have hpos := Source.size_pos (List.cons_ne_nil c more)
          omega
  · rintro ⟨before, rfl, hsize⟩
    refine ⟨passed ++ before, (List.append_assoc _ _ _).symm, ?_⟩
    rw [Source.size_append, hsize, Nat.add_comm]

theorem Source.tokensFrom_append (passed source : Source) (offset : Nat) :
    (passed ++ source).tokensFrom (offset + passed.size) =
      (source.tokensFrom offset).map (Token.shifted passed.size) := by
  cases hsuffix : source.suffix? offset with
  | none =>
      have hsuffix' := Source.suffix?_append passed source offset
      rw [hsuffix] at hsuffix'
      simp [Source.tokensFrom, hsuffix, hsuffix']
  | some rest =>
      rw [Source.tokensFrom_of_suffix? hsuffix,
        Source.tokensFrom_of_suffix? ((Source.suffix?_append _ _ _).trans hsuffix),
        Source.tokensAt_shifted]

namespace Grammar

/-- The setting of a text, and that of the same text behind another one. -/
structure Relocation where
  left : Setting
  right : Setting
  passed : Source
  source_eq : right.source = passed ++ left.source
  breaks : passed.getLast? = some '\n'
  there : left.source ≠ []
  options_eq : right.options = left.options
  application_eq : right.application = left.application
  lines_eq : left.lines = .ofSource left.source
  lines_eq' : right.lines = .ofSource right.source
  finish_eq : left.finish = .endAt left.source.size
  finish_eq' : right.finish = .endAt right.source.size

namespace Relocation

variable (M : Relocation) {tokens others : List Token} {token : Token} {s t : Session}

/-- How much further on the text stands. -/
abbrev distance : Nat :=
  M.passed.size

/-- How many lines are in front of the text. -/
abbrev rows : Nat :=
  M.passed.count '\n'

theorem finish_shifted : M.right.finish = M.left.finish.shifted M.distance := by
  rw [M.finish_eq, M.finish_eq', M.source_eq, Source.size_append, Nat.add_comm]
  rfl

theorem headD_shifted :
    (tokens.map (Token.shifted M.distance)).headD M.right.finish =
      (tokens.headD M.left.finish).shifted M.distance := by
  cases tokens with
  | nil => exact M.finish_shifted
  | cons token rest => rfl

theorem stop_pos (h : M.left.Reads tokens) : 0 < (tokens.headD M.left.finish).span.stop := by
  cases tokens with
  | nil =>
      rw [List.headD_nil, M.finish_eq]
      exact Source.size_pos M.there
  | cons token rest => exact Nat.zero_lt_of_lt h.start_lt_stop

theorem byteCount_shifted (distance : Nat) (tokens : List Token) :
    byteCount (tokens.map (Token.shifted distance)) = byteCount tokens := by
  induction tokens with
  | nil => rfl
  | cons token rest ih =>
      rw [List.map_cons, byteCount_cons, byteCount_cons, ih]
      unfold Span.length Token.shifted
      rw [Nat.add_sub_add_right]

theorem reads_shifted (h : M.left.Reads tokens) :
    M.right.Reads (tokens.map (Token.shifted M.distance)) := by
  obtain ⟨offset, rfl⟩ := h
  exact ⟨offset + M.distance, by rw [M.source_eq, Source.tokensFrom_append]⟩

/-- Each token stands for itself, further on. -/
def correspondence : Correspondence where
  left := M.left
  right := M.right
  pairs tokens others := M.left.Reads tokens ∧ others = tokens.map (Token.shifted M.distance)
  options_eq := M.options_eq
  application_eq := M.application_eq
  ended := by
    unfold Setting.Ended
    rw [M.finish_eq]
    rfl
  finish := by
    rw [M.finish_shifted]
    exact ⟨rfl, rfl⟩
  reads := by
    rintro tokens _ ⟨hreads, rfl⟩
    exact ⟨hreads, M.reads_shifted hreads⟩
  nil := ⟨⟨M.left.source.size, (Source.tokensFrom_of_size_le (Nat.le_refl _)).symm⟩, rfl⟩
  nil_iff := by
    rintro tokens _ ⟨-, rfl⟩
    exact List.map_eq_nil_iff
  heads := by
    rintro token other tokens others ⟨-, heq⟩
    obtain ⟨rfl, -⟩ := List.cons.inj heq
    exact ⟨rfl, rfl⟩
  tails := by
    rintro tokens _ ⟨hreads, rfl⟩
    exact ⟨hreads.tail, List.map_tail.symm⟩
  greater := by
    rintro tokens _ ⟨hreads, rfl⟩
    cases tokens with
    | nil => exact .none
    | cons token rest =>
        have hright := M.reads_shifted hreads
        rw [List.map_cons] at hright ⊢
        rw [hreads.afterGreater?, hright.afterGreater?]
        by_cases hkind : token.kind.startsWithGreater = true
        · have hnext : M.right.source.tokensFrom (token.span.start + M.distance + 1) =
              (M.left.source.tokensFrom (token.span.start + 1)).map (Token.shifted M.distance) := by
            rw [M.source_eq, ← Source.tokensFrom_append, Nat.add_right_comm]
          rw [if_pos hkind, if_pos (show (token.shifted M.distance).kind.startsWithGreater = true from hkind)]
          exact .some ⟨⟨_, rfl⟩, hnext⟩
        · rw [if_neg hkind, if_neg (show ¬(token.shifted M.distance).kind.startsWithGreater = true from hkind)]
          exact .none
  bytes := by
    rintro tokens _ ⟨-, rfl⟩
    exact byteCount_shifted _ _

variable {M}

theorem head_shifted (hahead : t.ahead = s.ahead.map (Token.shifted M.distance)) :
    M.right.head t = (M.left.head s).shifted M.distance := by
  unfold Setting.head
  rw [hahead]
  exact M.headD_shifted

variable (M)

/-- The node that is being built is the same one further on, or it has been begun in front of the
text and has children there. -/
def Placed (prior : Option (List Node)) (building building' : Node) : Prop :=
  match prior with
  | none => building' = building.shifted M.distance
  | some children =>
      building'.children = children ++ building.children.map (Node.shifted M.distance)

/-- The sessions are the same apart from where the text stands and what was reported in front of
it. -/
structure Moved (before : List Diagnostic) (prior : Option (List Node)) (s t : Session) : Prop where
  building : M.Placed prior s.building t.building
  solid : s.building.Solid
  reports : t.diagnostics.reported =
    before ++ s.diagnostics.reported.map (Diagnostic.shifted M.distance M.rows)

namespace Moved

variable {M} {before : List Diagnostic} {prior : Option (List Node)} {span : Span}

theorem imprinted (h : M.Moved before prior s t) (htoken : 0 < token.span.stop) (imprint : Imprint) :
    M.Moved before prior { s with building := s.building.imprinted token imprint }
      { t with building := t.building.imprinted (token.shifted M.distance) imprint } := by
  have hsolid : (s.building.imprinted token imprint).Solid := by
    cases imprint with
    | none => exact h.solid
    | span => exact h.solid.widen (.inl htoken)
    | anchor =>
        have hmarked : ({ s.building with token := some token.kind } : Node).Solid := h.solid
        exact hmarked.widen (.inl htoken)
  have hchildren (node : Node) (token : Token) :
      (node.imprinted token imprint).children = node.children := by
    cases imprint with
    | none => rfl
    | span => exact Node.children_widen _ _
    | anchor => exact Node.children_widen _ _
  refine ⟨?_, hsolid, h.reports⟩
  have hbuilding := h.building
  cases prior with
  | none =>
      unfold Placed at hbuilding ⊢
      dsimp only at hbuilding ⊢
      rw [hbuilding, Node.imprinted_shifted htoken]
  | some children =>
      unfold Placed at hbuilding ⊢
      dsimp only at hbuilding ⊢
      rw [hchildren, hchildren, hbuilding]

theorem widen (h : M.Moved before prior s t) (hspan : 0 < span.stop) :
    M.Moved before prior { s with building := s.building.widen span }
      { t with building := t.building.widen (span.shifted M.distance) } :=
  @imprinted M ⟨.endOfSource, span, ""⟩ s t before prior h hspan .span

/-- The first byte of the next token leaves its span. -/
theorem shortened (h : M.Moved before prior s t)
    (hahead : t.ahead = s.ahead.map (Token.shifted M.distance)) :
    M.Moved before prior
      { s with building := s.building.widen (.ofLength (M.left.head s).span.start 1) }
      { t with building := t.building.widen (.ofLength (M.right.head t).span.start 1) } := by
  have hbyte : Span.ofLength (M.right.head t).span.start 1 =
      (Span.ofLength (M.left.head s).span.start 1).shifted M.distance := by
    rw [head_shifted hahead]
    exact congrArg (Span.mk _) (Nat.add_right_comm _ _ _)
  rw [hbyte]
  exact h.widen (Nat.succ_pos _)

theorem labelled (h : M.Moved before prior s t) (kind : TokenKind) :
    M.Moved before prior { s with building := { s.building with token := some kind } }
      { t with building := { t.building with token := some kind } } := by
  refine ⟨?_, h.solid, h.reports⟩
  have hbuilding := h.building
  cases prior with
  | none =>
      unfold Placed at hbuilding ⊢
      dsimp only at hbuilding ⊢
      rw [hbuilding, Node.shifted_eq, Node.shifted_eq]
  | some children => exact hbuilding

theorem moved (h : M.Moved before prior s t) (tokens others : List Token) :
    M.Moved before prior (s.at tokens) (t.at others) :=
  ⟨h.building, h.solid, h.reports⟩

theorem opened (h : M.Moved before prior s t) (kind : NodeKind) :
    M.Moved before none (s.opened kind) (t.opened kind) := by
  refine ⟨rfl, ?_, h.reports⟩
  rintro span ⟨⟩

theorem closed {after other : Session} (h : M.Moved before prior s t)
    (hafter : M.Moved before none after other) :
    M.Moved before prior (s.closed after) (t.closed other) := by
  have hchild : other.building = after.building.shifted M.distance := hafter.building
  refine ⟨?_, h.solid.append hafter.solid, hafter.reports⟩
  have hbuilding := h.building
  unfold Session.closed
  cases prior with
  | none =>
      unfold Placed at hbuilding ⊢
      dsimp only at hbuilding ⊢
      rw [hbuilding, hchild, Node.append_shifted hafter.solid]
  | some children =>
      unfold Placed at hbuilding ⊢
      dsimp only at hbuilding ⊢
      rw [Node.children_append, Node.children_append, hbuilding, hchild]
      simp

theorem reported (h : M.Moved before prior s t)
    (hahead : t.ahead = s.ahead.map (Token.shifted M.distance)) (severity : Severity)
    {message message' : Message} (htext : message'.text = message.text) :
    M.Moved before prior (M.left.reports severity message s)
      (M.right.reports severity message' t) := by
  refine ⟨h.building, h.solid, ?_⟩
  have hhead := head_shifted hahead
  have hrow : M.right.lines.row ((M.left.head s).span.start + M.distance) =
      M.left.lines.row (M.left.head s).span.start + M.rows := by
    rw [M.lines_eq, M.lines_eq', M.source_eq]
    exact LineIndex.row_append _
  have hcolumn : M.right.lines.column ((M.left.head s).span.start + M.distance) =
      M.left.lines.column (M.left.head s).span.start := by
    rw [M.lines_eq, M.lines_eq', M.source_eq]
    exact LineIndex.column_append M.breaks _
  change t.diagnostics.reported ++ [_] = before ++ List.map _ (_ ++ [_])
  rw [h.reports, List.map_append, List.append_assoc, hhead, htext]
  congr 2
  rw [List.map_singleton, List.cons.injEq]
  refine ⟨?_, rfl⟩
  change Diagnostic.mk _ _ _ _ _ = Diagnostic.mk _ _ _ _ _
  congr 1

end Moved

/-- Runs over the same text at two places. -/
def lockstep (before : List Diagnostic) : Lockstep where
  toCorrespondence := M.correspondence
  Frame := Option (List Node)
  holds _ := M.Moved before
  rewound _ _ _ := False
  astray _ _ _ := False
  inside _ _ := none
  within _ _ := True
  begins _ _ := True
  within_ahead _ := trivial
  within_suffix _ _ _ := trivial
  begins_ahead _ _ := trivial
  begins_suffix _ _ _ := trivial
  begins_wider _ _ := trivial
  lost _ := False
  lost_reported _ h := h
  loosen := id
  loosest := id
  note := by
    rintro p n s t imprint ⟨hreads, hahead⟩ h -
    have hnoted := h.imprinted (M.stop_pos hreads) imprint
    unfold Setting.noted
    rw [show M.correspondence.right.head t = _ from head_shifted hahead]
    exact hnoted
  label := by
    rintro n s t ⟨hreads, hahead⟩ h
    unfold Setting.labelled
    rw [show M.correspondence.right.head t = _ from head_shifted hahead]
    exact h.labelled _
  slot := by
    rintro n s t ⟨-, hahead⟩ h -
    exact h.shortened hahead
  shorten := by
    rintro n s t tokens others ⟨-, hahead⟩ h - -
    exact (h.shortened hahead).moved tokens others
  behind _ h _ _ _ := h.moved _ _
  onward _ h _ _ := h.moved _ _
  opened kind _ h := h.opened kind
  closed _ _ h _ hafter := h.closed hafter
  rewound_closed _ _ _ _ _ h := h
  astray_closed _ _ _ _ _ h := h
  report severity message message' _ htext hpairs h := h.reported hpairs.2 severity htext
  rewind := by
    rintro n s t tokens others construct - - ⟨-, hahead⟩ - h -
    exact .inr (.inl ((h.moved tokens others).reported hahead .info rfl))
  rewound_reach _ _ _ _ _ _ h _ := h
  astray_reach _ _ _ _ _ _ h _ := h
  reach := by
    rintro p n s t s₀ t₀ token tokens other others h₀ hpairs₀ hsuffix ⟨hreads, heq⟩ hpairs h hleads
    obtain ⟨rfl, -⟩ := List.cons.inj heq
    exact h.widen (Nat.zero_lt_of_lt hreads.start_lt_stop)

instance (before : List Diagnostic) : (M.lockstep before).Resumes :=
  ⟨fun _ _ h => h.elim⟩

end Relocation

end Grammar

end ScriptSyntax
