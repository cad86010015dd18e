import Mathlib.Order.Bounds.Basic
import ScriptSyntax.Proofs.TreeSpans

/-!
# Spans are hulls

Whatever is done to a node, its span is the least one over the spans it received: those it was
widened over, those of the tokens it was anchored on and those of the children put under it.  What
is rolled back is as if it had never been received.
-/

namespace ScriptSyntax

/-! ## Changes -/

/-- A change of a node.  An attempt is a checkpoint, the changes behind it and the rollback to it,
so attempts within an attempt are rolled back before it. -/
inductive Change
  | anchor (token : Token)
  | setToken (kind : TokenKind)
  | setKind (kind : NodeKind)
  | widen (span : Span)
  | append (child : Node)
  | attempt (changes : List Change)

namespace Change

/-- The spans that a change gives to the node, for good. -/
def spans : Change → List Span
  | anchor token => [token.span]
  | widen span => [span]
  | append child => child.span.toList
  | _ => []

def child? : Change → Option Node
  | append child => some child
  | _ => none

end Change

/-- A step in the building of a node: a change, or its last child is taken away.  No child is taken
away within an attempt. -/
inductive Edit
  | change (made : Change)
  | pop

def Edit.spans : Edit → List Span
  | .change made => made.spans
  | .pop => []

/-- How a node is begun. -/
inductive Origin
  | new (kind : NodeKind)
  | ofToken (kind : NodeKind) (token : Token)

namespace Origin

def node : Origin → Node
  | new kind => .empty kind
  | ofToken kind token => .ofToken kind token

def spans : Origin → List Span
  | new _ => []
  | ofToken _ token => [token.span]

end Origin

namespace Node

mutual

def change (node : Node) : Change → Node
  | .anchor token => node.anchor token
  | .setToken kind => { node with token := some kind }
  | .setKind kind => { node with kind := kind }
  | .widen span => node.widen span
  | .append child => node.append child
  | .attempt changes => ((node.changes changes).rollback node.checkpoint).2

def changes (node : Node) : List Change → Node
  | [] => node
  | change :: rest => (node.change change).changes rest

end

def edit (node : Node) : Edit → Node
  | .change made => node.change made
  | .pop => node.pop.2

/-- The node can be built. -/
def Built (node : Node) : Prop :=
  ∃ (origin : Origin) (edits : List Edit), edits.foldl Node.edit origin.node = node

end Node

/-- The least span over those that carry a position, if there is one. -/
def HullOf (received : List Span) : Option Span → Prop
  | none => ∀ span ∈ received, span = .nowhere
  | some hull =>
      IsLeast (Span.start '' {span | span ∈ received ∧ span ≠ .nowhere}) hull.start ∧
        IsGreatest (Span.stop '' {span | span ∈ received ∧ span ≠ .nowhere}) hull.stop

namespace HullOf

variable {received others : List Span} {span : Span} {found : Option Span}

theorem singleton (h : span ≠ .nowhere) : HullOf [span] (some span) := by
  refine ⟨⟨⟨span, ⟨List.mem_singleton_self span, h⟩, rfl⟩, ?_⟩,
    ⟨⟨span, ⟨List.mem_singleton_self span, h⟩, rfl⟩, ?_⟩⟩
  · rintro _ ⟨other, ⟨hmem, -⟩, rfl⟩
    rw [List.mem_singleton.mp hmem]
  · rintro _ ⟨other, ⟨hmem, -⟩, rfl⟩
    rw [List.mem_singleton.mp hmem]

/-- Only the spans with a position count. -/
theorem congr (h : HullOf received found)
    (hsame : ∀ span, span ≠ .nowhere → (span ∈ received ↔ span ∈ others)) :
    HullOf others found := by
  have hset : {span | span ∈ others ∧ span ≠ .nowhere} =
      {span | span ∈ received ∧ span ≠ .nowhere} := by
    ext span
    exact and_congr_left fun hplaced => (hsame span hplaced).symm
  cases found with
  | none =>
      intro span hmem
      by_contra hplaced
      exact hplaced (h span ((hsame span hplaced).mpr hmem))
  | some hull =>
      unfold HullOf
      rw [hset]
      exact h

theorem contains (h : HullOf received found) (hmem : span ∈ received) (hplaced : span ≠ .nowhere) :
    ∃ hull, found = some hull ∧ hull.Contains span := by
  cases found with
  | none => exact absurd (h span hmem) hplaced
  | some hull =>
      exact ⟨hull, rfl, h.1.2 ⟨span, ⟨hmem, hplaced⟩, rfl⟩, h.2.2 ⟨span, ⟨hmem, hplaced⟩, rfl⟩⟩

theorem unique {first second : Option Span} (h : HullOf received first)
    (hsecond : HullOf received second) : first = second := by
  cases first with
  | none =>
      cases second with
      | none => rfl
      | some hull =>
          obtain ⟨span, ⟨hmem, hplaced⟩, -⟩ := hsecond.1.1
          exact absurd (h span hmem) hplaced
  | some hull =>
      cases second with
      | none =>
          obtain ⟨span, ⟨hmem, hplaced⟩, -⟩ := h.1.1
          exact absurd (hsecond span hmem) hplaced
      | some other =>
          have hstart := h.1.unique hsecond.1
          have hstop := h.2.unique hsecond.2
          cases hull
          cases other
          simp_all

/-- A hull is never at no position, since one of the spans would be. -/
theorem ne_nowhere (h : HullOf received found) : found ≠ some .nowhere := by
  rintro rfl
  obtain ⟨first, ⟨hfirst, hplaced⟩, hstart⟩ := h.1.1
  have hstop := h.2.2 ⟨first, ⟨hfirst, hplaced⟩, rfl⟩
  refine hplaced ?_
  obtain ⟨start, stop⟩ := first
  have hzero : start = 0 := hstart
  have hend : stop ≤ 0 := hstop
  rw [hzero, Nat.le_zero.mp hend]
  rfl

/-- A span without a position changes nothing; any other widens the hull. -/
theorem widen {node : Node} (h : HullOf received node.span) (span : Span) :
    HullOf (received ++ [span]) (node.widen span).span := by
  by_cases hspan : span = .nowhere
  · rw [Node.widen, if_pos hspan]
    refine h.congr fun other hplaced => ?_
    rw [List.mem_append, List.mem_singleton, hspan]
    exact (or_iff_left hplaced).symm
  · rw [Node.widen, if_neg hspan]
    cases hold : node.span with
    | none =>
        rw [hold] at h
        refine (singleton hspan).congr fun other hplaced => ?_
        rw [List.mem_append]
        exact (or_iff_right fun hmem => hplaced (h other hmem)).symm
    | some old =>
        rw [hold] at h
        have hset : {other | other ∈ received ++ [span] ∧ other ≠ .nowhere} =
            insert span {other | other ∈ received ∧ other ≠ .nowhere} := by
          ext other
          simp only [List.mem_append, List.mem_singleton, Set.mem_ofPred_eq, Set.mem_insert_iff]
          grind
        unfold HullOf
        dsimp only [Option.elim_some]
        rw [hset, Set.image_insert_eq, Set.image_insert_eq]
        refine ⟨?_, ?_⟩
        · rw [Span.hull, min_comm]
          exact h.1.insert span.start
        · rw [Span.hull, max_comm]
          exact h.2.insert span.stop

end HullOf

/-! ## What a change keeps -/

namespace Node

variable {node child : Node} {received : List Span}

mutual

/-- The children of a node are put behind those that it has. -/
theorem children_change : ∀ (node : Node) (made : Change),
    (node.change made).children = node.children ++ made.child?.toList
  | node, .anchor token => by
      rw [change, anchor, children_widen]
      exact (List.append_nil _).symm
  | node, .setToken kind => (List.append_nil _).symm
  | node, .setKind kind => (List.append_nil _).symm
  | node, .widen span => by
      rw [change, children_widen]
      exact (List.append_nil _).symm
  | node, .append child => children_append node child
  | node, .attempt changes => by
      rw [change]
      change (node.changes changes).children.take node.children.length = _
      rw [children_changes node changes, List.take_left]
      exact (List.append_nil _).symm

theorem children_changes : ∀ (node : Node) (made : List Change),
    (node.changes made).children = node.children ++ made.filterMap Change.child?
  | node, [] => by
      rw [changes]
      exact (List.append_nil _).symm
  | node, first :: rest => by
      rw [changes, children_changes (node.change first) rest, children_change node first,
        List.append_assoc, List.filterMap_cons]
      cases first.child? <;> rfl

end

/-- A rollback answers the children that came after the checkpoint, and leaves those that were there
with the span that was there. -/
theorem rollback_changes (node : Node) (made : List Change) :
    (node.changes made).rollback node.checkpoint =
      (made.filterMap Change.child?,
        { node.changes made with children := node.children, span := node.span }) := by
  unfold rollback checkpoint
  dsimp only
  rw [children_changes, List.drop_left, List.take_left]

theorem span_attempt (node : Node) (made : List Change) :
    (node.change (.attempt made)).span = node.span := by
  rw [change, rollback_changes]

/-! ## Runs of edits -/

theorem hull_edit (h : HullOf received node.span) (edit : Edit) :
    HullOf (received ++ edit.spans) (node.edit edit).span := by
  have hkept : HullOf (received ++ []) node.span := by rwa [List.append_nil]
  cases edit with
  | pop => exact hkept
  | change made =>
      cases made with
      | anchor token =>
          have hanchored : HullOf received ({ node with token := some token.kind } : Node).span := h
          exact hanchored.widen token.span
      | setToken kind => exact hkept
      | setKind kind => exact hkept
      | widen span => exact h.widen span
      | append child =>
          change HullOf (received ++ child.span.toList) (node.append child).span
          rw [span_append]
          cases child.span with
          | none => exact hkept
          | some span => exact h.widen span
      | attempt made =>
          rw [Node.edit, span_attempt]
          exact hkept

theorem hull_edits (h : HullOf received node.span) (edits : List Edit) :
    HullOf (received ++ edits.flatMap Edit.spans) (edits.foldl Node.edit node).span := by
  induction edits generalizing node received with
  | nil => rwa [List.flatMap_nil, List.append_nil]
  | cons edit rest ih =>
      rw [List.flatMap_cons, ← List.append_assoc, List.foldl_cons]
      exact ih (hull_edit h edit)

theorem hull_origin (origin : Origin) : HullOf origin.spans origin.node.span := by
  have hempty (kind : NodeKind) : HullOf [] (empty kind).span := by
    rintro span ⟨⟩
  cases origin with
  | new kind => exact hempty kind
  | ofToken kind token => exact hull_edit (hempty kind) (.change (.anchor token))

/-- A node that can be built has no span without a position. -/
theorem Built.span_ne (h : node.Built) : node.span ≠ some .nowhere := by
  obtain ⟨origin, edits, rfl⟩ := h
  exact (hull_edits (hull_origin origin) edits).ne_nowhere

theorem mem_children_edit {edit : Edit} (hmem : child ∈ (node.edit edit).children) :
    child ∈ node.children ∨ edit = .change (.append child) := by
  cases edit with
  | pop => exact .inl ((List.dropLast_sublist node.children).subset hmem)
  | change made =>
      rw [Node.edit, children_change, List.mem_append, Option.mem_toList] at hmem
      refine hmem.imp_right fun hchild => ?_
      cases made <;> simp_all [Change.child?]

theorem mem_children_edits {edits : List Edit}
    (hmem : child ∈ (edits.foldl Node.edit node).children) :
    child ∈ node.children ∨ .change (.append child) ∈ edits := by
  induction edits generalizing node with
  | nil => exact .inl hmem
  | cons edit rest ih =>
      rcases ih hmem with hfirst | hrest
      · rcases mem_children_edit hfirst with hold | rfl
        · exact .inl hold
        · exact .inr List.mem_cons_self
      · exact .inr (List.mem_cons_of_mem _ hrest)

theorem children_origin (origin : Origin) : origin.node.children = [] := by
  cases origin with
  | new kind => rfl
  | ofToken kind token => exact children_widen _ _

/-- The children of a node that was built are among those that were put under it for good. -/
theorem appended_of_mem {origin : Origin} {edits : List Edit}
    (hmem : child ∈ (edits.foldl Node.edit origin.node).children) :
    .change (.append child) ∈ edits := by
  refine (mem_children_edits hmem).resolve_left ?_
  rw [children_origin]
  exact List.not_mem_nil

/-- A node's span is the hull of the spans it received and kept, in whatever order they came; so it
contains the spans of its children.  A rollback answers the children put under the node since the
checkpoint, and leaves the children and the span that the checkpoint saw. -/
theorem edits_hull (origin : Origin) (edits : List Edit)
    (hbuilt : ∀ child, .change (.append child) ∈ edits → child.Built) :
    let node := edits.foldl Node.edit origin.node
    let received := origin.spans ++ edits.flatMap Edit.spans
    HullOf received node.span ∧
      (∀ spans found, spans.Perm received → HullOf spans found → found = node.span) ∧
      (∀ child ∈ node.children, ∀ span, child.span = some span →
        ∃ outer, node.span = some outer ∧ outer.Contains span) ∧
      ∀ made : List Change,
        (node.changes made).children = node.children ++ made.filterMap Change.child? ∧
        (node.changes made).rollback node.checkpoint =
          (made.filterMap Change.child?,
            { node.changes made with children := node.children, span := node.span }) := by
  intro node received
  have hhull : HullOf received node.span := hull_edits (hull_origin origin) edits
  refine ⟨hhull, fun spans found hperm hfound => ?_, fun child hmem span hspan => ?_,
    fun made => ⟨children_changes node made, rollback_changes node made⟩⟩
  · exact (hfound.congr fun span _ => hperm.mem_iff).unique hhull
  · have happended : .change (.append child) ∈ edits := appended_of_mem hmem
    have hreceived : span ∈ received := by
      refine List.mem_append_right _ (List.mem_flatMap.mpr ⟨_, happended, ?_⟩)
      exact Option.mem_toList.mpr hspan
    have hplaced : span ≠ .nowhere := by
      rintro rfl
      exact (hbuilt child happended).span_ne hspan
    exact hhull.contains hreceived hplaced

/-- An inverted span, an attempt in an attempt, and a child. -/
theorem edits_hull_attempts :
    let word := ofToken .identifier ⟨.identifier, ⟨5, 7⟩, "ab"⟩
    let attempt := .attempt [.append word, .attempt [.widen ⟨1, 2⟩]]
    let edits := [.change (.widen ⟨9, 4⟩), .change attempt, .change (.append word)]
    let node := edits.foldl Node.edit (empty .scope)
    (∀ child, .change (.append child) ∈ edits → child.Built) ∧
      HullOf [⟨9, 4⟩, ⟨5, 7⟩] node.span ∧
      (∀ child ∈ node.children, ∀ span, child.span = some span →
        ∃ outer, node.span = some outer ∧ outer.Contains span) ∧
      (node.changes [.append word]).rollback node.checkpoint = ([word], node) := by
  intro word attempt edits node
  have hbuilt : ∀ child, .change (.append child) ∈ edits → child.Built := by
    intro child hmem
    obtain rfl : child = word := by simpa [edits, attempt] using hmem
    exact ⟨.ofToken .identifier ⟨.identifier, ⟨5, 7⟩, "ab"⟩, [], rfl⟩
  obtain ⟨hhull, -, hcontains, hrollback⟩ := edits_hull (.new .scope) edits hbuilt
  exact ⟨hbuilt, hhull, hcontains, (hrollback [.append word]).2⟩

example : ([Edit.change (.widen ⟨9, 4⟩), .change (.widen ⟨5, 7⟩)].foldl Node.edit
    (empty .scope)).span = some ⟨5, 7⟩ := by decide

end Node

end ScriptSyntax
