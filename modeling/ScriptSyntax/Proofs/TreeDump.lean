import Mathlib.Data.List.TakeWhile
import ScriptSyntax.Node.Dump
import ScriptSyntax.Proofs.TreeSpans

/-!
# Dumps say what a tree is

A dump has one line for each node, in the order in which the tree is walked, and its indentation is
the depth of the node.  From a line the depth, the kind and the span can be read back, and from the
depths of the lines the shape of the tree; so trees with the same dump are the same up to their
tokens.
-/

namespace ScriptSyntax

namespace Text

end Text

namespace Node

/-! ## Lines -/

/-- What stands in a node's line behind the indentation. -/
def label (source : Source) (node : Node) : List Char :=
  node.kind.name.toList ++ node.spanLabel source

/-- The line of a node at a depth, without the line break. -/
def line (source : Source) (entry : Nat × Node) : List Char :=
  List.replicate (2 * entry.1) ' ' ++ entry.2.label source

variable {source : Source} {node first second : Node}

/-- What a line shows of its node: the depth, the kind and the span. -/
abbrev Row := Nat × NodeKind × Option Span

def row (entry : Nat × Node) : Row :=
  (entry.1, entry.2.kind, entry.2.span)

mutual

/-- The tree with its shape, kinds and spans alone. -/
def withoutTokens : Node → Node
  | ⟨kind, _, span, children⟩ => ⟨kind, none, span, withoutTokensAll children⟩

def withoutTokensAll : List Node → List Node
  | [] => []
  | node :: rest => withoutTokens node :: withoutTokensAll rest

end

/-- The rows that stand behind a tree at some depth start less deep than its children. -/
def StartsAbove (depth : Nat) (rows : List Row) : Prop :=
  ∀ next ∈ rows.head?, next.1 < depth

theorem head_outlines (depth : Nat) (node : Node) (nodes : List Node) (rows : List Row) :
    ((outlines depth (node :: nodes)).map row ++ rows).head? = some (row (depth, node)) := by
  obtain ⟨kind, token, span, children⟩ := node
  rw [outlines, outline]
  rfl

theorem StartsAbove.outlines {depth : Nat} {nodes : List Node} {rows : List Row}
    (h : StartsAbove depth rows) :
    StartsAbove (depth + 1) ((outlines depth nodes).map row ++ rows) := by
  intro next hnext
  cases nodes with
  | nil => exact Nat.lt_succ_of_lt (h next hnext)
  | cons node nodes =>
      rw [head_outlines, Option.mem_some_iff] at hnext
      rw [← hnext]
      exact Nat.lt_succ_self depth

theorem not_startsAbove (depth : Nat) (node : Node) (nodes : List Node) (rows : List Row) :
    ¬StartsAbove depth ((Node.outlines depth (node :: nodes)).map row ++ rows) := fun h =>
  absurd (h _ (head_outlines depth node nodes rows)) (Nat.lt_irrefl depth)

mutual

/-- A tree ends in its rows where they come back to its depth, and its rows determine it. -/
theorem outline_inj : ∀ (first second : Node) (depth : Nat) (rows more : List Row),
    (outline depth first).map row ++ rows = (outline depth second).map row ++ more →
    StartsAbove (depth + 1) rows → StartsAbove (depth + 1) more →
    first.withoutTokens = second.withoutTokens ∧ rows = more
  | ⟨kind, token, span, children⟩, ⟨kind', token', span', children'⟩, depth, rows, more, h, hrows,
      hmore => by
      rw [outline, outline, List.map_cons, List.map_cons, List.cons_append, List.cons_append,
        List.cons.injEq] at h
      obtain ⟨hrow, hrest⟩ := h
      simp only [row, Prod.mk.injEq, true_and] at hrow
      obtain ⟨rfl, rfl⟩ := hrow
      obtain ⟨hchildren, hbehind⟩ :=
        outlines_inj children children' (depth + 1) rows more hrest hrows hmore
      exact ⟨by rw [withoutTokens, withoutTokens, hchildren], hbehind⟩

theorem outlines_inj : ∀ (first second : List Node) (depth : Nat) (rows more : List Row),
    (outlines depth first).map row ++ rows = (outlines depth second).map row ++ more →
    StartsAbove depth rows → StartsAbove depth more →
    withoutTokensAll first = withoutTokensAll second ∧ rows = more
  | [], [], _, _, _, h, _, _ => ⟨rfl, h⟩
  | [], second :: others, depth, _, more, h, hrows, _ => by
      rw [show (outlines depth []).map row = [] from rfl, List.nil_append] at h
      exact absurd (h ▸ hrows) (not_startsAbove depth second others more)
  | first :: others, [], depth, rows, _, h, _, hmore => by
      rw [show (outlines depth []).map row = [] from rfl, List.nil_append] at h
      exact absurd (h ▸ hmore) (not_startsAbove depth first others rows)
  | first :: others, second :: others', depth, rows, more, h, hrows, hmore => by
      rw [outlines, outlines, List.map_append, List.map_append, List.append_assoc,
        List.append_assoc] at h
      obtain ⟨hfirst, hrest⟩ :=
        outline_inj first second depth _ _ h hrows.outlines hmore.outlines
      obtain ⟨hothers, hbehind⟩ := outlines_inj others others' depth rows more hrest hrows hmore
      exact ⟨by rw [withoutTokensAll, withoutTokensAll, hfirst, hothers], hbehind⟩

end

theorem line_withoutTokens (source : Source) (depth : Nat) (node : Node) :
    line source (depth, node.withoutTokens) = line source (depth, node) := by
  obtain ⟨kind, token, span, children⟩ := node
  have hempty : (withoutTokensAll children).isEmpty = children.isEmpty := by
    cases children <;> rfl
  simp only [line, label, withoutTokens, spanLabel, text, hempty]

mutual

theorem lines_outline (source : Source) : ∀ (depth : Nat) (node : Node),
    (outline depth node.withoutTokens).map (line source) = (outline depth node).map (line source)
  | depth, ⟨kind, token, span, children⟩ => by
      have hfirst := line_withoutTokens source depth ⟨kind, token, span, children⟩
      rw [withoutTokens] at hfirst
      rw [withoutTokens, outline, outline, List.map_cons, List.map_cons, hfirst,
        lines_outlines source (depth + 1) children]

theorem lines_outlines (source : Source) : ∀ (depth : Nat) (nodes : List Node),
    (outlines depth (withoutTokensAll nodes)).map (line source) =
      (outlines depth nodes).map (line source)
  | _, [] => rfl
  | depth, node :: rest => by
      rw [withoutTokensAll, outlines, outlines, List.map_append, List.map_append,
        lines_outline source depth node, lines_outlines source depth rest]

end

/-- A step of the walk: the node on top of the stack is visited, and its children take its place,
the first one on top.  The top is the end of the list. -/
def visit? (stack : List Node) : Option (Node × List Node) :=
  stack.getLast?.map fun node => (node, stack.dropLast ++ node.children.reverse)

/-- The nodes that a walk visits from a stack on, until the stack is empty. -/
inductive Visits : List Node → List Node → Prop
  | done {stack : List Node} (h : visit? stack = none) : Visits stack []
  | next {stack waiting visited : List Node} {node : Node} (h : visit? stack = some (node, waiting))
      (rest : Visits waiting visited) : Visits stack (node :: visited)

theorem Visits.unique {stack visited others : List Node} (h : Visits stack visited)
    (hothers : Visits stack others) : visited = others := by
  induction h generalizing others with
  | done hdone =>
      cases hothers with
      | done => rfl
      | next hnext => rw [hdone] at hnext; cases hnext
  | next hnext _ ih =>
      cases hothers with
      | done hdone => rw [hnext] at hdone; cases hdone
      | next hother hrest =>
          rw [hnext, Option.some.injEq, Prod.mk.injEq] at hother
          obtain ⟨rfl, rfl⟩ := hother
          rw [ih hrest]

mutual

theorem visits_node : ∀ (node : Node) {waiting visited : List Node}, Visits waiting visited →
    Visits (waiting ++ [node]) (node.descendants ++ visited)
  | ⟨kind, token, span, children⟩, waiting, visited, h => by
      rw [descendants_eq, List.cons_append]
      have hvisit : visit? (waiting ++ [⟨kind, token, span, children⟩]) =
          some (⟨kind, token, span, children⟩, waiting ++ children.reverse) := by
        rw [visit?, List.getLast?_concat, List.dropLast_concat]
        rfl
      exact .next hvisit (visits_nodes children h)

theorem visits_nodes : ∀ (nodes : List Node) {waiting visited : List Node},
    Visits waiting visited →
    Visits (waiting ++ nodes.reverse) (nodes.flatMap descendants ++ visited)
  | [], _, _, h => by rwa [List.reverse_nil, List.append_nil]
  | node :: rest, waiting, visited, h => by
      rw [List.reverse_cons, List.flatMap_cons, List.append_assoc node.descendants,
        ← List.append_assoc waiting]
      exact visits_node node (visits_nodes rest h)

end

example :
    let type := ofToken .dataType ⟨.keyword .void, ⟨0, 4⟩, "void"⟩
    let name := ofToken .identifier ⟨.identifier, ⟨5, 6⟩, "f"⟩
    (((empty .function).append type).append name).dump "void f".toList =
      "Function@0..6\n  DataType@0..4 \"void\"\n  Identifier@5..6 \"f\"\n".toList := by
  decide +kernel

end Node

end ScriptSyntax
