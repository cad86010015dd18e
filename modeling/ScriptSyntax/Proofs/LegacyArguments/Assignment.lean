import ScriptSyntax.Proofs.LegacyArguments.Name
import ScriptSyntax.Proofs.Variation.Expression

/-!
# What is assigned to a name

One side has passed a name and an equals sign; the other has them ahead, and reads an assignment.
They meet behind the sign: in what is assigned to a variable, or in the list in braces for which the
name is the type.
-/

namespace ScriptSyntax.Grammar.Variation

open Parse

set_option synthInstance.maxSize 20000

variable {V : Variation}

/-- Of the sessions of the second side only the reports count. -/
class Blind (V : Variation) : Prop where
  same : ∀ {n s t other}, V.same n s t → other.diagnostics = t.diagnostics → V.same n s other

/-! ## Going on on the second side -/

section

variable [V.Blind] {α β : Type} {n : V.Frame} {s t : Session}
  {run : Except Interruption α × Session} {rest : List Token}

theorem Meets.node_right {rule : Parse α} {kind : NodeKind}
    (h : V.Meets n run (rule V.right (t.opened kind))) :
    V.Meets n run (Parse.node kind rule V.right t) :=
  ⟨h.result, h.related.ahead, h.related.fine, Blind.same h.related.same rfl⟩

omit [V.Blind] in
theorem Meets.quiet_right {rule : Parse β} {next : β → Parse α} {answer : β}
    (hquiet : Quiet V.right rule answer t.ahead rest)
    (h : ∀ building, V.Meets n run (next answer V.right ⟨rest, t.diagnostics, building⟩)) :
    V.Meets n run ((rule >>= next) V.right t) := by
  obtain ⟨built, hbuilt⟩ := hquiet t.diagnostics t.building
  have hrun : rule V.right t = (.ok answer, ⟨rest, t.diagnostics, built⟩) := hbuilt
  rw [bind_run, hrun]
  exact h built

/-! ## Behind the sign -/

/-- The first side is behind an equals sign that the second still has ahead, and fewer bytes than
the bound follow. -/
structure BehindSign (V : Variation) (bound : Nat) (n : V.Frame) (s t : Session) : Prop where
  same : V.same n s t
  fine : V.Fine s.ahead
  bytes : byteCount s.ahead < bound
  assigns : V.right.Assigns t.ahead
  ahead_eq : s.ahead = t.ahead.tail.tail

variable {bound room : Nat}

omit [V.Blind] in
theorem BehindSign.opened (h : V.BehindSign bound n s t) (kind : NodeKind) :
    V.BehindSign bound (V.inside n s) (s.opened kind) (t.opened kind) :=
  ⟨V.opened kind h.same, h.fine, h.bytes, h.assigns, h.ahead_eq⟩

/-- The second side has passed the sign too. -/
theorem BehindSign.related (h : V.BehindSign bound n s t) (building : Node) :
    V.Related n s ⟨t.ahead.tail.tail, t.diagnostics, building⟩ :=
  ⟨h.ahead_eq.symm, h.fine, Blind.same h.same rfl⟩

/-- What is assigned to a variable. -/
theorem variable_meets {rule : Parse Unit} (h : V.BehindSign bound n s t)
    (hplain : (V.left.head s).kind ≠ .openBrace)
    (hrule : V.Agrees bound rule (valueRules room).assignment) :
    V.Meets n (rule V.left s) ((valueRules (room + 1)).assignment V.right t) := by
  have hbrace : (t.ahead.tail.tail.headD V.right.finish).kind ≠ .openBrace := by
    rw [← h.ahead_eq]
    exact hplain
  have hassignment (building : Node) : V.Meets n (rule V.left s)
      ((do
        if (← peek).kind.isAssignment then
          leaf .exprOperator
          (valueRules room).assignment) V.right ⟨t.ahead.tail, t.diagnostics, building⟩) := by
    have hsign : (V.right.head ⟨t.ahead.tail, t.diagnostics, building⟩).kind = .assign :=
      h.assigns.sign
    rw [peek_bind, hsign]
    exact .quiet_right (.leaf .exprOperator)
      fun building => hrule.meets (h.related building) h.bytes
  change V.Meets n _ (assignmentBody (valueRules room) V.right t)
  exact .node_right (.quiet_right (quiet_condition h.assigns V.ended hbrace) hassignment)

/-! ## Lists with a type on the second side -/

section

variable {rules rules' : ValueRules} [Advances rules.assignment] [Advances rules.initList]
  (hroom : rules'.room = room + 1)

include hroom

theorem term_meets (h : V.BehindSign bound n s t) (hbrace : (V.left.head s).kind = .openBrace)
    (hrules : V.Agrees bound rules.initList rules'.initList) :
    V.Meets n (term rules V.left s) (term rules' V.right t) := by
  have hplain : ((typedListAhead rules.room V.left).run s.ahead).isSome = false := by
    refine Bool.eq_false_iff.mpr fun hsees => ?_
    obtain ⟨htype, -⟩ := typedListAhead_some hsees
    unfold Token.isTypeName at htype
    unfold Setting.head at hbrace
    rw [hbrace] at htype
    cases htype
  have hbehind : (t.ahead.tail.tail.headD V.right.finish).kind = .openBrace := by
    rw [← h.ahead_eq]
    exact hbrace
  have htyped : ((typedListAhead rules'.room V.right).run t.ahead).isSome = true :=
    (h.assigns.typedList _).trans (decide_eq_true hbehind)
  have hopened : (V.left.head (s.opened .exprTerm)).kind = .openBrace := hbrace
  refine .node (by decide) h.same (advance _ V.left _) ?_
  rw [sees_bind, sees_bind]
  change V.Meets _
    ((if ((typedListAhead rules.room V.left).run s.ahead).isSome = true then _ else _ :
      Parse Unit) V.left _)
    ((if ((typedListAhead rules'.room V.right).run t.ahead).isSome = true then _ else _ :
      Parse Unit) V.right _)
  rw [hplain, htyped, if_neg Bool.false_ne_true, if_pos rfl, nextIs_bind, hopened, hroom]
  refine .quiet_right (quiet_dataType h.assigns) fun building => ?_
  rw [skip_bind]
  exact hrules.meets ((h.opened .exprTerm).related building) h.bytes

variable (hlevel : V.LevelAgrees bound rules rules')

include hlevel

theorem expression_meets (h : V.BehindSign bound n s t)
    (hbrace : (V.left.head s).kind = .openBrace) :
    V.Meets n (expression rules V.left s) (expression rules' V.right t) := by
  have hterm := term_meets hroom (h.opened .expression) hbrace hlevel.initList
  exact .node (by decide) h.same (advance _ V.left _)
    (hterm.bind_agrees h.fine h.bytes fun _ => inferInstance)

theorem condition_meets (h : V.BehindSign bound n s t)
    (hbrace : (V.left.head s).kind = .openBrace) :
    V.Meets n (condition rules V.left s) (condition rules' V.right t) := by
  have hexpression := expression_meets hroom hlevel (h.opened .condition) hbrace
  exact .node (by decide) h.same (advance _ V.left _)
    (hexpression.bind_agrees h.fine h.bytes fun _ => inferInstance)

/-- The list is assigned to the name on the second side as it is to nothing on the first. -/
theorem list_meets (h : V.BehindSign bound n s t)
    (hbrace : (V.left.head s).kind = .openBrace) :
    V.Meets n (assignmentBody rules V.left s) (assignmentBody rules' V.right t) := by
  have hcondition := condition_meets hroom hlevel (h.opened .assignment) hbrace
  exact .node (by decide) h.same (advance _ V.left _)
    (hcondition.bind_agrees h.fine h.bytes fun _ => inferInstance)

end

/-- What stands behind the sign decides how the second side reads the name. -/
theorem assignment_meets (h : V.BehindSign bound n s t) {room' : Nat}
    (hlist : V.LevelAgrees bound (valueRules room) (valueRules (room' + 1)))
    (hvariable : V.Agrees bound (valueRules (room + 1)).assignment
      (valueRules (room' + 1)).assignment) :
    V.Meets n ((valueRules (room + 1)).assignment V.left s)
      ((valueRules (room' + 2)).assignment V.right t) := by
  by_cases hbrace : (V.left.head s).kind = .openBrace
  · exact list_meets (valueRules_room (room' + 1)) hlist h hbrace
  · exact variable_meets h hbrace hvariable

end

end ScriptSyntax.Grammar.Variation
