import ScriptSyntax.Proofs.Persistence.Script
import ScriptSyntax.Proofs.Tiling
import ScriptSyntax.Proofs.TreeHeight

/-!
# Blocks inside blocks

Every block in the tree of a block that is parsed without an error was read by the same rule, with no
more room.  What is read without an error depends neither on the room nor on what was read before,
so the inner block is found again if it is parsed on its own.
-/

namespace ScriptSyntax

/-! ## Trees with blocks of one sort -/

/-- The blocks below the node, except bodies of functions, are all of one sort. -/
inductive Node.BlocksBelow (sort : Node → Prop) : Node → Prop
  | mk {node : Node}
      (blocks : node.kind ≠ .function →
        ∀ child ∈ node.children, child.kind = .statementBlock → sort child)
      (nodes : ∀ child ∈ node.children, BlocksBelow sort child) : BlocksBelow sort node

namespace Node.BlocksBelow

variable {sort : Node → Prop} {node other : Node}

theorem blocks (h : node.BlocksBelow sort) (hkind : node.kind ≠ .function) :
    ∀ child ∈ node.children, child.kind = .statementBlock → sort child := by
  cases h with
  | mk blocks nodes => exact blocks hkind

theorem nodes (h : node.BlocksBelow sort) : ∀ child ∈ node.children, child.BlocksBelow sort := by
  cases h with
  | mk blocks nodes => exact nodes

/-- More children of the right sort. -/
theorem added {children : List Node} (h : node.BlocksBelow sort)
    (hkind : other.kind = node.kind) (hchildren : other.children = node.children ++ children)
    (hblocks : ∀ child ∈ children, child.kind = .statementBlock → sort child)
    (hnodes : ∀ child ∈ children, child.BlocksBelow sort) : other.BlocksBelow sort := by
  refine .mk (fun hplain child hmem => ?_) (fun child hmem => ?_)
  · rw [hchildren, List.mem_append] at hmem
    rcases hmem with hmem | hmem
    · exact h.blocks (hkind ▸ hplain) child hmem
    · exact hblocks child hmem
  · rw [hchildren, List.mem_append] at hmem
    rcases hmem with hmem | hmem
    · exact h.nodes child hmem
    · exact hnodes child hmem

theorem empty (kind : NodeKind) : (Node.empty kind).BlocksBelow sort :=
  .mk (fun _ _ hmem => nomatch hmem) fun _ hmem => nomatch hmem

theorem descendant (h : node.BlocksBelow sort) : ∀ other ∈ node.descendants, other.BlocksBelow sort := by
  induction h with
  | @mk node blocks nodes ih =>
      intro other hmem
      rw [descendants_eq] at hmem
      rcases List.mem_cons.mp hmem with rfl | hmem
      · exact .mk blocks nodes
      · obtain ⟨child, hchild, hother⟩ := List.mem_flatMap.mp hmem
        exact ih child hchild other hother

end Node.BlocksBelow

/-! ## Forms without blocks -/

/-- The test holds of all forms that a row is made of. -/
def Row.All (test : Form → Bool) : Row → Bool
  | .zero | .epsilon => true
  | .char form => test form
  | .plus first second | .comp first second => All test first && All test second
  | .star row => All test row

theorem Row.All.mem {test : Form → Bool} {row : Row} (h : row.All test = true) {forms : List Form}
    (hforms : forms ∈ row.matches') : ∀ form ∈ forms, test form = true := by
  induction row generalizing forms with
  | zero => cases hforms
  | epsilon =>
      cases hforms
      exact fun _ hmem => nomatch hmem
  | char form =>
      cases hforms
      exact fun other hmem => List.mem_singleton.mp hmem ▸ h
  | plus first second ihfirst ihsecond =>
      obtain ⟨hfirst, hsecond⟩ := Bool.and_eq_true_iff.mp h
      rcases hforms with hforms | hforms
      · exact ihfirst hfirst hforms
      · exact ihsecond hsecond hforms
  | comp first second ihfirst ihsecond =>
      obtain ⟨hfirst, hsecond⟩ := Bool.and_eq_true_iff.mp h
      obtain ⟨word, hword, other, hother, rfl⟩ := hforms
      intro form hmem
      rcases List.mem_append.mp hmem with hmem | hmem
      · exact ihfirst hfirst hword form hmem
      · exact ihsecond hsecond hother form hmem
  | star row ih =>
      obtain ⟨words, rfl, hwords⟩ := hforms
      intro form hmem
      obtain ⟨word, hword, hmem⟩ := List.mem_flatten.mp hmem
      exact ih h (hwords word hword) form hmem

/-- Values and what they are made of, and the statements that hold no others. -/
def Form.isPlain : Form → Bool
  | mark | identifier | typeName | constantPart | type | modifier | scope | expression | condition
  | assignment | term | preOperator | operator | value | postOperator | constant | constructCall
  | functionCall | variableAccess | argList | namedArgument | cast | initList | lambda
  | localVariable | return_ | break_ | continue_ | expressionStatement => true
  | _ => false

theorem Form.kind_ne_of_isPlain {form : Form} (h : form.isPlain = true) :
    form.kind ≠ .statementBlock := by
  cases form <;> first | decide | cases h

theorem Form.row_isPlain {form : Form} (h : form.isPlain = true) (hlambda : form ≠ .lambda) :
    form.row.All isPlain = true := by
  cases form <;> first | rfl | exact absurd rfl hlambda | cases h

/-- Each node of a row follows one of the forms that the row is made of. -/
theorem Row.Fits.mem {row : Row} {nodes : List Node} (h : row.Fits nodes) {test : Form → Bool}
    (hrow : row.All test = true) :
    ∀ node ∈ nodes, ∃ form, test form = true ∧ node.Follows form := by
  obtain ⟨forms, hforms, hnodes⟩ := h
  have htests := Row.All.mem hrow hforms
  clear hforms
  induction hnodes with
  | nil => exact fun _ hmem => nomatch hmem
  | @cons first form _ _ hfirst _ ih =>
      intro node hmem
      rcases List.mem_cons.mp hmem with rfl | hmem
      · exact ⟨form, htests form List.mem_cons_self, hfirst⟩
      · exact ih (fun other hother => htests other (List.mem_cons_of_mem _ hother)) node hmem

theorem Node.Follows.fits {node : Node} {form : Form} (h : node.Follows form) :
    form.row.Fits node.children := by
  cases h with
  | intro kind row children => exact ⟨_, row, children⟩

theorem Node.Follows.kind_eq {node : Node} {form : Form} (h : node.Follows form) :
    node.kind = form.kind := by
  cases h with
  | intro kind row children => exact kind

/-- A captured block has no children. -/
theorem Node.Follows.children_eq_nil {node : Node} (h : node.Follows .capturedBlock) :
    node.children = [] := by
  obtain ⟨forms, hforms, hchildren⟩ := h.fits
  cases hforms
  exact List.forall₂_nil_right_iff.mp hchildren

/-- A plain tree has no blocks but the bodies of lambdas, and these are only captured. -/
theorem Node.Follows.blocksBelow {sort : Node → Prop} {node : Node} {form : Form}
    (h : node.Follows form) (hform : form.isPlain = true) : node.BlocksBelow sort := by
  induction hheight : node.height using Nat.strong_induction_on generalizing node form with
  | _ height ih =>
      subst hheight
      have hplain {child : Node} {inner : Form} (hmem : child ∈ node.children)
          (hchild : child.Follows inner) (hinner : inner.isPlain = true) :
          child.BlocksBelow sort :=
        ih child.height (height_lt_of_mem hmem) hchild hinner rfl
      by_cases hlambda : form = .lambda
      · subst hlambda
        have hrow : Form.lambda.row.All (fun inner => inner.isPlain || inner = .capturedBlock) =
            true := rfl
        refine .mk (fun hfunction => absurd h.kind_eq hfunction) fun child hmem => ?_
        obtain ⟨inner, hinner, hchild⟩ := h.fits.mem hrow child hmem
        rcases Bool.or_eq_true_iff.mp hinner with hinner | hinner
        · exact hplain hmem hchild hinner
        · obtain rfl := of_decide_eq_true hinner
          have hnone := hchild.children_eq_nil
          exact (BlocksBelow.empty child.kind).added rfl hnone (fun _ h => nomatch h)
            fun _ h => nomatch h
      · have hrow := Form.row_isPlain hform hlambda
        refine .mk (fun _ child hmem hblock => ?_) (fun child hmem => ?_)
        · obtain ⟨inner, hinner, hchild⟩ := h.fits.mem hrow child hmem
          exact absurd (hchild.kind_eq.symm.trans hblock) (Form.kind_ne_of_isPlain hinner)
        · obtain ⟨inner, hinner, hchild⟩ := h.fits.mem hrow child hmem
          exact hplain hmem hchild hinner

namespace Grammar

open Parse

/-- The node is what the rule for blocks builds from somewhere in the source without an error, with
no more room than the limit. -/
def Setting.BuildsBlock (setting : Setting) (limit : Nat) (root : Node) : Prop :=
  ∃ room ≤ limit, ∃ tokens diagnostics after, setting.Reads tokens ∧
    block (blockRules room) setting ⟨tokens, diagnostics, .empty .undefined⟩ = (.ok (), after) ∧
    after.Clean ∧ after.building.children = [root]

namespace Parse

variable {α β : Type}

/-- The session reads the source, and it has added no blocks but those that the rule builds. -/
structure HoldsBlocks (setting : Setting) (limit : Nat) (session : Session) : Prop where
  reads : setting.Reads session.ahead
  blocks : session.building.BlocksBelow (setting.BuildsBlock limit)

/-- Without an error the rule reads on in the source, and it adds no blocks but those that the rule
for blocks builds. -/
class KeepsBlocks (limit : Nat) (rule : Parse α) : Prop where
  clean : ∀ setting session, (rule setting session).2.Clean → session.Clean
  holds : ∀ setting session, setting.Ended → HoldsBlocks setting limit session →
    (rule setting session).2.Clean → HoldsBlocks setting limit (rule setting session).2

section

variable {limit : Nat} {rule other : Parse α} {next : α → Parse β}

/-- A rule that adds plain nodes. -/
theorem keepsBlocks_of_adds {row : Row} [hpersists : Persists rule rule] [hadds : Adds rule row]
    (hplain : row.All Form.isPlain = true) : KeepsBlocks limit rule := by
  refine ⟨fun setting session => (hpersists.always setting session).clean, ?_⟩
  intro setting session hended hholds hclean
  obtain ⟨-, -, hkind, _, nodes, -, hnodes, hchildren⟩ :=
    hadds.extends_ setting session hended hclean
  obtain ⟨_, after, hrun, hafter, -⟩ :=
    (hpersists.always setting session).lasts hended hholds.reads hclean
  refine ⟨by rw [hrun]; exact hafter, hholds.blocks.added hkind hchildren ?_ ?_⟩
  · intro child hmem hblock
    obtain ⟨form, hform, hfollows⟩ := hnodes.mem hplain child hmem
    exact absurd (hfollows.kind_eq.symm.trans hblock) (Form.kind_ne_of_isPlain hform)
  · intro child hmem
    obtain ⟨form, hform, hfollows⟩ := hnodes.mem hplain child hmem
    exact hfollows.blocksBelow hform

/-! ### Building blocks -/

instance (value : α) : KeepsBlocks limit (pure value) :=
  keepsBlocks_of_adds rfl

instance [hrule : KeepsBlocks limit rule] [hnext : ∀ value, KeepsBlocks limit (next value)] :
    KeepsBlocks limit (rule >>= next) := by
  refine ⟨?_, ?_⟩
  · intro setting session hclean
    rw [bind_run] at hclean
    refine hrule.clean setting session ?_
    rcases hrun : rule setting session with ⟨interruption | value, middle⟩ <;> rw [hrun] at hclean
    · exact hclean
    · exact (hnext value).clean setting middle hclean
  · intro setting session hended hholds hclean
    have hfirst := hrule.holds setting session hended hholds
    rw [bind_run] at hclean ⊢
    rcases hrun : rule setting session with ⟨interruption | value, middle⟩ <;>
      rw [hrun] at hclean hfirst
    · exact hfirst hclean
    · exact (hnext value).holds setting middle hended
        (hfirst ((hnext value).clean setting middle hclean)) hclean

instance (condition : Prop) [Decidable condition] [hrule : KeepsBlocks limit rule]
    [hother : KeepsBlocks limit other] : KeepsBlocks limit (if condition then rule else other) := by
  split
  · exact hrule
  · exact hother

instance (rule : Unit → Parse α) [h : KeepsBlocks limit (rule ())] :
    KeepsBlocks limit (deferred rule) :=
  ⟨h.clean, h.holds⟩

instance [h : KeepsBlocks limit rule] : KeepsBlocks limit (attempt rule) := by
  have hafter (setting : Setting) (session : Session) :
      (attempt rule setting session).2 = (rule setting session).2 := by
    rw [attempt_run]
    split <;> rename_i heq <;> rw [heq]
  refine ⟨fun setting session => ?_, fun setting session => ?_⟩
  · rw [hafter]
    exact h.clean setting session
  · rw [hafter]
    exact h.holds setting session

instance (body : Parse Bool) [hbody : KeepsBlocks limit body] : KeepsBlocks limit (repeatRule body) := by
  have hloop (count : Nat) : KeepsBlocks limit (repeatUpTo count body) := by
    induction count with
    | zero => exact inferInstanceAs (KeepsBlocks limit (pure ()))
    | succ count ih =>
        unfold repeatUpTo
        infer_instance
  exact ⟨fun setting session => (hloop _).clean setting session,
    fun setting session => (hloop _).holds setting session⟩

/-- A node that is no block itself. -/
theorem KeepsBlocks.node {row : Row} {kind : NodeKind} [hadds : Adds rule row]
    [hrule : KeepsBlocks limit rule] (hkind : kind ≠ .statementBlock) :
    KeepsBlocks limit (node kind rule) := by
  refine ⟨fun setting session => hrule.clean setting { session with building := .empty kind }, ?_⟩
  intro setting session hended hholds hclean
  let opened : Session := { session with building := .empty kind }
  have hinner : HoldsBlocks setting limit (rule setting opened).2 :=
    hrule.holds setting opened hended ⟨hholds.reads, .empty kind⟩ hclean
  have hsame : (rule setting opened).2.building.kind = kind :=
    (hadds.extends_ setting opened hended hclean).kind
  refine ⟨hinner.reads, hholds.blocks.added (Node.grows_append _ _).kind
    (Node.children_append _ _) ?_ ?_⟩
  · intro child hmem hblock
    rw [List.mem_singleton.mp hmem] at hblock
    exact absurd (hsame.symm.trans hblock) hkind
  · intro child hmem
    rw [List.mem_singleton.mp hmem]
    exact hinner.blocks

/-! ### Rules without blocks -/

instance : KeepsBlocks limit ahead :=
  keepsBlocks_of_adds rfl

instance : KeepsBlocks limit peek :=
  keepsBlocks_of_adds rfl

instance (kind : TokenKind) : KeepsBlocks limit (nextIs kind) :=
  keepsBlocks_of_adds rfl

instance (scan : Scan Unit) [Scan.Persists scan scan] : KeepsBlocks limit (sees scan) :=
  keepsBlocks_of_adds rfl

instance : KeepsBlocks limit skip :=
  keepsBlocks_of_adds rfl

instance : KeepsBlocks limit cover :=
  keepsBlocks_of_adds rfl

instance (kind : TokenKind) : KeepsBlocks limit (require kind) :=
  keepsBlocks_of_adds rfl

instance (kind : TokenKind) : KeepsBlocks limit (coverRequired kind) :=
  keepsBlocks_of_adds rfl

instance : KeepsBlocks limit (goTo []) :=
  keepsBlocks_of_adds rfl

instance (inBraces : Bool) : KeepsBlocks limit (recover inBraces) := by
  have hadds : Adds (recover inBraces) 1 := by
    unfold recover
    exact Adds.mono inferInstance (by simp)
  exact keepsBlocks_of_adds rfl

instance (message : Message) : KeepsBlocks limit (fail message : Parse α) :=
  keepsBlocks_of_adds rfl

instance (message : Message) : KeepsBlocks limit (failExpected message : Parse α) :=
  keepsBlocks_of_adds rfl

instance (construct : Construct) (start : List Token) :
    KeepsBlocks limit (failAtEnd construct start : Parse α) :=
  keepsBlocks_of_adds rfl

instance (test : Token → Bool) (rule : Parse Unit) [KeepsBlocks limit rule] :
    KeepsBlocks limit (whileNext test rule) := by
  unfold whileNext
  infer_instance

instance (item : Parse Unit) [KeepsBlocks limit item] : KeepsBlocks limit (commaSeparated item) := by
  unfold commaSeparated
  infer_instance

/-! ### Statements -/

section Statements

set_option synthInstance.maxSize 8000

variable (room : Nat)

instance : KeepsBlocks limit (blockRules room).assignment :=
  keepsBlocks_of_adds rfl

instance : KeepsBlocks limit (localVariable (blockRules room).toValueRules) :=
  keepsBlocks_of_adds rfl

instance : KeepsBlocks limit (expressionStatement (blockRules room)) :=
  keepsBlocks_of_adds rfl

instance (keyword : Keyword) : KeepsBlocks limit (keywordCondition (blockRules room) keyword) :=
  keepsBlocks_of_adds rfl

instance : KeepsBlocks limit (jump .break_) :=
  keepsBlocks_of_adds rfl

instance : KeepsBlocks limit (jump .continue_) :=
  keepsBlocks_of_adds rfl

instance : KeepsBlocks limit (returnStatement (blockRules room)) :=
  keepsBlocks_of_adds rfl

instance : KeepsBlocks limit (expression (blockRules room).toValueRules) :=
  keepsBlocks_of_adds rfl

instance : KeepsBlocks limit (node .expressionStatement (blockRules room).assignment) :=
  .node (by decide)

variable [KeepsBlocks limit (blockRules room).statement]

instance : KeepsBlocks limit (blockItem (blockRules room)) := by
  unfold blockItem
  infer_instance

instance (start : List Token) : KeepsBlocks limit (blockStep (blockRules room) start) := by
  unfold blockStep
  infer_instance

/-- The block that is added is found again wherever the rule starts from the same tokens. -/
instance [hroom : Fact (room ≤ limit)] : KeepsBlocks limit (block (blockRules room)) := by
  have hitems : KeepsBlocks limit (do
      let start ← ahead
      coverRequired .openBrace
      repeatRule (blockStep (blockRules room) start)) := inferInstance
  refine ⟨fun setting session => hitems.clean setting
    { session with building := .empty .statementBlock }, ?_⟩
  intro setting session hended hholds hclean
  have hpersists : Persists (block (blockRules room)) (block (blockRules room)) := inferInstance
  obtain ⟨_, after, hrun, -⟩ :=
    (hpersists.always setting session).lasts hended hholds.reads hclean
  obtain ⟨inner, hinner, rfl⟩ := node_ok hrun
  have hinside : HoldsBlocks setting limit inner := by
    have hholds' := hitems.holds setting { session with building := .empty .statementBlock } hended
      ⟨hholds.reads, .empty _⟩
    rw [hinner] at hholds'
    refine hholds' ?_
    rw [hrun] at hclean
    exact hclean
  have hbuilds : setting.BuildsBlock limit inner.building := by
    refine ⟨room, hroom.out, session.ahead, session.diagnostics,
      { inner with building := (Node.empty .undefined).append inner.building }, hholds.reads, ?_, ?_,
      Node.children_append _ _⟩
    · exact node_of_ok hinner
    · rw [hrun] at hclean
      exact hclean
  rw [hrun]
  refine ⟨hinside.reads, hholds.blocks.added (Node.grows_append _ _).kind
    (Node.children_append _ _) ?_ ?_⟩
  · intro child hmem _
    rw [List.mem_singleton.mp hmem]
    exact hbuilds
  · intro child hmem
    rw [List.mem_singleton.mp hmem]
    exact hinside.blocks

instance : KeepsBlocks limit (caseLabel (blockRules room)) := by
  unfold caseLabel
  exact .node (by decide)

instance : KeepsBlocks limit (switchStatement (blockRules room)) := by
  have hround (kind : TokenKind) : KeepsBlocks limit
      (match kind with
        | .closeBrace => do
            cover
            return false
        | .keyword .case_ | .keyword .default_ => do
            caseLabel (blockRules room)
            return true
        | _ => failExpected (.expectedOneOfKinds [.keyword .case_, .keyword .default_])) := by
    split <;> infer_instance
  have hturns (kind : TokenKind) : Turns (match kind with
      | .closeBrace => do
          cover
          return false
      | .keyword .case_ | .keyword .default_ => do
          caseLabel (blockRules room)
          return true
      | _ => failExpected (.expectedOneOfKinds [.keyword .case_, .keyword .default_]))
      Form.case_ 1 := by
    split <;> exact Turns.mono inferInstance (by simp) (by simp)
  unfold switchStatement
  exact .node (by decide)

instance : KeepsBlocks limit (ifStatement (blockRules room)) := by
  unfold ifStatement
  exact .node (by decide)

instance : KeepsBlocks limit (whileStatement (blockRules room)) := by
  unfold whileStatement
  exact .node (by decide)

instance : KeepsBlocks limit (doStatement (blockRules room)) := by
  unfold doStatement
  exact .node (by decide)

instance : KeepsBlocks limit (forStatement (blockRules room)) := by
  have hstep : Adds (node .expressionStatement (blockRules room).assignment)
      Form.expressionStatement :=
    .node .expressionStatement rfl inferInstance (by simp [Form.row])
  unfold forStatement
  exact .node (by decide)

instance [Fact (room ≤ limit)] : KeepsBlocks limit (tryStatement (blockRules room)) := by
  unfold tryStatement
  exact .node (by decide)

instance [Fact (room ≤ limit)] : KeepsBlocks limit (statementBody (blockRules room)) := by
  have hkind (kind : TokenKind) : KeepsBlocks limit
      (match kind with
        | .openBrace => block (blockRules room)
        | .keyword .if_ => ifStatement (blockRules room)
        | .keyword .for_ => forStatement (blockRules room)
        | .keyword .while_ => whileStatement (blockRules room)
        | .keyword .do_ => doStatement (blockRules room)
        | .keyword .switch => switchStatement (blockRules room)
        | .keyword .return_ => returnStatement (blockRules room)
        | .keyword .break_ => jump .break_
        | .keyword .continue_ => jump .continue_
        | .keyword .try_ => tryStatement (blockRules room)
        | _ => do
            if ← sees (variableAhead (blockRules room).room) then fail .unexpectedVariableDeclaration
            else expressionStatement (blockRules room)) := by
    split <;> infer_instance
  unfold statementBody
  infer_instance

end Statements

/-- Statements are read with less room than the block around them. -/
theorem keepsBlocks_statement {room : Nat} (h : room ≤ limit) :
    KeepsBlocks limit (blockRules room).statement := by
  induction room with
  | zero => exact inferInstanceAs (KeepsBlocks limit (fail .maximumNestingDepth : Parse Unit))
  | succ room ih =>
      have hroom : Fact (room ≤ limit) := ⟨Nat.le_of_succ_le h⟩
      have hstatement : KeepsBlocks limit (blockRules room).statement := ih hroom.out
      exact inferInstanceAs (KeepsBlocks limit (deferred fun _ => statementBody (blockRules room)))

end

end Parse

/-- A block that was built without an error is built with all of the room too, on its own, from the
tokens at which its span starts. -/
theorem Setting.BuildsBlock.again {setting : Setting} {limit : Nat} {root : Node}
    (hended : setting.Ended) (hwhole : setting.Whole) (h : setting.BuildsBlock limit root) :
    ∃ opening rest stop after, setting.Reads (opening :: rest) ∧
      root.span = some ⟨opening.span.start, stop⟩ ∧
      block (blockRules limit) setting ⟨opening :: rest, {}, .empty .undefined⟩ = (.ok (), after) ∧
      after.Clean ∧ after.building.children = [root] := by
  obtain ⟨room, hle, tokens, diagnostics, after, hreads, hrun, hclean, hchildren⟩ := h
  let session : Session := ⟨tokens, diagnostics, .empty .undefined⟩
  have hroom : Fact (room ≤ limit) := ⟨hle⟩
  have hpersists : Persists (block (blockRules room)) (block (blockRules limit)) := inferInstance
  obtain ⟨_, _, hrun', -, hnever | ⟨reports, hreports, hsame⟩⟩ :=
    (hpersists.always setting session).lasts hended hreads (hrun ▸ hclean)
  · exact hnever.elim
  · obtain ⟨-, rfl⟩ := Prod.mk.inj (hrun.symm.trans hrun')
    let alone : Session := { after with diagnostics := ({} : Diagnostics).followed reports }
    have halone : block (blockRules limit) setting ⟨tokens, {}, .empty .undefined⟩ =
        (.ok (), alone) := hsame setting.options.maxDepth {}
    have hquiet : alone.Clean := by
      unfold Session.Clean at hclean ⊢
      rw [hreports] at hclean
      exact (List.append_eq_nil_iff.mp ((List.filter_append ..).symm.trans hclean)).2
    have hadds : Adds (block (blockRules limit)) Form.block := inferInstance
    have hfaults : alone.faults = [] := by
      have hextends := hadds.extends_ setting ⟨tokens, {}, .empty .undefined⟩ hended
      rw [halone] at hextends
      exact (hextends hquiet).faults
    obtain ⟨opening, inside, closing, behind, inner, hahead, -, -, hbuilding, hspan, -⟩ :=
      block_laid hended hwhole hreads rfl hfaults halone
    obtain rfl : root = inner := by
      have hroot : alone.building.children = [inner] := by
        rw [hbuilding, Node.children_append]
        rfl
      exact List.singleton_injective (hchildren.symm.trans hroot)
    have hahead : tokens = _ := hahead
    subst hahead
    exact ⟨opening, _, _, alone, hreads, hspan, halone, hquiet, hchildren⟩

end Grammar

namespace Entry

open Grammar Grammar.Parse

/-- The setting of a block does not depend on where the block starts in the source. -/
theorem statementBlock_setting (options : Options) {source : Source} {start other : Nat}
    (hstart : start ≤ source.size) (hother : other ≤ source.size) :
    (statementBlock start).setting options source =
      (statementBlock other).setting options source := by
  have hfinish : Token.endAt (max start source.size) = Token.endAt (max other source.size) := by
    rw [Nat.max_eq_right hstart, Nat.max_eq_right hother]
  exact congrArg (fun finish => Setting.mk source options (.ofSource source) finish false) hfinish

section

variable {options : Options} {source : Source} {start : Nat}
  (hclean : ((statementBlock start).parse options source).diagnostics.errors = [])

include hclean

theorem statementBlock_run :
    block (blockRules options.maxDepth) ((statementBlock start).setting options source)
        ⟨source.tokensFrom start, {}, .empty .undefined⟩ =
      (.ok (), (statementBlock start).session options source) := by
  have hadds : Adds (block (blockRules options.maxDepth)) Form.block := inferInstance
  obtain ⟨-, -, -, value, -, hvalue, -⟩ :=
    hadds.extends_ ((statementBlock start).setting options source) _ rfl hclean
  exact Prod.ext hvalue rfl

/-- There is no block behind the end of the source. -/
theorem start_le_size_of_statementBlock : start ≤ source.size := by
  by_contra hlate
  have hnone := Source.tokensFrom_of_size_le (Nat.le_of_not_le hlate)
  have hended : ((statementBlock start).setting options source).Ended := rfl
  obtain ⟨opening, rest, _, hahead, -⟩ :=
    block_opens hended ⟨start, rfl⟩ (statementBlock_run hclean)
  cases hnone.symm.trans hahead

/-- A block that is parsed without an error is one that the rule builds, and so are the blocks below
it. -/
theorem statementBlock_builds :
    let root := ((statementBlock start).parse options source).root
    let builds := ((statementBlock start).setting options source).BuildsBlock options.maxDepth
    builds root ∧ root.BlocksBelow builds := by
  intro root builds
  have hrun := statementBlock_run hclean
  have hchildren : ((statementBlock start).session options source).building.children = [root] := by
    obtain ⟨inner, -, hinner⟩ := node_ok hrun
    have hone : ((statementBlock start).session options source).building.children =
        [inner.building] := by
      rw [hinner]
      exact Node.children_append _ _
    change _ = [((statementBlock start).session options source).building.children.headD _]
    rw [hone]
    rfl
  refine ⟨⟨_, Nat.le_refl _, _, _, _, ⟨start, rfl⟩, hrun, hclean, hchildren⟩, ?_⟩
  have hroom : Fact (options.maxDepth ≤ options.maxDepth) := ⟨Nat.le_refl _⟩
  have hstatement := keepsBlocks_statement hroom.out
  have hkeeps : KeepsBlocks options.maxDepth (block (blockRules options.maxDepth)) := inferInstance
  have hholds := hkeeps.holds ((statementBlock start).setting options source) _ rfl
    ⟨⟨start, rfl⟩, .empty _⟩ hclean
  refine hholds.blocks.nodes root ?_
  change root ∈ ((statementBlock start).session options source).building.children
  rw [hchildren]
  exact List.mem_singleton_self root

end

/-- Every block in the tree of a block that is parsed without an error, but for the bodies of
functions, which are only captured, is found again where it is parsed on its own. -/
theorem statementBlock_nested (options : Options) (source : Source) (start : Nat)
    (hclean : ((statementBlock start).parse options source).diagnostics.errors = []) :
    let root := ((statementBlock start).parse options source).root
    ∀ inner, inner.kind = .statementBlock →
      (inner = root ∨ ∃ parent ∈ root.descendants, parent.kind ≠ .function ∧
        inner ∈ parent.children) →
      ∃ span, inner.span = some span ∧
        let again := (statementBlock span.start).parse options source
        again.diagnostics.errors = [] ∧ again.root = inner := by
  intro root inner hkind hinner
  let setting := (statementBlock start).setting options source
  obtain ⟨hroot, hbelow⟩ := statementBlock_builds hclean
  have hbuilds : setting.BuildsBlock options.maxDepth inner := by
    rcases hinner with rfl | ⟨parent, hparent, hplain, hmem⟩
    · exact hroot
    · exact (hbelow.descendant parent hparent).blocks hplain inner hmem hkind
  have hended : setting.Ended := rfl
  have hwhole : setting.Whole := Nat.le_max_right _ _
  obtain ⟨opening, rest, stop, after, hreads, hspan, hrun, hafter, hchildren⟩ :=
    hbuilds.again hended hwhole
  have htokens : source.tokensFrom opening.span.start = opening :: rest :=
    hreads.eq_tokensFrom hwhole
  have hstart := start_le_size_of_statementBlock hclean
  have hopening : opening.span.start ≤ source.size :=
    Nat.le_of_lt (Nat.lt_of_lt_of_le hreads.start_lt_stop hreads.stop_le_size)
  have hsession : (statementBlock opening.span.start).session options source = after := by
    unfold session
    rw [statementBlock_setting options hopening hstart]
    change (block _ _ ⟨source.tokensFrom opening.span.start, _, _⟩).2 = _
    rw [htokens, hrun]
  refine ⟨_, hspan, ?_, ?_⟩
  · change ((statementBlock opening.span.start).session options source).diagnostics.errors = []
    rw [hsession]
    exact hafter
  · change ((statementBlock opening.span.start).session options source).building.children.headD _ =
      inner
    rw [hsession, hchildren]
    rfl

/-- A block below a condition, three levels deep, with a lambda whose body is not parsed. -/
theorem statementBlock_nested_condition :
    let source : Source := ['{', 'i', 'f', '(', 'a', ')', '{', 'A', '<', 'A', '<', 'i', 'n', 't', '>',
      '>', 'b', ';', 'f', '(', 'f', 'u', 'n', 'c', 't', 'i', 'o', 'n', '(', ')', '{', '}', ')', ';',
      '}', '}']
    let options : Options := { templateTypes := ["A"], maxDepth := 5 }
    let root := ((statementBlock 0).parse options source).root
    let condition := root.children.headD root
    let inner := condition.children.getLastD root
    ((statementBlock 0).parse options source).diagnostics.errors = [] ∧
      inner.kind = .statementBlock ∧ inner.span = some ⟨6, 35⟩ ∧
      ((statementBlock 6).parse options source).diagnostics.errors = [] ∧
      ((statementBlock 6).parse options source).root = inner := by
  intro source options root condition inner
  have hclean : ((statementBlock 0).parse options source).diagnostics.errors = [] := by decide +kernel
  have hkind : inner.kind = .statementBlock := by decide +kernel
  have hspan : inner.span = some ⟨6, 35⟩ := by decide +kernel
  have hparent : ∃ parent ∈ root.descendants, parent.kind ≠ .function ∧ inner ∈ parent.children := by
    decide +kernel
  obtain ⟨span, hsome, hagain⟩ :=
    statementBlock_nested options source 0 hclean inner hkind (.inr hparent)
  obtain rfl := Option.some.inj (hsome.symm.trans hspan)
  exact ⟨hclean, hkind, hspan, hagain⟩

end Entry

end ScriptSyntax
