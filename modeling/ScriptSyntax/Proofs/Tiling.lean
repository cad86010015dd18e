import ScriptSyntax.Proofs.Coverage
import ScriptSyntax.Proofs.StatementBlock
import ScriptSyntax.Proofs.TreeGrammar.Statement
import ScriptSyntax.Proofs.TreeOrder

/-!
# Blocks without errors are tiled by their statements

Between the braces of a block in which no error is reported each token lies in the span of one
statement.  A round of the block that comes to its end adds one child, and the child covers what the
round has passed.  Operators that are read anew on the way make no difference, because the next
statement starts behind a semicolon or a closing brace, and these are read only once.
-/

namespace ScriptSyntax

/-- The spans of the nodes stand one behind the other, and each of the tokens lies in one of them
alone. -/
structure Tiles (nodes : List Node) (tokens : List Token) : Prop where
  ordered : ∃ spans : List Span, nodes.map (·.span) = spans.map some ∧ spans.Pairwise Span.Precedes
  covered : ∀ token ∈ tokens, ∃! index : Fin nodes.length, nodes[index].Covers token.span

/-! ## Nodes in a row -/

section Row

variable {nodes : List Node} {tokens : List Token} {token : Token}

theorem map_span_eq (h : ∀ node ∈ nodes, node.span.isSome) :
    nodes.map (·.span) = (nodes.filterMap (·.span)).map some := by
  induction nodes with
  | nil => rfl
  | cons node rest ih =>
      obtain ⟨span, hspan⟩ := Option.isSome_iff_exists.mp (h node List.mem_cons_self)
      rw [List.map_cons, List.filterMap_cons_some hspan, List.map_cons, hspan,
        ih fun other hmem => h other (List.mem_cons_of_mem _ hmem)]

/-- What stands in two spans, one behind the other, is empty. -/
theorem covers_once (hordered : (nodes.filterMap (·.span)).Pairwise Span.Precedes)
    (htoken : token.span.start < token.span.stop) {first second : Fin nodes.length}
    (hfirst : nodes[first].Covers token.span) (hsecond : nodes[second].Covers token.span) :
    ¬first < second := by
  intro hlt
  obtain ⟨wide, hwide, -, hstop⟩ := hfirst
  obtain ⟨wide', hwide', hstart, -⟩ := hsecond
  have hpairs := List.pairwise_iff_getElem.mp (List.pairwise_filterMap.mp hordered)
  have hprecedes : wide.stop ≤ wide'.start :=
    hpairs first second first.isLt second.isLt hlt wide hwide wide' hwide'
  omega

theorem tiles_of_ordered (hordered : (nodes.filterMap (·.span)).Pairwise Span.Precedes)
    (hspans : ∀ node ∈ nodes, node.span.isSome)
    (htokens : ∀ token ∈ tokens, token.span.start < token.span.stop)
    (hcovered : ∀ token ∈ tokens, ∃ node ∈ nodes, node.Covers token.span) :
    Tiles nodes tokens := by
  refine ⟨⟨_, map_span_eq hspans, hordered⟩, ?_⟩
  intro token hmem
  obtain ⟨node, hnode, hcovers⟩ := hcovered token hmem
  obtain ⟨index, hindex, rfl⟩ := List.getElem_of_mem hnode
  let found : Fin nodes.length := ⟨index, hindex⟩
  have hcovers : nodes[found].Covers token.span := hcovers
  refine ⟨found, hcovers, ?_⟩
  intro other hother
  have hsolid := htokens token hmem
  have hbefore := covers_once hordered hsolid hother hcovers
  have hbehind := covers_once hordered hsolid hcovers hother
  exact le_antisymm (not_lt.mp hbehind) (not_lt.mp hbefore)

end Row

namespace Grammar

/-! ## What is read anew -/

section Reading

variable {setting : Setting} {tokens next rest : List Token} {token : Token}

/-- A place in a list is in its front part or behind it. -/
theorem mem_or_suffix_of_append {front : List Token} (h : token :: rest <:+ front ++ next) :
    token ∈ front ∨ token :: rest <:+ next := by
  induction front with
  | nil => exact .inr h
  | cons first front ih =>
      rcases List.suffix_cons_iff.mp h with heq | hsuffix
      · rw [(List.cons.inj heq).1]
        exact .inl List.mem_cons_self
      · exact (ih hsuffix).imp_left (List.mem_cons_of_mem first)

theorem suffix_of_angles {angles : List Token} (h : token :: rest <:+ angles ++ next)
    (hangles : ∀ other ∈ angles, other.kind.isAngle = true) (hkind : token.kind.isAngle = false) :
    token :: rest <:+ next := by
  refine (mem_or_suffix_of_append h).resolve_left fun hmem => ?_
  rw [hangles token hmem] at hkind
  cases hkind

/-- Behind a token that is no angle bracket, nothing is read anew. -/
theorem Setting.Reads.suffix_of_leads (h : setting.Reads tokens)
    (hleads : setting.Leads tokens next) (hsuffix : token :: rest <:+ next)
    (hkind : token.kind.isAngle = false) : token :: rest <:+ tokens := by
  induction hleads with
  | refl => exact hsuffix
  | tail hbefore hstep ih =>
      have hreads := h.leads hbefore
      rcases hstep with ⟨passed, rfl⟩ | hgreater
      · exact ih (hsuffix.trans (List.suffix_cons _ _))
      · obtain ⟨angle, behind, rfl, hangle, rfl⟩ := hreads.of_afterGreater? hgreater
        obtain ⟨offset, hoffset⟩ := hreads
        obtain ⟨freshAngles, staleAngles, common, hsynced⟩ :=
          Source.resynced_of_startsWithGreater hoffset.symm hangle
        rw [hsynced.fresh_eq] at hsuffix
        have hcommon := suffix_of_angles hsuffix hsynced.freshAngle hkind
        have hbehind : common <:+ angle :: behind := by
          rw [hsynced.stale_eq]
          exact (List.suffix_append _ _).trans (List.suffix_cons _ _)
        exact ih (hcommon.trans hbehind)

/-- What covers the first and the last of some tokens covers all of them. -/
theorem Setting.Reads.covers {node : Node} {passed behind : List Token} {last : Token}
    (h : setting.Reads (passed ++ last :: behind))
    (hfirst : node.Covers ((passed ++ last :: behind).headD setting.finish).span)
    (hlast : node.Covers last.span) (hmem : token ∈ passed ++ [last]) : node.Covers token.span := by
  obtain ⟨wide, hwide, hstart, -⟩ := hfirst
  obtain ⟨same, hsame, -, hstop⟩ := hlast
  obtain rfl : wide = same := Option.some.inj (hwide.symm.trans hsame)
  have hreads : setting.Reads ((passed ++ [last]) ++ behind) := by simpa using h
  refine ⟨wide, hwide, Nat.le_trans hstart ?_, Nat.le_trans ?_ hstop⟩
  · cases passed with
    | nil =>
        rw [List.mem_singleton.mp hmem]
        exact Nat.le_refl _
    | cons first passed =>
        rcases List.mem_cons.mp hmem with rfl | hmem
        · exact Nat.le_refl _
        · have hbehind := hreads.stop_le_of_mem (List.mem_append_left behind hmem)
          exact Nat.le_trans (Nat.le_of_lt h.start_lt_stop) hbehind
  · have hgetLast : (passed ++ [last]).getLast? = some last := List.getLast?_concat
    rcases hreads.before_last hgetLast hmem with rfl | ⟨hbefore, -⟩
    · exact Nat.le_refl _
    · have hlt := (h.suffix (List.suffix_append passed _)).start_lt_stop
      exact Nat.le_trans hbefore (Nat.le_of_lt hlt)

end Reading

/-! ## Balanced braces -/

/-- With so many blocks open inside it, the block around the session is closed by the brace that is
given, or by none. -/
structure Balanced (setting : Setting) (close : Option Token) (level : Nat) (session : Session) :
    Prop where
  reads : setting.Reads session.ahead
  closing : closingBrace? level session.ahead = close

namespace Balanced

variable {setting : Setting} {close : Option Token} {level : Nat} {session : Session}

theorem pass (h : Balanced setting close level session) (imprint : Imprint)
    (hopen : (setting.head session).kind ≠ .openBrace)
    (hclose : (setting.head session).kind ≠ .closeBrace) :
    Balanced setting close level (setting.passed imprint session) := by
  refine ⟨h.reads.tail, ?_⟩
  rw [← h.closing]
  change closingBrace? level session.ahead.tail = closingBrace? level session.ahead
  cases hahead : session.ahead with
  | nil => rfl
  | cons token rest =>
      rw [Setting.head_cons hahead] at hopen hclose
      exact (closingBrace?_other hopen hclose).symm

theorem enter (hended : setting.Ended) (h : Balanced setting close level session)
    (imprint : Imprint) (hopen : (setting.head session).kind = .openBrace) :
    Balanced setting close (level + 1) (setting.passed imprint session) := by
  refine ⟨h.reads.tail, ?_⟩
  have hcons : session.ahead = setting.head session :: session.ahead.tail :=
    hended.ahead_cons (by simp [hopen])
  rw [← h.closing, hcons, closingBrace?_openBrace hopen]
  rfl

theorem leave (hended : setting.Ended) (h : Balanced setting close (level + 1) session)
    (imprint : Imprint) (hclose : (setting.head session).kind = .closeBrace) :
    Balanced setting close level (setting.passed imprint session) := by
  refine ⟨h.reads.tail, ?_⟩
  have hcons : session.ahead = setting.head session :: session.ahead.tail :=
    hended.ahead_cons (by simp [hclose])
  rw [← h.closing, hcons, closingBrace?_closeBrace_succ hclose]
  rfl

theorem goOn (h : Balanced setting close level session) {other : Nat} {after : Session}
    (hleads : setting.Leads session.ahead after.ahead)
    (hclosing : closingBrace? other after.ahead = closingBrace? level session.ahead) :
    Balanced setting close other after :=
  ⟨h.reads.leads hleads, hclosing.trans h.closing⟩

end Balanced

/-- That braces are balanced, as an invariant of runs in which no error is reported. -/
def balance (setting : Setting) (hended : setting.Ended) (hwhole : setting.Whole)
    (close : Option Token) : Invariant where
  setting := setting
  holds := Balanced setting close
  strict := True
  passes kind := kind ≠ .openBrace ∧ kind ≠ .closeBrace
  ended := hended
  whole := hwhole
  reads h := h.reads
  pass imprint h hkind := h.pass imprint hkind.1 hkind.2
  note _ h _ := ⟨h.reads, h.closing⟩
  label h := ⟨h.reads, h.closing⟩
  greater h hgreater :=
    h.goOn (.single (.inr hgreater)) (closingBrace?_afterGreater h.reads hgreater)
  opened _ h := ⟨h.reads, h.closing⟩
  closed _ _ hafter := ⟨hafter.reads, hafter.closing⟩
  report _ hlenient := absurd trivial hlenient

theorem ne_brace_of_isPlain {kind : TokenKind} (h : kind.isPlain = true) :
    kind ≠ .openBrace ∧ kind ≠ .closeBrace := by
  refine ⟨?_, ?_⟩ <;>
  · intro hbrace
    rw [hbrace] at h
    cases h

theorem semicolon_ne_brace :
    TokenKind.semicolon ≠ .openBrace ∧ TokenKind.semicolon ≠ .closeBrace :=
  ⟨by decide, by decide⟩

section Balance

variable {setting : Setting} {hended : setting.Ended} {hwhole : setting.Whole}
  {close : Option Token}

theorem balance_capturedBlock :
    (balance setting hended hwhole close).comparison.Keeps Parse.capturedBlock := by
  refine Invariant.capturedBlock_keeps (fun h hhead => Balanced.enter hended h .span hhead) ?_ ?_
  · rintro level session _ h rfl hcomplete
    have hclosing := @closingBrace?_of_complete session.ahead 0 level hcomplete
    rw [Nat.zero_add] at hclosing
    refine Balanced.goOn h (setting.leads_of_suffix ?_) hclosing.symm
    exact Parse.suffix_of_append (Capture.group_append .openBrace .closeBrace 0 session.ahead)
  · intro _ _ _ hlenient
    exact absurd trivial hlenient

/-- Balanced braces, with what the rules for statements need. -/
def statementBalance (setting : Setting) (hended : setting.Ended) (hwhole : setting.Whole)
    (close : Option Token) : StatementInvariant where
  toInvariant := balance setting hended hwhole close
  plain := ne_brace_of_isPlain
  enter imprint h hhead := h.enter hended imprint hhead
  leave imprint h hhead := h.leave hended imprint hhead
  weaken hlenient := absurd trivial hlenient
  slot h _ := ⟨h.reads, h.closing⟩
  warn h := ⟨h.reads, h.closing⟩
  capturedBlock := balance_capturedBlock
  semicolon := semicolon_ne_brace
  stop hlenient := absurd trivial hlenient
  resume hlenient := absurd trivial hlenient

end Balance

/-! ## The rounds of a block -/

section Rounds

variable {setting : Setting} {session after : Session} {room : Nat} {start : List Token}

open Parse Comparison

/-- A statement that is read without an error leaves the braces around it balanced. -/
theorem blockItem_balanced (hended : setting.Ended) (hwhole : setting.Whole)
    (hreads : setting.Reads session.ahead) (hquiet : after.faults = [])
    (hrun : blockItem (blockRules room) setting session = (.ok (), after)) :
    closingBrace? 0 after.ahead = closingBrace? 0 session.ahead := by
  let I := statementBalance setting hended hwhole (closingBrace? 0 session.ahead)
  let S := I.comparison
  have hbefore : session.faults = [] := by
    have hfaults := (advance_of_run hrun).faults
    rwa [hquiet, List.prefix_nil] at hfaults
  have hagree : S.agree (0 : Nat) session session := ⟨rfl, ⟨hreads, rfl⟩, fun _ => hbefore⟩
  have hends := (blockItem_keeps (blockRules_keeps (S := S) room)).ends hagree
  change S.Ends _ _ (blockItem (blockRules room) setting session)
    (blockItem (blockRules room) setting session) at hends
  rw [hrun] at hends
  cases hends with
  | lost hlost => exact absurd hquiet hlost.2
  | ok hpost => exact hpost.2.1.closing

/-- A round behind which the block goes on without an error has read a statement. -/
theorem blockStep_again (hquiet : after.faults = [])
    (hrun : blockStep (blockRules room) start setting session = (.ok true, after)) :
    blockItem (blockRules room) setting session = (.ok (), after) := by
  unfold blockStep at hrun
  rw [nextIs_bind] at hrun
  split at hrun
  · obtain ⟨_, middle, -, hend⟩ := bind_ok hrun
    cases hend
  · have hproceeds := proceeds (blockItem (blockRules room)) setting session
    rw [bind_run, attempt_run] at hrun
    rcases hitem : blockItem (blockRules room) setting session with
      ⟨interruption | value, middle⟩ <;> rw [hitem] at hrun hproceeds
    · -- What has failed has reported an error, and recovery takes no report back.
      have hfaulty := hproceeds.faulty interruption rfl
      have hrecovered : after.faults = middle.faults := by
        simp only [Option.isNone_none, ↓reduceIte] at hrun
        rw [ahead_bind] at hrun
        split at hrun <;> cases hrun
        rfl
      rw [← hrecovered, hquiet] at hfaulty
      exact absurd hfaulty (Nat.not_lt_zero _)
    · cases hrun
      rfl

/-- What the rounds of a block, from one session to another, add to its node. -/
structure Laid (setting : Setting) (session after : Session) (inside : List Token)
    (closing : Token) (children : List Node) : Prop where
  quiet : session.faults = []
  ahead : session.ahead = inside ++ closing :: after.ahead
  closes : closingBrace? 0 session.ahead = some closing
  added : after.building.children = session.building.children ++ children
  spans : ∀ child ∈ children, child.span.isSome
  covered : ∀ token ∈ inside, ∃ child ∈ children, child.Covers token.span

/-- The closing brace, behind which no round follows. -/
theorem laid_last (hended : setting.Ended) (hquiet : after.faults = [])
    (hrun : blockStep (blockRules room) start setting session = (.ok false, after)) :
    Laid setting session after [] (setting.head session) [] := by
  obtain ⟨hkind, rfl⟩ := blockStep_last hrun
  have hcons : session.ahead = setting.head session :: session.ahead.tail :=
    hended.ahead_cons (by simp [hkind])
  refine ⟨hquiet, hcons, ?_, ?_, by simp, by simp⟩
  · rw [hcons]
    exact closingBrace?_closeBrace hkind
  · rw [List.append_nil]
    exact Node.children_widen _ _

theorem isAngle_of_endsStatement {kind : TokenKind} (h : endsStatement kind = true) :
    kind.isAngle = false := by
  simp only [endsStatement, Bool.or_eq_true, decide_eq_true_eq] at h
  rcases h with rfl | rfl <;> rfl

/-- A statement in front of the others. -/
theorem Laid.cons {middle : Session} {inside : List Token} {closing : Token} {children : List Node}
    (h : Laid setting middle after inside closing children) (hended : setting.Ended)
    (hwhole : setting.Whole) (hreads : setting.Reads session.ahead)
    (hrun : blockItem (blockRules room) setting session = (.ok (), middle)) :
    ∃ passed child, Laid setting session after (passed ++ inside) closing (child :: children) := by
  obtain ⟨child, hchild, hfirst, last, hleads, hkind, hlast⟩ :=
    Encloses.encloses setting session () middle hended hreads hrun
  obtain ⟨passed, hahead⟩ :=
    hreads.suffix_of_leads hleads List.suffix_rfl (isAngle_of_endsStatement hkind)
  have hfaults := (advance_of_run hrun).faults
  rw [h.quiet, List.prefix_nil] at hfaults
  rw [← hahead] at hreads
  have hcovers : ∀ token ∈ passed ++ [last], child.Covers token.span := by
    intro token hmem
    rw [Setting.head, ← hahead] at hfirst
    exact hreads.covers hfirst hlast hmem
  refine ⟨passed ++ [last], child, hfaults, ?_, ?_, ?_, ?_, ?_⟩
  · rw [← hahead, h.ahead]
    simp
  · rw [hahead] at hreads
    rw [← blockItem_balanced hended hwhole hreads h.quiet hrun]
    exact h.closes
  · rw [h.added, hchild, Node.children_append]
    simp
  · intro other hmem
    rcases List.mem_cons.mp hmem with rfl | hmem
    · obtain ⟨wide, hwide, -⟩ := hlast
      rw [hwide]
      rfl
    · exact h.spans other hmem
  · intro token hmem
    rcases List.mem_append.mp hmem with hmem | hmem
    · exact ⟨child, List.mem_cons_self, hcovers token hmem⟩
    · obtain ⟨other, hother, hcovered⟩ := h.covered token hmem
      exact ⟨other, List.mem_cons_of_mem _ hother, hcovered⟩

/-- The rounds of a block in which no error is reported lead to the brace that closes it. -/
theorem blockItems_laid (hended : setting.Ended) (hwhole : setting.Whole)
    (hreads : setting.Reads session.ahead) (hquiet : after.faults = [])
    (hrun : repeatRule (blockStep (blockRules room) start) setting session = (.ok (), after)) :
    ∃ inside closing children, Laid setting session after inside closing children := by
  have hrepeats : Repeats (blockStep (blockRules room) start) setting session _ :=
    repeatRule_repeats hended hreads
  rw [hrun] at hrepeats
  clear hrun
  -- From the last round back, because what is read without an error is known from the end on.
  generalize hresult : (Except.ok (), after) = result at hrepeats
  induction hrepeats with
  | last hbody =>
      cases hresult
      exact ⟨[], _, [], laid_last hended hquiet hbody⟩
  | broken hbody => cases hresult
  | again hbody hrest ih =>
      have hleads := Forwards.leads setting _ _ _ hbody
      obtain ⟨inside, closing, children, hlaid⟩ := ih (hreads.leads hleads) hresult
      obtain ⟨passed, child, hmore⟩ :=
        hlaid.cons hended hwhole hreads (blockStep_again hlaid.quiet hbody)
      exact ⟨passed ++ inside, closing, child :: children, hmore⟩

end Rounds

/-! ## Whole blocks -/

section Blocks

variable {setting : Setting} {room : Nat} {session after inner : Session} {start rest : List Token}
  {opening closing : Token} (hended : setting.Ended) (hwhole : setting.Whole)

open Parse

include hended

/-- A block that comes to its end has begun with a brace, which its node covers. -/
theorem block_opens (hreads : setting.Reads session.ahead)
    (hrun : block (blockRules room) setting session = (.ok (), after)) :
    ∃ opening rest inner, session.ahead = opening :: rest ∧ opening.kind = .openBrace ∧
      after = session.closed inner ∧ inner.building.Covers opening.span ∧
      repeatRule (blockStep (blockRules room) session.ahead) setting
        (setting.passed .span (session.opened .statementBlock)) = (.ok (), inner) := by
  obtain ⟨inner, hinner, rfl⟩ := node_ok hrun
  have hbody := hinner
  rw [ahead_bind] at hbody
  obtain ⟨_, opened, hopen, hitems⟩ := bind_ok hbody
  obtain ⟨hkind, rfl⟩ := coverRequired_passed hopen
  change (setting.head session).kind = .openBrace at hkind
  have hcons : session.ahead = setting.head session :: session.ahead.tail :=
    hended.ahead_cons (by simp [hkind])
  have hsolid : (setting.head session).span.start < (setting.head session).span.stop := by
    rw [hcons] at hreads
    exact hreads.start_lt_stop
  have hcovers : inner.building.Covers (setting.head session).span :=
    CoversHead.covers setting (session.opened .statementBlock) () inner hsolid hinner
  exact ⟨_, _, inner, hcons, hkind, rfl, hcovers, hitems⟩

include hwhole

/-- The node of a block in which no error is reported reaches from brace to brace. -/
theorem blockItems_span (hreads : setting.Reads (opening :: rest))
    (hclosing : closingBrace? 0 rest = some closing) (hfirst : inner.building.Covers opening.span)
    (hquiet : inner.faults = [])
    (hrun : repeatRule (blockStep (blockRules room) start) setting
      (setting.passed .span ⟨opening :: rest, {}, .empty .statementBlock⟩) = (.ok (), inner)) :
    inner.building.span = some ⟨opening.span.start, closing.span.stop⟩ := by
  have hinside := inBlock_start hwhole True hreads hclosing .statementBlock
  have hbegun : (setting.passed .span ⟨opening :: rest, {}, .empty .statementBlock⟩).building.span =
      some opening.span := Node.span_widen hreads.start_lt_stop
  have hbehind := blockItems_behind hended hwhole hinside (fun _ => rfl)
    (Option.isSome_of_eq_some hbegun) room start
  rw [hrun] at hbehind
  have hexact := hbehind.resolve_left fun hlost => hlost.2 hquiet
  obtain ⟨wide, hwide, hreached⟩ := hexact.reached trivial
  obtain ⟨same, hsame, hstart, -⟩ := hfirst
  obtain rfl : wide = same := Option.some.inj (hwide.symm.trans hsame)
  obtain ⟨hlow, -, hhigh⟩ := hexact.building.spans wide hwide
  rw [hwide, ← Nat.le_antisymm hstart hlow, ← Nat.le_antisymm hhigh hreached]

/-- The children of a block in which no error is reported cover the tokens between its braces. -/
theorem block_laid (hreads : setting.Reads session.ahead) (hfresh : session.diagnostics = {})
    (hquiet : after.faults = [])
    (hrun : block (blockRules room) setting session = (.ok (), after)) :
    ∃ opening inside closing behind, ∃ root : Node,
      session.ahead = opening :: (inside ++ closing :: behind) ∧ opening.kind = .openBrace ∧
      closingBrace? 0 (inside ++ closing :: behind) = some closing ∧
      after.building = session.building.append root ∧
      root.span = some ⟨opening.span.start, closing.span.stop⟩ ∧
      (∀ child ∈ root.children, child.span.isSome) ∧
      ∀ token ∈ inside, ∃ child ∈ root.children, child.Covers token.span := by
  obtain ⟨opening, rest, inner, hahead, hopen, rfl, hfirst, hitems⟩ :=
    block_opens hended hreads hrun
  have hquiet : inner.faults = [] := hquiet
  obtain ⟨inside, closing, children, hlaid⟩ :=
    blockItems_laid hended hwhole hreads.tail hquiet hitems
  have hopened : session.opened .statementBlock =
      ⟨opening :: rest, {}, .empty .statementBlock⟩ := by
    rw [Session.opened, hahead, hfresh]
  rw [hahead] at hreads
  rw [hopened] at hitems hlaid
  have hrest : rest = inside ++ closing :: inner.ahead := hlaid.ahead
  have hclosing : closingBrace? 0 rest = some closing := hlaid.closes
  have hchildren : inner.building.children = children := by
    rw [hlaid.added]
    change ((Node.empty .statementBlock).widen opening.span).children ++ children = children
    rw [Node.children_widen]
    rfl
  have hspan := blockItems_span hended hwhole hreads hclosing hfirst hquiet hitems
  refine ⟨opening, inside, closing, inner.ahead, inner.building, ?_, hopen, ?_, rfl, hspan, ?_, ?_⟩
  · rw [hahead, hrest]
  · rw [← hrest]
    exact hclosing
  · rw [hchildren]
    exact hlaid.spans
  · rw [hchildren]
    exact hlaid.covered

end Blocks

end Grammar

namespace Entry

open Grammar Grammar.Parse

/-- A block that is parsed on its own without an error reaches from its opening brace to the brace
that closes it, and its children tile the tokens between the two. -/
theorem statementBlock_tiled (options : Options) (source : Source) (start : Nat)
    (hclean : ((statementBlock start).parse options source).diagnostics.errors = []) :
    let root := ((statementBlock start).parse options source).root
    ∃ opening inside closing behind,
      source.tokensFrom start = opening :: (inside ++ closing :: behind) ∧
      opening.kind = .openBrace ∧
      closingBrace? 0 (inside ++ closing :: behind) = some closing ∧
      root.span = some ⟨opening.span.start, closing.span.stop⟩ ∧
      Tiles root.children inside := by
  intro root
  let entry := statementBlock start
  let setting := entry.setting options source
  let session : Session := ⟨source.tokensFrom start, {}, .empty .undefined⟩
  have hended : setting.Ended := rfl
  have hwhole : setting.Whole := Nat.le_max_right _ _
  have hreads : setting.Reads session.ahead := ⟨start, rfl⟩
  have hrule : Adds (block (blockRules options.maxDepth)) Form.block := inferInstance
  obtain ⟨-, hfaults, -, value, -, hvalue, -⟩ := hrule.extends_ setting session hended hclean
  have hquiet : (entry.session options source).faults = [] := hfaults
  have hrun : block (blockRules options.maxDepth) setting session =
      (.ok (), entry.session options source) := Prod.ext hvalue rfl
  obtain ⟨opening, inside, closing, behind, inner, hahead, hopen, hclosing, hbuilding, hspan,
    hspans, hcovered⟩ := block_laid hended hwhole hreads rfl hquiet hrun
  have hroot : root = inner := by
    change (entry.session options source).building.children.headD _ = inner
    rw [hbuilding, Node.children_append]
    rfl
  have hordered := entry.siblings_of_quiet options source hquiet root (by
    rw [Node.descendants_eq]
    exact List.mem_cons_self)
  rw [← hroot] at hspan hspans hcovered
  refine ⟨opening, inside, closing, behind, hahead, hopen, hclosing, hspan, ?_⟩
  refine tiles_of_ordered hordered hspans ?_ hcovered
  intro token hmem
  rw [hahead] at hreads
  exact hreads.lt_of_mem (List.mem_cons_of_mem _ (List.mem_append_left _ hmem))

/-- A declaration whose brackets are closed by one operator, and a statement behind it. -/
theorem statementBlock_tiled_nestedTemplate :
    let source : Source :=
      ['{', 'A', '<', 'A', '<', 'i', 'n', 't', '>', '>', 'b', ';', '-', 'b', ';', '}', '}']
    let outcome := (statementBlock 0).parse { templateTypes := ["A"] } source
    outcome.diagnostics.errors = [] ∧
      outcome.root.children.map (·.span) = [some ⟨1, 12⟩, some ⟨12, 15⟩] ∧
      ∃ opening inside closing behind,
        source.tokensFrom 0 = opening :: (inside ++ closing :: behind) ∧
        opening.kind = .openBrace ∧
        closingBrace? 0 (inside ++ closing :: behind) = some closing ∧
        outcome.root.span = some ⟨opening.span.start, closing.span.stop⟩ ∧
        Tiles outcome.root.children inside := by
  have hclean : ((statementBlock 0).parse { templateTypes := ["A"] } ['{', 'A', '<', 'A', '<', 'i',
      'n', 't', '>', '>', 'b', ';', '-', 'b', ';', '}', '}']).diagnostics.errors = [] := by
    decide +kernel
  exact ⟨hclean, by decide +kernel, statementBlock_tiled _ _ _ hclean⟩

end Entry

end ScriptSyntax
