import ScriptSyntax.Proofs.Braces
import ScriptSyntax.Proofs.Comparison.Invariant

/-!
# Statement blocks stay inside their braces

A block that is parsed on its own never goes past the brace that closes it.  The rules open and
close braces in blocks, switches and lists, and they give up on some of them after an error.  So
the braces that a rule believes to be open may be fewer than those that are, but never more.
-/

namespace ScriptSyntax

/-- The span lies between two offsets, and it is not inverted. -/
structure Span.Within (low high : Nat) (span : Span) : Prop where
  low_le : low ≤ span.start
  ordered : span.start ≤ span.stop
  le_high : span.stop ≤ high

theorem Span.Within.hull {low high : Nat} {old new : Span} (hold : old.Within low high)
    (hnew : new.Within low high) : (old.hull new).Within low high where
  low_le := Nat.le_min.mpr ⟨hold.low_le, hnew.low_le⟩
  ordered := Nat.le_trans (Nat.min_le_left _ _) (Nat.le_trans hold.ordered (Nat.le_max_left _ _))
  le_high := Nat.max_le.mpr ⟨hold.le_high, hnew.le_high⟩

theorem Span.ne_nowhere {span : Span} (h : span.start < span.stop) : span ≠ .nowhere := by
  intro hnowhere
  rw [hnowhere] at h
  exact Nat.lt_irrefl 0 h

/-- All spans in the tree lie between two offsets. -/
inductive Node.Within (low high : Nat) : Node → Prop
  | mk {node : Node} (span : ∀ span, node.span = some span → span.Within low high)
      (children : ∀ child ∈ node.children, Within low high child) : Within low high node

namespace Node.Within

variable {low high : Nat} {node child : Node}

theorem spans (h : node.Within low high) : ∀ span, node.span = some span → span.Within low high := by
  cases h with
  | mk span children => exact span

theorem nodes (h : node.Within low high) : ∀ child ∈ node.children, child.Within low high := by
  cases h with
  | mk span children => exact children

theorem empty (kind : NodeKind) : (Node.empty kind).Within low high := by
  refine .mk ?_ ?_
  · intro span hspan
    cases hspan
  · intro child hmem
    cases hmem

theorem widen (h : node.Within low high) {span : Span} (hspan : span.Within low high) :
    (node.widen span).Within low high := by
  refine .mk (span_of_widen h.spans (fun _ => hspan) fun hold => hold.hull hspan) ?_
  rw [children_widen]
  exact h.nodes

theorem anchor (h : node.Within low high) {token : Token} (hspan : token.span.Within low high) :
    (node.anchor token).Within low high := by
  have hanchored : ({ node with token := some token.kind } : Node).Within low high :=
    .mk h.spans h.nodes
  exact hanchored.widen hspan

theorem append (h : node.Within low high) (hchild : child.Within low high) :
    (node.append child).Within low high := by
  refine .mk (span_of_append h.spans hchild.spans .hull) ?_
  rw [children_append]
  intro other hmem
  rcases List.mem_append.mp hmem with hmem | hmem
  · exact h.nodes other hmem
  · rw [List.mem_singleton.mp hmem]
    exact hchild

theorem imprinted (h : node.Within low high) {token : Token} (hspan : token.span.Within low high)
    (imprint : Grammar.Imprint) : (node.imprinted token imprint).Within low high := by
  cases imprint with
  | none => exact h
  | span => exact h.widen hspan
  | anchor => exact h.anchor hspan

end Node.Within

namespace Message

theorem head_insteadFoundText (token : Token) :
    (insteadFoundText token).toList.head? = some 'I' := by
  have hstring (text : String) : toString text = text := rfl
  unfold insteadFoundText
  split
  · simp [hstring]
  · split <;> simp [hstring]

theorem toList_unexpectedEndOfFile :
    unexpectedEndOfFile.text.toList = "Unexpected end of file".toList := rfl

/-- The report that the source ended is worded like no other. -/
theorem text_ne {message : Message} (h : message ≠ .unexpectedEndOfFile) :
    message.text ≠ unexpectedEndOfFile.text := by
  intro heq
  have hstring (text : String) : toString text = text := rfl
  have hlist : message.text.toList = "Unexpected end of file".toList := by
    rw [heq, toList_unexpectedEndOfFile]
  clear heq
  cases message with
  | unexpectedEndOfFile => exact h rfl
  | insteadFound token =>
      have hhead := head_insteadFoundText token
      have htext : insteadFoundText token = (insteadFound token).text := rfl
      rw [htext, hlist] at hhead
      exact absurd hhead (by decide)
  | _ =>
      unfold text at hlist
      simp [hstring] at hlist

end Message

namespace Grammar

/-- A report that a block may give: it lies inside, and it does not say that the source ended. -/
structure Placed (low high : Nat) (diagnostic : Diagnostic) : Prop where
  span : diagnostic.span.Within low high
  text : diagnostic.text ≠ Message.unexpectedEndOfFile.text
  severity : diagnostic.severity ≠ .info

/-- A session inside a block, where at least `count` blocks are open inside it.  If no error is
reported there are exactly so many. -/
structure InBlock (setting : Setting) (low : Nat) (close : Token) (strict : Prop) (count : Nat)
    (session : Session) : Prop where
  reads : setting.Reads session.ahead
  start : low ≤ (setting.head session).span.start
  closing : ∃ level, count ≤ level ∧ (strict → level = count) ∧
    closingBrace? level session.ahead = some close
  building : session.building.Within low close.span.stop
  reported : ∀ diagnostic ∈ session.diagnostics.reported, Placed low close.span.stop diagnostic

namespace InBlock

variable {setting : Setting} {low : Nat} {close : Token} {strict : Prop} {n m : Nat}
  {session : Session}

theorem head_eq (h : InBlock setting low close strict n session) :
    session.ahead = setting.head session :: session.ahead.tail := by
  obtain ⟨level, -, -, hclosing⟩ := h.closing
  cases htokens : session.ahead with
  | nil =>
      rw [htokens] at hclosing
      cases hclosing
  | cons token rest => rw [Setting.head_cons htokens, List.tail_cons]

theorem head_within (h : InBlock setting low close strict n session) :
    (setting.head session).span.Within low close.span.stop := by
  obtain ⟨level, -, -, hclosing⟩ := h.closing
  have hreads := h.reads
  rw [h.head_eq] at hclosing hreads
  have hlt := hreads.start_lt_stop
  refine ⟨h.start, Nat.le_of_lt hlt, ?_⟩
  rcases List.mem_cons.mp (mem_of_closingBrace? hclosing).1 with heq | hmem
  · exact Nat.le_of_eq (congrArg (·.span.stop) heq.symm)
  · have hle := hreads.stop_le_of_mem hmem
    obtain ⟨passed, behind, hsplit⟩ := List.append_of_mem hmem
    have hclose := (hreads.suffix ⟨_ :: passed, by rw [hsplit]; rfl⟩).start_lt_stop
    omega

theorem head_ne_end (h : InBlock setting low close strict n session) :
    (setting.head session).kind ≠ .endOfSource := by
  have hreads := h.reads
  rw [h.head_eq] at hreads
  exact hreads.ne_end

theorem first_within (h : InBlock setting low close strict n session) :
    (Span.ofLength (setting.head session).span.start 1).Within low close.span.stop := by
  have hreads := h.reads
  rw [h.head_eq] at hreads
  have hlt := hreads.start_lt_stop
  obtain ⟨hlow, -, hhigh⟩ := h.head_within
  refine ⟨hlow, Nat.le_succ _, ?_⟩
  change (setting.head session).span.start + 1 ≤ close.span.stop
  omega

theorem noted (h : InBlock setting low close strict n session) (imprint : Imprint) :
    InBlock setting low close strict n (setting.noted imprint session) :=
  ⟨h.reads, h.start, h.closing, h.building.imprinted h.head_within imprint, h.reported⟩

/-- Going on to other tokens in the block. -/
theorem goOn (hwhole : setting.Whole) (h : InBlock setting low close strict n session)
    {next : List Token} (hleads : setting.Leads session.ahead next)
    (hclosing : ∃ level, m ≤ level ∧ (strict → level = m) ∧ closingBrace? level next = some close) :
    InBlock setting low close strict m { session with ahead := next } := by
  refine ⟨h.reads.leads hleads, ?_, hclosing, h.building, h.reported⟩
  exact Nat.le_trans h.start (h.reads.start_le hwhole hleads)

theorem passed (hwhole : setting.Whole) (h : InBlock setting low close strict n session)
    (imprint : Imprint)
    (hclosing : ∃ level, m ≤ level ∧ (strict → level = m) ∧
      closingBrace? level session.ahead.tail = some close) :
    InBlock setting low close strict m (setting.passed imprint session) :=
  goOn hwhole (h.noted imprint) (setting.leads_tail _) hclosing

theorem pass (hwhole : setting.Whole) (h : InBlock setting low close strict n session)
    (imprint : Imprint) (hopen : (setting.head session).kind ≠ .openBrace)
    (hclose : (setting.head session).kind ≠ .closeBrace) :
    InBlock setting low close strict n (setting.passed imprint session) := by
  obtain ⟨level, hle, heq, hclosing⟩ := h.closing
  rw [h.head_eq, closingBrace?_other hopen hclose] at hclosing
  exact h.passed hwhole imprint ⟨level, hle, heq, hclosing⟩

theorem enter (hwhole : setting.Whole) (h : InBlock setting low close strict n session)
    (imprint : Imprint) (hopen : (setting.head session).kind = .openBrace) :
    InBlock setting low close strict (n + 1) (setting.passed imprint session) := by
  obtain ⟨level, hle, heq, hclosing⟩ := h.closing
  rw [h.head_eq, closingBrace?_openBrace hopen] at hclosing
  refine h.passed hwhole imprint ⟨level + 1, by omega, ?_, hclosing⟩
  intro hstrict
  rw [heq hstrict]

theorem leave (hwhole : setting.Whole) (h : InBlock setting low close strict (n + 1) session)
    (imprint : Imprint) (hclose : (setting.head session).kind = .closeBrace) :
    InBlock setting low close strict n (setting.passed imprint session) := by
  obtain ⟨level, hle, heq, hclosing⟩ := h.closing
  obtain ⟨level, rfl⟩ : ∃ smaller, level = smaller + 1 := ⟨level - 1, by omega⟩
  rw [h.head_eq, closingBrace?_closeBrace_succ hclose] at hclosing
  refine h.passed hwhole imprint ⟨level, by omega, ?_, hclosing⟩
  intro hstrict
  exact Nat.succ.inj (heq hstrict)

theorem shortened (hwhole : setting.Whole) (h : InBlock setting low close strict n session)
    {tokens : List Token} (hgreater : setting.afterGreater? session.ahead = some tokens) :
    InBlock setting low close strict n (setting.shortened tokens session) := by
  obtain ⟨level, hle, heq, hclosing⟩ := h.closing
  rw [← closingBrace?_afterGreater h.reads hgreater] at hclosing
  obtain ⟨hreads, hstart, -, hbuilding, hreported⟩ :=
    h.goOn hwhole (.single (.inr hgreater)) ⟨level, hle, heq, hclosing⟩
  exact ⟨hreads, hstart, ⟨level, hle, heq, hclosing⟩, h.building.widen h.first_within, hreported⟩

theorem slotted (h : InBlock setting low close strict n session) :
    InBlock setting low close strict n (Comparison.slotted setting session) :=
  ⟨h.reads, h.start, h.closing, h.building.widen h.first_within, h.reported⟩

theorem reports (h : InBlock setting low close strict n session) {severity : Severity}
    (hseverity : severity ≠ .info) {message : Message} (hmessage : message ≠ .unexpectedEndOfFile) :
    InBlock setting low close strict n (setting.reports severity message session) := by
  refine ⟨h.reads, h.start, h.closing, h.building, ?_⟩
  intro diagnostic hmem
  rcases List.mem_append.mp hmem with hmem | hmem
  · exact h.reported diagnostic hmem
  · rw [List.mem_singleton.mp hmem]
    exact ⟨h.head_within, Message.text_ne hmessage, hseverity⟩

/-- Recovering from an error leaves the session in the block. -/
theorem resumed (hwhole : setting.Whole) (h : InBlock setting low close strict n session) :
    InBlock setting low close strict n
      { session with ahead := resume true session.ahead } := by
  obtain ⟨level, hle, heq, hclosing⟩ := h.closing
  rw [← closingBrace?_resume] at hclosing
  exact h.goOn hwhole (setting.leads_of_suffix (resume_suffix true _)) ⟨level, hle, heq, hclosing⟩

theorem nextStop_ne_nil (h : InBlock setting low close strict n session) :
    nextStop true session.ahead ≠ [] := by
  obtain ⟨level, -, -, hclosing⟩ := h.closing
  rw [← closingBrace?_nextStop] at hclosing
  intro hnil
  rw [hnil] at hclosing
  cases hclosing

/-- The tokens before a place in the block lie inside. -/
theorem within_of_append (hwhole : setting.Whole) (h : InBlock setting low close strict n session)
    {taken rest : List Token} (hsplit : taken ++ rest = session.ahead) (hclose : close ∈ rest) :
    ∀ token ∈ taken, token.span.Within low close.span.stop := by
  intro token hmem
  obtain ⟨before, behind, rfl⟩ := List.append_of_mem hmem
  have hsuffix : token :: (behind ++ rest) <:+ session.ahead := ⟨before, by rw [← hsplit]; simp⟩
  have hreads := h.reads.suffix hsuffix
  have hlow := h.reads.start_le hwhole (setting.leads_of_suffix hsuffix)
  have hlt := hreads.start_lt_stop
  have hmember : close ∈ behind ++ rest := List.mem_append_right behind hclose
  have hstop := hreads.stop_le_of_mem hmember
  have hclosing := hreads.lt_of_mem (List.mem_cons_of_mem token hmember)
  exact ⟨Nat.le_trans h.start hlow, Nat.le_of_lt hlt, by omega⟩

theorem widen_all {node : Node} {high : Nat} (h : node.Within low high) {tokens : List Token}
    (htokens : ∀ token ∈ tokens, token.span.Within low high) :
    (tokens.foldl (fun node token => node.widen token.span) node).Within low high := by
  induction tokens generalizing node with
  | nil => exact h
  | cons token rest ih =>
      refine ih (h.widen (htokens token List.mem_cons_self)) ?_
      exact fun other hmem => htokens other (List.mem_cons_of_mem _ hmem)

/-- Text that is captured inside the block stays inside. -/
theorem captured (hwhole : setting.Whole) (h : InBlock setting low close strict n session)
    {text : Capture} (hsplit : text.taken ++ text.rest = session.ahead)
    (hclosing : ∃ level, m ≤ level ∧ (strict → level = m) ∧
      closingBrace? level text.rest = some close) :
    InBlock setting low close strict m (Parse.captured text session) := by
  have hleads := setting.leads_of_suffix (Parse.suffix_of_append hsplit)
  obtain ⟨level, hle, heq, hclose⟩ := hclosing
  have hmem := (mem_of_closingBrace? hclose).1
  obtain ⟨hreads, hstart, hclosing, -, hreported⟩ := h.goOn hwhole hleads ⟨level, hle, heq, hclose⟩
  exact ⟨hreads, hstart, hclosing,
    widen_all h.building (h.within_of_append hwhole hsplit hmem), hreported⟩

end InBlock

/-- That a session is inside the block, as an invariant. -/
def blockInvariant (setting : Setting) (hended : setting.Ended) (hwhole : setting.Whole) (low : Nat)
    (close : Token) (strict : Prop) : Invariant where
  setting := setting
  holds := InBlock setting low close strict
  strict := strict
  passes kind := kind ≠ .openBrace ∧ kind ≠ .closeBrace
  ended := hended
  whole := hwhole
  reads h := h.reads
  pass imprint h hkind := h.pass hwhole imprint hkind.1 hkind.2
  note imprint h _ := h.noted imprint
  label h := ⟨h.reads, h.start, h.closing, .mk h.building.spans h.building.nodes, h.reported⟩
  greater h hgreater := h.shortened hwhole hgreater
  opened kind h := ⟨h.reads, h.start, h.closing, .empty kind, h.reported⟩
  closed h _ hafter :=
    ⟨hafter.reads, hafter.start, hafter.closing, h.building.append hafter.building, hafter.reported⟩
  report message _ h hmessage :=
    h.reports (by decide) fun hend => h.head_ne_end (hmessage hend)

section Block

variable {setting : Setting} {hended : setting.Ended} {hwhole : setting.Whole} {low : Nat}
  {close : Token} {strict : Prop}

open Parse Comparison

theorem blockInvariant_capturedBlock :
    (blockInvariant setting hended hwhole low close strict).comparison.Keeps capturedBlock := by
  refine Invariant.capturedBlock_keeps
    (fun h hhead => InBlock.enter hwhole h .span hhead) ?_ ?_
  · rintro n s _ hholds rfl hcomplete
    obtain ⟨level, hle, heq, hclosing⟩ := InBlock.closing hholds
    obtain ⟨outer, rfl⟩ : ∃ outer, level = 0 + outer + 1 := ⟨level - 1, by omega⟩
    have hsplit := Capture.group_append .openBrace .closeBrace 0 s.ahead
    rcases closingBrace?_group hclosing with ⟨-, hbehind⟩ | ⟨hfault, -⟩
    · refine InBlock.captured hwhole hholds hsplit ⟨outer, by omega, ?_, hbehind⟩
      intro hstrict
      have hlevel := heq hstrict
      omega
    · rw [hcomplete] at hfault
      cases hfault
  · rintro n s _ hlenient hholds rfl hbroken
    obtain ⟨level, hle, heq, hclosing⟩ := InBlock.closing hholds
    obtain ⟨outer, rfl⟩ : ∃ outer, level = 0 + outer + 1 := ⟨level - 1, by omega⟩
    have hsplit := Capture.group_append .openBrace .closeBrace 0 s.ahead
    rcases closingBrace?_group hclosing with ⟨hcomplete, -⟩ | ⟨hfault, inner, hinner, hbehind⟩
    · exact absurd hcomplete hbroken
    · have hlevels : ∃ level, n ≤ level ∧ (strict → level = n) ∧ closingBrace? level
          (Capture.group .openBrace .closeBrace 0 s.ahead).rest = some close :=
        ⟨inner, by omega, fun h => absurd h hlenient, hbehind⟩
      have hnext := (InBlock.captured hwhole hholds hsplit hlevels).head_within
      have hcovered : InBlock setting low close strict (n + 1) { s with
          building := s.building.widen
            ((Capture.group .openBrace .closeBrace 0 s.ahead).rest.headD setting.finish).span } :=
        ⟨hholds.reads, hholds.start, hholds.closing, hholds.building.widen hnext,
          hholds.reported⟩
      have hcaptured := hcovered.captured hwhole hsplit hlevels
      exact ⟨hfault, hcaptured.reports (by decide) (by decide)⟩

/-- The invariant of a block, with what the rules for statements need. -/
def blockStatementInvariant (setting : Setting) (hended : setting.Ended) (hwhole : setting.Whole)
    (low : Nat) (close : Token) (strict : Prop) : StatementInvariant where
  toInvariant := blockInvariant setting hended hwhole low close strict
  plain := by
    intro kind hkind
    refine ⟨?_, ?_⟩ <;>
    · intro hbrace
      rw [hbrace] at hkind
      cases hkind
  enter imprint h hhead := h.enter hwhole imprint hhead
  leave imprint h hhead := h.leave hwhole imprint hhead
  weaken := by
    rintro n s hlenient ⟨hreads, hstart, ⟨level, hle, -, hclosing⟩, hbuilding, hreported⟩
    exact ⟨hreads, hstart, ⟨level, by omega, fun hstrict => absurd hstrict hlenient, hclosing⟩,
      hbuilding, hreported⟩
  slot h _ := h.slotted
  warn h := h.reports (by decide) (by decide)
  capturedBlock := blockInvariant_capturedBlock
  semicolon := ⟨by decide, by decide⟩
  stop _ h := h.nextStop_ne_nil
  resume _ h := h.resumed hwhole

/-- What is known of a session behind the brace that closes the block. -/
structure BehindBlock (low : Nat) (close : Token) (strict : Prop) (session : Session) : Prop where
  building : session.building.Within low close.span.stop
  reported : ∀ diagnostic ∈ session.diagnostics.reported, Placed low close.span.stop diagnostic
  reached : strict → ∃ span, session.building.span = some span ∧ close.span.stop ≤ span.stop

theorem InBlock.behind {n : Nat} {session : Session} (h : InBlock setting low close strict n session)
    (hlenient : ¬strict) : BehindBlock low close strict session :=
  ⟨h.building, h.reported, fun hstrict => absurd hstrict hlenient⟩

theorem InBlock.finish {session : Session} (h : InBlock setting low close strict 0 session)
    (hhead : (setting.head session).kind = .closeBrace) :
    BehindBlock low close strict (setting.passed .span session) := by
  refine ⟨h.building.widen h.head_within, h.reported, ?_⟩
  intro hstrict
  obtain ⟨level, -, heq, hclosing⟩ := h.closing
  rw [h.head_eq, heq hstrict, closingBrace?_closeBrace hhead, Option.some.injEq] at hclosing
  have hreads := h.reads
  rw [h.head_eq] at hreads
  have hlt := hreads.start_lt_stop
  refine ⟨session.building.span.elim (setting.head session).span
    (·.hull (setting.head session).span), ?_, ?_⟩
  · change (session.building.widen (setting.head session).span).span = _
    rw [Node.widen, if_neg (Span.ne_nowhere hlt)]
  · rw [← hclosing]
    cases session.building.span with
    | none => exact Nat.le_refl _
    | some span => exact Nat.le_max_right _ _

/-- The items of a block and its closing brace. -/
theorem blockItems_behind {session : Session} (hended : setting.Ended) (hwhole : setting.Whole)
    (h : InBlock setting low close strict 0 session) (hquiet : strict → session.faults = [])
    (hbegun : session.building.span.isSome) (room : Nat) (start : List Token) :
    let after := (repeatRule (blockStep (blockRules room) start) setting session).2
    strict ∧ after.faults ≠ [] ∨ BehindBlock low close strict after := by
  let I := blockStatementInvariant setting hended hwhole low close strict
  let S := I.comparison
  have hagree : S.InBlock start (0 : Nat) session session :=
    ⟨.inl ⟨rfl, h, hquiet⟩, hbegun, fun _ _ _ => trivial⟩
  have hrules : S.KeepsStatements (blockRules room) := blockRules_keeps room
  have hends : S.Ends (0 : Nat)
      (fun _ _ after after' => after' = after ∧ BehindBlock low close strict after)
      (repeatRule (blockStep (blockRules room) start) setting session)
      (repeatRule (blockStep (blockRules room) start) setting session) := by
    refine repeatRule_ends (S := S) ?_ (fun hst => .inr ⟨_, _, rests_covered hst.rests⟩) hagree
    intro s t hst
    refine blockStep_ends hrules trivial ?_ hst
    intro hhead
    obtain ⟨rfl, hholds, -⟩ := rests_covered hst.rests
    exact .ok ⟨rfl, InBlock.finish hholds hhead⟩
  generalize repeatRule (blockStep (blockRules room) start) setting session = result at hends
  cases hends with
  | lost hlost => exact .inl hlost
  | ok hpost => exact .inr hpost.2
  | error hlenient hagree => exact .inr (InBlock.behind hagree.2.1 hlenient)

theorem block_run (rules : BlockRules) {session : Session}
    (hhead : (setting.head session).kind = .openBrace) :
    block rules setting session =
      let items := repeatRule (blockStep rules session.ahead) setting
        (setting.passed .span (session.opened .statementBlock))
      (items.1, session.closed items.2) := by
  unfold block
  rw [node_run, ahead_bind, coverRequired_eq, bind_run, nextIs_bind]
  have hopened : (setting.head (session.opened .statementBlock)).kind = .openBrace := hhead
  simp only [hopened, decide_true, ↓reduceIte]
  rfl

/-- Covering tokens changes the span alone. -/
theorem widen_all_eq (node : Node) (tokens : List Token) :
    tokens.foldl (fun node token => node.widen token.span) node =
      { node with
        span := (tokens.foldl (fun node token => node.widen token.span) node).span } := by
  induction tokens generalizing node with
  | nil =>
      rw [List.foldl_nil]
      cases node
      rfl
  | cons token rest ih =>
      rw [List.foldl_cons, ih]
      unfold Node.widen
      split <;> rfl

/-- Covering tokens up to the last one in their order. -/
theorem span_widen_all {low : Nat} {node : Node} {tokens : List Token} {last : Token}
    (hnode : ∃ stop, node.span = some ⟨low, stop⟩ ∧ stop ≤ last.span.stop)
    (hlast : tokens.getLast? = some last)
    (htokens : ∀ token ∈ tokens, token.span.Within low last.span.stop ∧
      token.span.start < token.span.stop) :
    (tokens.foldl (fun node token => node.widen token.span) node).span =
      some ⟨low, last.span.stop⟩ := by
  induction tokens generalizing node with
  | nil => cases hlast
  | cons token rest ih =>
      obtain ⟨stop, hspan, hstop⟩ := hnode
      obtain ⟨⟨hlow, hordered, hhigh⟩, hlt⟩ := htokens token List.mem_cons_self
      have hwiden : (node.widen token.span).span = some ⟨low, max stop token.span.stop⟩ := by
        rw [Node.widen, if_neg (Span.ne_nowhere hlt), hspan]
        simp only [Option.elim_some, Span.hull, Option.some.injEq, Span.mk.injEq, and_true]
        omega
      cases rest with
      | nil =>
          have hsame : token = last := Option.some.inj hlast
          subst hsame
          rw [List.foldl_cons, List.foldl_nil, hwiden, Nat.max_eq_right hstop]
      | cons next rest =>
          rw [List.foldl_cons]
          refine ih ⟨_, hwiden, by omega⟩ ?_ ?_
          · rw [← hlast, List.getLast?_cons_cons]
          · exact fun other hmem => htokens other (List.mem_cons_of_mem _ hmem)

theorem capturedBlock_complete {session : Session} {taken rest : List Token}
    (hhead : (setting.head session).kind = .openBrace)
    (hgroup : Capture.group .openBrace .closeBrace 0 session.ahead.tail = ⟨taken, rest, .complete⟩) :
    capturedBlock setting session =
      (.ok (), session.closed (Parse.captured ⟨taken, rest, .complete⟩
        (setting.passed .span (session.opened .statementBlock)))) := by
  have hbody : (do
      let start ← ahead
      coverRequired .openBrace
      let block := Capture.group .openBrace .closeBrace 0 (← ahead)
      unless block.ending = CaptureEnd.complete do
        widen (block.rest.headD (← read).finish).span
      capture .statementBlock start block) setting (session.opened .statementBlock) =
      (.ok (), Parse.captured ⟨taken, rest, .complete⟩
        (setting.passed .span (session.opened .statementBlock))) := by
    have hopened : (setting.head (session.opened .statementBlock)).kind = .openBrace := hhead
    rw [ahead_bind, coverRequired_eq, bind_run, nextIs_bind]
    simp only [hopened, decide_true, ↓reduceIte]
    have hgroup' : Capture.group .openBrace .closeBrace 0
        (setting.passed .span (session.opened .statementBlock)).ahead =
          ⟨taken, rest, .complete⟩ := hgroup
    change (do
      let block := Capture.group .openBrace .closeBrace 0 (← ahead)
      unless block.ending = CaptureEnd.complete do
        widen (block.rest.headD (← read).finish).span
      capture .statementBlock session.ahead block) setting
        (setting.passed .span (session.opened .statementBlock)) = _
    rw [ahead_bind]
    simp only [hgroup', ↓reduceIte]
    exact capture_run _ _ _ _ _
  change node .statementBlock _ setting session = _
  rw [node_run, hbody]

/-- The block that a captured block covers. -/
theorem capturedBlock_run {first last : Token} {rest behind : List Token}
    (hopen : first.kind = .openBrace) (hcloses : Closes 0 rest)
    (hlast : rest.getLast? = some last) (hstrings : ∀ token ∈ rest, token.kind ≠ .unterminatedString)
    (hfirst : first.span.Within first.span.start last.span.stop ∧ first.span.start < first.span.stop)
    (hrest : ∀ token ∈ rest, token.span.Within first.span.start last.span.stop ∧
      token.span.start < token.span.stop)
    (setting : Setting) (diagnostics : Diagnostics) (node : Node) :
    Parse.capturedBlock setting ⟨first :: (rest ++ behind), diagnostics, node⟩ =
      (.ok (), ⟨behind, diagnostics,
        node.append ⟨.statementBlock, none, some ⟨first.span.start, last.span.stop⟩, []⟩⟩) := by
  let session : Session := ⟨first :: (rest ++ behind), diagnostics, .empty .statementBlock⟩
  have hcovered : (setting.passed .span session).building.span = some first.span :=
    Node.span_widen hfirst.2
  have hspan := span_widen_all ⟨_, hcovered, hfirst.1.le_high⟩ hlast hrest
  have hnode : rest.foldl (fun node token => node.widen token.span)
      (setting.passed .span session).building =
        ⟨.statementBlock, none, some ⟨first.span.start, last.span.stop⟩, []⟩ := by
    rw [widen_all_eq, hspan]
    change Node.mk ((Node.empty .statementBlock).widen first.span).kind
      ((Node.empty .statementBlock).widen first.span).token _
      ((Node.empty .statementBlock).widen first.span).children = _
    rw [Node.widen, if_neg (Span.ne_nowhere hfirst.2)]
    rfl
  have hrun : capturedBlock setting ⟨first :: (rest ++ behind), diagnostics, node⟩ = _ :=
    capturedBlock_complete hopen (hcloses.group behind hstrings)
  rw [hrun]
  exact congrArg (fun inner => (Except.ok (), Session.mk behind diagnostics (node.append inner))) hnode

end Block

end Grammar

open Grammar

/-- The session of a block behind its opening brace. -/
theorem inBlock_start {setting : Setting} (hwhole : setting.Whole) (strict : Prop)
    {first close : Token} {rest : List Token} (hreads : setting.Reads (first :: rest))
    (hclosing : closingBrace? 0 rest = some close) (kind : NodeKind) :
    InBlock setting first.span.start close strict 0
      (setting.passed .span ⟨first :: rest, {}, .empty kind⟩) := by
  have hlt := hreads.start_lt_stop
  have hmem := (mem_of_closingBrace? hclosing).1
  have hstop := hreads.stop_le_of_mem hmem
  have hclose := hreads.lt_of_mem (List.mem_cons_of_mem first hmem)
  refine ⟨hreads.tail, ?_, ⟨0, Nat.le_refl 0, fun _ => rfl, hclosing⟩, ?_, ?_⟩
  · exact hreads.start_le hwhole (setting.leads_tail _)
  · have hspan : first.span.Within first.span.start close.span.stop :=
      ⟨Nat.le_refl _, Nat.le_of_lt hlt, by omega⟩
    exact (Node.Within.empty kind).widen hspan
  · intro diagnostic hreported
    cases hreported

theorem mem_reported_of_toList {diagnostics : Diagnostics} {diagnostic : Diagnostic}
    (h : diagnostic ∈ diagnostics.toList) : diagnostic ∈ diagnostics.reported := by
  simp only [Diagnostics.toList, Diagnostics.errors, Diagnostics.warnings, Diagnostics.infos,
    Diagnostics.ofSeverity, List.mem_append, List.mem_filter] at h
  rcases h with (h | h) | h <;> exact h.1

theorem faults_eq_nil {session : Session} (herrors : session.diagnostics.errors = [])
    (hinfos : ∀ diagnostic ∈ session.diagnostics.reported, diagnostic.severity ≠ .info) :
    session.faults = [] := by
  refine List.filter_eq_nil_iff.mpr ?_
  intro diagnostic hmem hfault
  have hinfo := hinfos diagnostic hmem
  have herror : diagnostic.severity ≠ .error := by
    intro herror
    have hfound : diagnostic ∈ session.diagnostics.errors :=
      List.mem_filter.mpr ⟨hmem, decide_eq_true herror⟩
    rw [herrors] at hfound
    cases hfound
  cases hseverity : diagnostic.severity <;> simp_all

/-- A block that is parsed on its own stays between its braces.  It reports nothing that lies
elsewhere, it never finds the source to end, and if it reports no error it spans the same text that
is captured for it. -/
theorem statementBlock_within (options : Options) {source : Source} {start : Nat}
    {block behind : List Token} {first last : Token}
    (htokens : source.tokensFrom start = block ++ behind) (hblock : IsBlock block)
    (hfirst : block.head? = some first) (hstart : first.span.start = start)
    (hlast : block.getLast? = some last) :
    let outcome := (Entry.statementBlock start).parse options source
    (∃ stop, outcome.root.span = some ⟨start, stop⟩ ∧ stop ≤ last.span.stop) ∧
      outcome.root.Within start last.span.stop ∧
      (∀ diagnostic ∈ outcome.diagnostics.toList,
        diagnostic.span.Within start last.span.stop ∧
          diagnostic.text ≠ Message.unexpectedEndOfFile.text) ∧
      (outcome.diagnostics.errors = [] →
        outcome.root.span = some ⟨start, last.span.stop⟩) ∧
      ∀ setting diagnostics node,
        Parse.capturedBlock setting ⟨source.tokensFrom start, diagnostics, node⟩ =
          (.ok (), ⟨behind, diagnostics,
            node.append ⟨.statementBlock, none, some ⟨start, last.span.stop⟩, []⟩⟩) := by
  obtain ⟨_, rest, rfl, hopen, hcloses⟩ := hblock.closes
  cases hfirst
  subst hstart
  obtain ⟨close, hclose, hclosing⟩ := hcloses.closingBrace? behind
  have hsame : close = last := by
    rw [List.getLast?_cons, hclose, Option.getD_some] at hlast
    exact Option.some.inj hlast
  subst hsame
  let entry := Entry.statementBlock first.span.start
  let setting := entry.setting options source
  have hended : setting.Ended := rfl
  have hwhole : setting.Whole := Nat.le_max_right _ _
  have hreads : setting.Reads (first :: (rest ++ behind)) := ⟨first.span.start, htokens.symm⟩
  have hinside (strict : Prop) := inBlock_start hwhole strict hreads hclosing .statementBlock
  let session : Session := ⟨first :: (rest ++ behind), {}, .empty .statementBlock⟩
  let items := Parse.repeatRule
    (Parse.blockStep (blockRules options.maxDepth) (first :: (rest ++ behind)))
  let after := (items setting (setting.passed .span session)).2
  have houtcome : entry.parse options source = ⟨after.building, after.diagnostics⟩ := by
    have hsession : entry.session options source =
        Session.closed ⟨first :: (rest ++ behind), {}, .empty .undefined⟩ after := by
      unfold Entry.session
      rw [show source.tokensFrom entry.start = first :: (rest ++ behind) from htokens]
      change (Parse.block (blockRules options.maxDepth) setting
        ⟨first :: (rest ++ behind), {}, .empty .undefined⟩).2 = _
      have hrun : Parse.block (blockRules options.maxDepth) setting
          ⟨first :: (rest ++ behind), {}, .empty .undefined⟩ = _ := block_run _ hopen
      rw [hrun]
      rfl
    unfold Entry.parse
    rw [hsession]
    unfold Session.closed Node.append
    cases after.building.span with
    | none => rfl
    | some span => 
        dsimp only [Option.elim_some]
        rw [Node.children_widen]
        rfl
  have hcovered : (setting.passed .span session).building.span = some first.span :=
    Node.span_widen hreads.start_lt_stop
  have hbegun := Option.isSome_of_eq_some hcovered
  have hcontained : BehindBlock first.span.start close False after := by
    have hbehind := blockItems_behind hended hwhole (hinside False) (fun h => h.elim) hbegun
      options.maxDepth (first :: (rest ++ behind))
    exact hbehind.resolve_left fun hlost => hlost.1
  have hspan : ∃ stop, after.building.span = some ⟨first.span.start, stop⟩ ∧
      stop ≤ close.span.stop := by
    have hreturns : Parse.Returns (first :: (rest ++ behind)) items :=
      inferInstanceAs (Parse.Returns _ (Parse.repeatRule _))
    have hadvance := (hreturns.proceeds setting (setting.passed .span session)
      (setting.leads_tail (first :: (rest ++ behind)))).advance
    obtain ⟨wider, hwider, hstart, -⟩ := hadvance.building.span _ hcovered
    have hwithin := hcontained.building.spans wider hwider
    have heq : wider.start = first.span.start := Nat.le_antisymm hstart hwithin.low_le
    exact ⟨wider.stop, by rw [← heq]; exact hwider, hwithin.le_high⟩
  rw [houtcome]
  refine ⟨hspan, hcontained.building, ?_, ?_, ?_⟩
  · intro diagnostic hmem
    have hplaced := hcontained.reported diagnostic (mem_reported_of_toList hmem)
    exact ⟨hplaced.span, hplaced.text⟩
  · intro herrors
    have hquiet : after.faults = [] :=
      faults_eq_nil herrors fun diagnostic hmem => (hcontained.reported diagnostic hmem).severity
    have hbehind := blockItems_behind hended hwhole (hinside True) (fun _ => rfl) hbegun
      options.maxDepth (first :: (rest ++ behind))
    have hexact := hbehind.resolve_left fun hlost => hlost.2 hquiet
    obtain ⟨span, hspan', hreached⟩ := hexact.reached trivial
    obtain ⟨stop, hstop, hle⟩ := hspan
    rw [hstop] at hspan' ⊢
    cases hspan'
    rw [Nat.le_antisymm hle hreached]
  · intro other diagnostics node
    rw [htokens]
    have hreads' : setting.Reads ((first :: rest) ++ behind) := hreads
    have hbrace := (mem_of_closingBrace? hclosing).2
    have hinside : ∀ token ∈ first :: rest, token.span.Within first.span.start close.span.stop ∧
        token.span.start < token.span.stop := by
      intro token hmem
      have hlt := hreads'.lt_of_mem (List.mem_append_left behind hmem)
      have hlast' := hreads'.lt_of_mem
        (List.mem_append_left behind (List.mem_of_getLast? hlast))
      have hlow : first.span.start ≤ token.span.start := by
        rcases List.mem_cons.mp hmem with rfl | hmem
        · exact Nat.le_refl _
        · have hstop := hreads.stop_le_of_mem (List.mem_append_left behind hmem)
          have hopening := hreads.start_lt_stop
          omega
      have hhigh : token.span.stop ≤ close.span.stop := by
        rcases hreads'.before_last hlast hmem with rfl | ⟨hstop, -⟩
        · exact Nat.le_refl _
        · omega
      exact ⟨⟨hlow, Nat.le_of_lt hlt, hhigh⟩, hlt⟩
    have hstrings : ∀ token ∈ rest, token.kind ≠ .unterminatedString := by
      intro token hmem
      rcases hreads'.before_last hlast (List.mem_cons_of_mem _ hmem) with rfl | ⟨-, hstring⟩
      · rw [hbrace]
        simp
      · exact hstring
    exact capturedBlock_run hopen hcloses hclose hstrings (hinside first List.mem_cons_self)
      (fun token hmem => hinside token (List.mem_cons_of_mem _ hmem)) other diagnostics node

/-- A block in the block, a lambda, a declaration without a name, and a brace behind it all. -/
theorem statementBlock_within_brokenStatement :
    let source : Source := ['{', '{', 'b', ';', '}', 'x', '=', 'f', 'u', 'n', 'c', 't', 'i', 'o', 'n',
      '(', ')', '{', 'c', ';', '}', ';', 'i', 'n', 't', '=', ';', '}', '}']
    let outcome := (Entry.statementBlock 0).parse {} source
    outcome.diagnostics.errors.map (·.span) = [⟨25, 26⟩, ⟨25, 26⟩] ∧
      (∃ stop, outcome.root.span = some ⟨0, stop⟩ ∧ stop ≤ 28) ∧
      outcome.root.Within 0 28 ∧
      (∀ diagnostic ∈ outcome.diagnostics.toList, diagnostic.span.Within 0 28 ∧
        diagnostic.text ≠ Message.unexpectedEndOfFile.text) ∧
      ∀ setting diagnostics node,
        Parse.capturedBlock setting ⟨source.tokensFrom 0, diagnostics, node⟩ =
          (.ok (), ⟨[⟨.closeBrace, ⟨28, 29⟩, "\x7d"⟩], diagnostics,
            node.append ⟨.statementBlock, none, some ⟨0, 28⟩, []⟩⟩) := by
  intro source outcome
  have htokens : source.tokensFrom 0 =
      (source.tokensFrom 0).take 19 ++ [⟨.closeBrace, ⟨28, 29⟩, "\x7d"⟩] := by
    decide +kernel
  have hblock : IsBlock ((source.tokensFrom 0).take 19) := by decide +kernel
  have hfirst : ((source.tokensFrom 0).take 19).head? = some ⟨.openBrace, ⟨0, 1⟩, "\x7b"⟩ := by
    decide +kernel
  have hlast : ((source.tokensFrom 0).take 19).getLast? = some ⟨.closeBrace, ⟨27, 28⟩, "\x7d"⟩ := by
    decide +kernel
  obtain ⟨hspan, hwithin, hreports, -, hcaptured⟩ :=
    statementBlock_within {} htokens hblock hfirst rfl hlast
  exact ⟨by decide +kernel, hspan, hwithin, hreports, hcaptured⟩

end ScriptSyntax
