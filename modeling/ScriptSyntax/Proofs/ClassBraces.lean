import ScriptSyntax.Proofs.CapturedNesting
import ScriptSyntax.Proofs.QuietRuns
import ScriptSyntax.Proofs.RecoveryStart
import ScriptSyntax.Proofs.SignatureSpans
import ScriptSyntax.Proofs.Tiling

/-!
# The braces of a class

A class goes on behind a broken member.  Recovery counts the braces from where it starts, and it
starts at the token that was reported last.  So the class ends with its own closing brace if nothing
is reported inside the braces of a member.  An initializer in parentheses is taken up to the closing
parenthesis without a look at the braces in it, so these have to be balanced too.
-/

namespace ScriptSyntax.Grammar

/-! ## Counting braces -/

section Counts

variable {setting : Setting} {token close : Token} {tokens taken rest : List Token} {level : Nat}

theorem surplus_brace (tokens : List Token) :
    Bracket.brace.surplus tokens = (opened tokens : Int) - closed tokens := by
  induction tokens with
  | nil => rfl
  | cons token rest ih =>
      rw [Bracket.surplus_cons, ih]
      unfold Bracket.delta Bracket.opening Bracket.closing
      by_cases hopen : token.kind = .openBrace
      · simp [opened, closed, hopen]
        omega
      by_cases hclose : token.kind = .closeBrace
      · simp [opened, closed, hclose]
        omega
      · simp [opened, closed, hopen, hclose]

/-- Before the end of a block one token less is left, with the same blocks to close behind it. -/
theorem closingBrace?_cons (hreads : setting.Reads (token :: rest))
    (hlast : setting.source.tokensFrom close.span.stop = [])
    (h : closingBrace? level (token :: rest) = some close) :
    (level = 0 ∧ token.kind = .closeBrace ∧ rest = []) ∨
      ∃ inner, closingBrace? inner rest = some close ∧
        level + opened [token] = inner + closed [token] := by
  by_cases hopen : token.kind = .openBrace
  · rw [closingBrace?_openBrace hopen] at h
    exact .inr ⟨level + 1, h, by simp [opened, closed, hopen]⟩
  by_cases hclose : token.kind = .closeBrace
  · cases level with
    | zero =>
        rw [closingBrace?_closeBrace hclose] at h
        cases h
        exact .inl ⟨rfl, hclose, hreads.cons.2.trans hlast⟩
    | succ level =>
        rw [closingBrace?_closeBrace_succ hclose] at h
        exact .inr ⟨level, h, by simp [opened, closed, hclose]⟩
  · rw [closingBrace?_other hopen hclose] at h
    exact .inr ⟨level, h, by simp [opened, closed, hopen, hclose]⟩

theorem opened_append (first second : List Token) :
    opened (first ++ second) = opened first + opened second :=
  List.countP_append

theorem closed_append (first second : List Token) :
    closed (first ++ second) = closed first + closed second :=
  List.countP_append

/-- The blocks that are open are those that are closed and not opened up to the end. -/
theorem closed_of_closingBrace? (hreads : setting.Reads tokens)
    (hlast : setting.source.tokensFrom close.span.stop = [])
    (h : closingBrace? level tokens = some close) : closed tokens = opened tokens + level + 1 := by
  induction tokens generalizing level with
  | nil => cases h
  | cons token rest ih =>
      rw [← List.singleton_append, opened_append, closed_append]
      rcases closingBrace?_cons hreads hlast h with ⟨rfl, hclose, rfl⟩ | ⟨inner, hinner, hlevel⟩
      · simp [opened, closed, hclose]
      · have hrest := ih hreads.tail hinner
        omega

/-- As long as anything is left, the end of the block is. -/
theorem exists_closingBrace? (hreads : setting.Reads (taken ++ rest))
    (hlast : setting.source.tokensFrom close.span.stop = [])
    (h : closingBrace? level (taken ++ rest) = some close) (hne : rest ≠ []) :
    ∃ inner, closingBrace? inner rest = some close := by
  induction taken generalizing level with
  | nil => exact ⟨level, h⟩
  | cons token taken ih =>
      rcases closingBrace?_cons hreads hlast h with ⟨-, -, hnil⟩ | ⟨inner, hinner, -⟩
      · exact absurd (List.append_eq_nil_iff.mp hnil).2 hne
      · exact ih hreads.tail hinner

/-- Text with as many opening braces as closing ones leaves the blocks around it as they are. -/
theorem closingBrace?_of_even (hreads : setting.Reads (taken ++ rest))
    (hlast : setting.source.tokensFrom close.span.stop = [])
    (h : closingBrace? level (taken ++ rest) = some close)
    (heven : Bracket.brace.surplus taken = 0) : closingBrace? level rest = some close := by
  have hcount := closed_of_closingBrace? hreads hlast h
  rw [surplus_brace] at heven
  rw [opened_append, closed_append] at hcount
  have hne : rest ≠ [] := by
    rintro rfl
    simp [opened, closed] at hcount heven
    omega
  obtain ⟨inner, hinner⟩ := exists_closingBrace? hreads hlast h hne
  have hrest := closed_of_closingBrace? (hreads.suffix (List.suffix_append taken rest)) hlast hinner
  obtain rfl : inner = level := by omega
  exact hinner

end Counts

/-- A token that may not stand in captured text is still there. -/
theorem Capture.walk_fault {σ : Type} {step : σ → TokenKind → Capture.Step σ} {state : σ}
    {tokens : List Token} {message : Message}
    (h : (Capture.walk step state tokens).ending = .fault message) :
    (Capture.walk step state tokens).rest ≠ [] := by
  induction tokens generalizing state with
  | nil => cases h
  | cons token rest ih =>
      rw [Capture.walk] at h ⊢
      split at h
      · cases h
      · simp
      · cases h
      · exact ih h

/-- Parentheses that are closed hold as many opening braces as closing ones. -/
def EvenGroups (tokens : List Token) : Prop :=
  ∀ paren rest, paren :: rest <:+ tokens → paren.kind = .openParen →
    (Capture.group .openParen .closeParen 0 rest).ending = .complete →
      Bracket.brace.surplus (Capture.group .openParen .closeParen 0 rest).taken = 0

/-! ## The body of the class -/

section Leads

variable {setting : Setting} {tokens next : List Token} {low high : Nat}

theorem EvenGroups.leads (h : EvenGroups tokens) (hreads : setting.Reads tokens)
    (hleads : setting.Leads tokens next) : EvenGroups next := by
  intro paren rest hsuffix hkind
  exact h paren rest (hreads.suffix_of_leads hleads hsuffix (by rw [hkind]; rfl)) hkind

theorem Setting.Reads.within_leads (h : setting.Reads tokens)
    (htokens : ∀ token ∈ tokens, token.span.Within low high) (hleads : setting.Leads tokens next) :
    ∀ token ∈ next, token.span.Within low high := by
  induction hleads with
  | refl => exact htokens
  | tail hbefore hstep ih => exact (h.leads hbefore).within_step ih hstep

end Leads

/-- A session in the body of a class, whose closing brace is the last token.  The level is the number
of blocks that are open inside the body. -/
structure InBody (setting : Setting) (low : Nat) (close : Token) (level : Nat) (session : Session) :
    Prop extends Balanced setting (some close) level session,
      session.Between low close.span.stop where
  last : setting.source.tokensFrom close.span.stop = []
  even : EvenGroups session.ahead

namespace InBody

variable {setting : Setting} {low level other : Nat} {close : Token} {session : Session}
  {tokens : List Token}

theorem ne_nil (h : InBody setting low close level session) : session.ahead ≠ [] := by
  intro hnil
  have hclosing := h.closing
  rw [hnil] at hclosing
  cases hclosing

theorem goOn (h : InBody setting low close level session)
    (hleads : setting.Leads session.ahead tokens)
    (hclosing : closingBrace? other tokens = some close) :
    InBody setting low close other (session.at tokens) where
  reads := h.reads.leads hleads
  closing := hclosing
  building := h.building
  ahead := h.reads.within_leads h.ahead hleads
  last := h.last
  even := h.even.leads h.reads hleads

theorem built (h : InBody setting low close level session) {node : Node}
    (hnode : node.Within low close.span.stop) :
    InBody setting low close level { session with building := node } where
  reads := h.reads
  closing := h.closing
  building := hnode
  ahead := h.ahead
  last := h.last
  even := h.even

theorem reported (h : InBody setting low close level session) (diagnostics : Diagnostics) :
    InBody setting low close level { session with diagnostics := diagnostics } where
  reads := h.reads
  closing := h.closing
  building := h.building
  ahead := h.ahead
  last := h.last
  even := h.even

theorem noted (h : InBody setting low close level session) (imprint : Imprint) :
    InBody setting low close level (setting.noted imprint session) :=
  h.built (h.building.imprinted (h.head h.ne_nil) imprint)

theorem pass (h : InBody setting low close level session) (imprint : Imprint)
    (hopen : (setting.head session).kind ≠ .openBrace)
    (hclose : (setting.head session).kind ≠ .closeBrace) :
    InBody setting low close level (setting.passed imprint session) :=
  (h.noted imprint).goOn (setting.leads_tail _) (h.toBalanced.pass imprint hopen hclose).closing

theorem enter (hended : setting.Ended) (h : InBody setting low close level session)
    (imprint : Imprint) (hopen : (setting.head session).kind = .openBrace) :
    InBody setting low close (level + 1) (setting.passed imprint session) :=
  (h.noted imprint).goOn (setting.leads_tail _) (h.toBalanced.enter hended imprint hopen).closing

theorem leave (hended : setting.Ended) (h : InBody setting low close (level + 1) session)
    (imprint : Imprint) (hclose : (setting.head session).kind = .closeBrace) :
    InBody setting low close level (setting.passed imprint session) :=
  (h.noted imprint).goOn (setting.leads_tail _) (h.toBalanced.leave hended imprint hclose).closing

theorem shortened (h : InBody setting low close level session)
    (hgreater : setting.afterGreater? session.ahead = some tokens) :
    InBody setting low close level (setting.shortened tokens session) := by
  have hbetween := h.toBetween.shortened h.reads hgreater
  refine (h.goOn (.single (.inr hgreater)) ?_).built hbetween.building
  rw [closingBrace?_afterGreater h.reads hgreater]
  exact h.closing

theorem captured (h : InBody setting low close level session) {text : Capture}
    (hsplit : text.taken ++ text.rest = session.ahead)
    (hclosing : closingBrace? other text.rest = some close) :
    InBody setting low close other (Parse.captured text session) := by
  have htaken : ∀ token ∈ text.taken, token.span.Within low close.span.stop :=
    fun token hmem => h.ahead token (hsplit ▸ List.mem_append_left _ hmem)
  exact (h.goOn (setting.leads_of_suffix ⟨text.taken, hsplit⟩) hclosing).built
    (InBlock.widen_all h.building htaken)

end InBody

/-- The body, as an invariant of rules that pass no brace. -/
def bodyInvariant (setting : Setting) (hended : setting.Ended) (hwhole : setting.Whole) (low : Nat)
    (close : Token) : Invariant where
  setting := setting
  holds := InBody setting low close
  strict := False
  passes kind := kind ≠ .openBrace ∧ kind ≠ .closeBrace
  ended := hended
  whole := hwhole
  reads h := h.reads
  pass imprint h hkind := h.pass imprint hkind.1 hkind.2
  note imprint h _ := h.noted imprint
  label h := h.built (.mk h.building.spans h.building.nodes)
  greater h hgreater := h.shortened hgreater
  opened kind h := h.built (.empty kind)
  closed h _ hafter := hafter.built (h.building.append hafter.building)
  report _ _ h _ := h.reported _

/-- Where a rule leaves the body: with the same blocks open if it comes to its end, and still in the
body if it stops early. -/
def Stays (setting : Setting) (low : Nat) (close : Token) (level : Nat) {α : Type} :
    Except Interruption α × Session → Prop
  | (.ok _, after) => InBody setting low close level after
  | (.error _, after) => ∃ inner, InBody setting low close inner after

section

open Parse

variable {α β : Type} {setting : Setting} {low level : Nat} {close : Token} {session : Session}

theorem Stays.bind {rule : Parse α} {next : α → Parse β} {other : Nat}
    (hrule : Stays setting low close other (rule setting session))
    (hnext : ∀ value after, rule setting session = (.ok value, after) →
      InBody setting low close other after →
        Stays setting low close level (next value setting after)) :
    Stays setting low close level ((rule >>= next) setting session) := by
  rw [bind_run]
  rcases hrun : rule setting session with ⟨interruption | value, after⟩ <;> rw [hrun] at hrule
  · exact hrule
  · exact hnext value after hrun hrule

theorem Stays.node {kind : NodeKind} {rule : Parse α}
    (h : InBody setting low close level session)
    (hrule : Stays setting low close level (rule setting (session.opened kind))) :
    Stays setting low close level (node kind rule setting session) := by
  rw [Comparison.node_run]
  rcases hrun : rule setting (session.opened kind) with ⟨interruption | value, after⟩ <;>
    rw [hrun] at hrule
  · obtain ⟨inner, hinner⟩ := hrule
    exact ⟨inner, hinner.built (h.building.append hinner.building)⟩
  · exact hrule.built (h.building.append hrule.building)

/-- The brace that opens a block. -/
theorem InBody.enterNext (hended : setting.Ended) (h : InBody setting low close level session)
    (imprint : Imprint) {rule : Parse α} {value : α}
    (hrule : rule setting session = (.ok value, setting.passed imprint session))
    (message : Message) :
    Stays setting low close (level + 1)
      ((do if ← nextIs .openBrace then rule else failExpected message) setting session) := by
  rw [nextIs_bind]
  split
  · rename_i hhead
    rw [hrule]
    exact h.enter hended imprint (of_decide_eq_true hhead)
  · exact ⟨level, h.reported _⟩

/-- Captured text ends in the body unless the source ends in it, and then parsing goes back. -/
theorem InBody.capture {text : Capture} {tokens start : List Token} {other : Nat}
    (h : InBody setting low close level (session.at tokens))
    (hsplit : text.taken ++ text.rest = tokens) (construct : Construct)
    (hcomplete : text.ending = .complete → closingBrace? other text.rest = some close)
    (hfault : ∀ message, text.ending = .fault message → text.rest ≠ [])
    (hstart : text.ending = .endOfSource →
      ∃ inner, InBody setting low close inner (session.at start)) :
    Stays setting low close other (Parse.capture construct start text setting session) := by
  subst hsplit
  rw [capture_run]
  cases hending : text.ending with
  | complete => exact h.captured rfl (hcomplete hending)
  | fault message =>
      obtain ⟨inner, hinner⟩ :=
        exists_closingBrace? h.reads h.last h.closing (hfault message hending)
      exact ⟨inner, (h.captured rfl hinner).reported _⟩
  | endOfSource =>
      obtain ⟨inner, hinner⟩ := hstart hending
      have hwidened := InBlock.widen_all h.building fun token hmem =>
        h.ahead token (List.mem_append_left text.rest hmem)
      exact ⟨inner, (hinner.built hwidened).reported _⟩

/-- Text whose braces are balanced leaves the blocks around it as they are. -/
theorem InBody.capture_even {text : Capture} {tokens start : List Token}
    (h : InBody setting low close level (session.at tokens))
    (hsplit : text.taken ++ text.rest = tokens) (construct : Construct)
    (heven : text.ending = .complete → Bracket.brace.surplus text.taken = 0)
    (hfault : ∀ message, text.ending = .fault message → text.rest ≠ [])
    (hstart : InBody setting low close level (session.at start)) :
    Stays setting low close level (Parse.capture construct start text setting session) := by
  subst hsplit
  refine h.capture rfl construct (fun hcomplete => ?_) hfault fun _ => ⟨level, hstart⟩
  exact closingBrace?_of_even h.reads h.last h.closing (heven hcomplete)

end

namespace Parse

variable {α β : Type}

/-- The rule stays in the body of a class. -/
class StaysInBody (rule : Parse α) : Prop where
  stays : ∀ {setting low close level session}, setting.Ended → setting.Whole →
    InBody setting low close level session → Stays setting low close level (rule setting session)

/-- The rule stays in the body of a class if it does not start at a brace. -/
class PassesInBody (rule : Parse α) : Prop where
  stays : ∀ {setting low close level session}, setting.Ended → setting.Whole →
    InBody setting low close level session → (setting.head session).kind ≠ .openBrace →
    (setting.head session).kind ≠ .closeBrace →
    Stays setting low close level (rule setting session)

/-- A kind of token that is no brace. -/
class NoBrace (kind : TokenKind) : Prop where
  ne : kind ≠ .openBrace ∧ kind ≠ .closeBrace

/-! ## Building blocks -/

instance (priority := low) (rule : Parse α) [h : StaysInBody rule] : PassesInBody rule :=
  ⟨fun hended hwhole hbody _ _ => h.stays hended hwhole hbody⟩

theorem staysInBody_of_still {rule : Parse α}
    (h : ∀ setting session, ∃ value, rule setting session = (.ok value, session)) :
    StaysInBody rule := by
  constructor
  intro setting low close level session _ _ hbody
  obtain ⟨value, hrun⟩ := h setting session
  rw [hrun]
  exact hbody

theorem staysInBody_of_keeps {rule : Parse Unit}
    (h : ∀ setting hended hwhole low close,
      (bodyInvariant setting hended hwhole low close).comparison.Keeps rule) :
    StaysInBody rule := by
  constructor
  intro setting low close level session hended hwhole hbody
  let I := bodyInvariant setting hended hwhole low close
  have hagree : I.comparison.agree (level : Nat) session session := ⟨rfl, hbody, False.elim⟩
  have hends := (h setting hended hwhole low close).ends hagree
  change I.comparison.Ends _ _ (rule setting session) (rule setting session) at hends
  generalize rule setting session = result at hends
  cases hends with
  | lost hlost => exact hlost.1.elim
  | ok hpost => exact hpost.2.1
  | error _ hbroken => exact ⟨level, hbroken.2.1⟩

instance (message : Message) : StaysInBody (failExpected message : Parse α) :=
  ⟨fun _ _ hbody => ⟨_, hbody.reported _⟩⟩

instance (value : α) : StaysInBody (pure value) :=
  staysInBody_of_still fun _ _ => ⟨value, rfl⟩

instance : StaysInBody (read : Parse Setting) :=
  staysInBody_of_still fun _ _ => ⟨_, rfl⟩

instance : StaysInBody peek :=
  staysInBody_of_still fun _ _ => ⟨_, rfl⟩

instance : StaysInBody peekSecond :=
  staysInBody_of_still fun _ _ => ⟨_, rfl⟩

instance (kind : TokenKind) : StaysInBody (nextIs kind) :=
  staysInBody_of_still fun _ _ => ⟨_, rfl⟩

instance (scan : Scan Unit) : StaysInBody (sees scan) :=
  staysInBody_of_still fun _ _ => ⟨_, rfl⟩

instance : PassesInBody skip :=
  ⟨fun _ _ hbody hopen hclose => hbody.pass .none hopen hclose⟩

instance : PassesInBody cover :=
  ⟨fun _ _ hbody hopen hclose => hbody.pass .span hopen hclose⟩

instance (kind : NodeKind) : PassesInBody (leaf kind) := by
  constructor
  intro setting low close level session _ _ hbody hopen hclose
  exact .node hbody ((hbody.built (.empty kind)).pass .anchor hopen hclose)

instance : PassesInBody mark :=
  inferInstanceAs (PassesInBody (leaf _))

instance (rule : Parse α) (next : α → Parse β) [hrule : StaysInBody rule]
    [hnext : ∀ value, StaysInBody (next value)] : StaysInBody (rule >>= next) :=
  ⟨fun hended hwhole hbody => .bind (hrule.stays hended hwhole hbody) fun value _ _ hafter =>
    (hnext value).stays hended hwhole hafter⟩

instance (rule : Parse α) (next : α → Parse β) [hrule : PassesInBody rule]
    [hnext : ∀ value, StaysInBody (next value)] : PassesInBody (rule >>= next) :=
  ⟨fun hended hwhole hbody hopen hclose =>
    .bind (hrule.stays hended hwhole hbody hopen hclose) fun value _ _ hafter =>
      (hnext value).stays hended hwhole hafter⟩

instance (condition : Prop) [Decidable condition] (rule other : Parse α) [StaysInBody rule]
    [StaysInBody other] : StaysInBody (if condition then rule else other) := by
  split <;> infer_instance

instance (word : Keyword) : NoBrace (.keyword word) :=
  ⟨by simp, by simp⟩

instance : NoBrace .semicolon :=
  ⟨by decide, by decide⟩

instance : NoBrace .comma :=
  ⟨by decide, by decide⟩

instance : NoBrace .openParen :=
  ⟨by decide, by decide⟩

instance : NoBrace .closeParen :=
  ⟨by decide, by decide⟩

instance : NoBrace .assign :=
  ⟨by decide, by decide⟩

instance : NoBrace .const :=
  ⟨by decide, by decide⟩

instance : NoBrace .tilde :=
  ⟨by decide, by decide⟩

/-- Where a token of the kind comes next, it may be passed. -/
instance (kind : TokenKind) (rule other : Parse α) [hkind : NoBrace kind]
    [hrule : PassesInBody rule] [hother : StaysInBody other] :
    StaysInBody (do if ← nextIs kind then rule else other) := by
  constructor
  intro setting low close level session hended hwhole hbody
  rw [nextIs_bind]
  split
  · rename_i hhead
    have hhead := of_decide_eq_true hhead
    exact hrule.stays hended hwhole hbody (hhead ▸ hkind.ne.1) (hhead ▸ hkind.ne.2)
  · exact hother.stays hended hwhole hbody

/-- Where the test holds of the next token, it may be passed. -/
theorem staysInBody_of_test {test : Token → Bool} {rule other : Parse α} [hrule : PassesInBody rule]
    [hother : StaysInBody other] (htest : ∀ token, test token = true →
      token.kind ≠ .openBrace ∧ token.kind ≠ .closeBrace) :
    StaysInBody (do if test (← peek) then rule else other) := by
  constructor
  intro setting low close level session hended hwhole hbody
  rw [peek_bind]
  split
  · rename_i hhead
    have hkind := htest _ hhead
    exact hrule.stays hended hwhole hbody hkind.1 hkind.2
  · exact hother.stays hended hwhole hbody

instance (kind : NodeKind) (rule : Parse α) [hrule : StaysInBody rule] :
    StaysInBody (node kind rule) :=
  ⟨fun hended hwhole hbody => .node hbody (hrule.stays hended hwhole (hbody.built (.empty kind)))⟩

instance (count : Nat) (body : Parse Bool) [StaysInBody body] :
    StaysInBody (repeatUpTo count body) := by
  induction count with
  | zero => exact inferInstanceAs (StaysInBody (pure ()))
  | succ count ih =>
      unfold repeatUpTo
      infer_instance

instance (body : Parse Bool) [StaysInBody body] : StaysInBody (repeatRule body) := by
  have hahead : StaysInBody ahead := staysInBody_of_still fun _ _ => ⟨_, rfl⟩
  unfold repeatRule
  infer_instance

instance (item : Parse Unit) [StaysInBody item] : StaysInBody (commaSeparated item) := by
  unfold commaSeparated
  infer_instance

instance (test : Token → Bool) (rule : Parse Unit) [StaysInBody rule] :
    StaysInBody (whileNext test rule) := by
  unfold whileNext
  infer_instance

instance (kind : TokenKind) [hkind : NoBrace kind] : StaysInBody (coverRequired kind) :=
  staysInBody_of_keeps fun _ _ _ _ _ => ⟨fun h => Comparison.coverRequired_ends h hkind.ne⟩

instance (kind : TokenKind) [hkind : NoBrace kind] : StaysInBody (markIf kind) :=
  staysInBody_of_keeps fun _ _ _ _ _ => Comparison.markIf_keeps hkind.ne

/-! ## Types -/

instance bodyInvariant_readsTypes {setting : Setting} {hended : setting.Ended}
    {hwhole : setting.Whole} {low : Nat} {close : Token} :
    (bodyInvariant setting hended hwhole low close).comparison.ReadsTypes :=
  Invariant.readsTypes fun h => ne_brace_of_isPlain (ValueInvariant.isPlain_of_isTypePart h)

instance : StaysInBody identifier :=
  staysInBody_of_keeps fun _ _ _ _ _ => Comparison.reads_identifier

instance (room : Nat) (forms : TypeForms) : StaysInBody (dataType room forms) :=
  staysInBody_of_keeps fun _ _ _ _ _ => Comparison.dataType_keeps room forms

instance (ofParameter : Bool) : StaysInBody (typeModifier ofParameter) :=
  staysInBody_of_keeps fun _ _ _ _ _ => Comparison.typeModifier_keeps ofParameter

/-! ## Captured text -/

instance : StaysInBody defaultArgument := by
  constructor
  intro setting low close level session _ _ hbody
  have hsplit := Capture.argument_append [] session.ahead
  have hopened := hbody.built (.empty .expression)
  refine .node hbody (hopened.capture_even hsplit .expression ?_ ?_ hopened)
  · intro hcomplete
    have hnested := (Capture.argument_endsOutside hcomplete).1.closed
    exact hnested.evenCounts.2
  · intro message hfault
    rw [Capture.argument_eq_walk] at hfault ⊢
    exact Capture.walk_fault hfault

instance : StaysInBody capturedInitializer := by
  constructor
  intro setting low close level session hended _ hbody
  refine .node hbody ?_
  have hfirst := (hbody.built (.empty .assignment)).noted .span
  rw [peek_bind, widen_bind]
  change Stays setting low close level ((match (setting.head session).kind with
    | .assign => _ | .openParen => _ | _ => _ : Parse Unit) setting
      (setting.noted .span (session.opened .assignment)))
  generalize hkind : (setting.head session).kind = kind
  split
  · have hvalue := hfirst.pass .none (fun h => by cases hkind.symm.trans h)
      (fun h => by cases hkind.symm.trans h)
    rw [skip_bind, peek_bind]
    split
    · exact ⟨level, hvalue.reported _⟩
    dsimp only
    rw [ahead_bind]
    refine InBody.capture_even ?_ (Capture.initializer_append 0 0 _) .expression ?_ ?_ hvalue
    · exact hvalue
    · intro hcomplete
      exact (Capture.initializer_endsOutside hcomplete).1.closed.2
    · intro message hfault
      rw [Capture.initializer_eq_walk] at hfault ⊢
      exact Capture.walk_fault hfault
  · have hinside := hfirst.pass .none (fun h => by cases hkind.symm.trans h)
      (fun h => by cases hkind.symm.trans h)
    have hahead : session.ahead = setting.head session :: session.ahead.tail :=
      hended.ahead_cons (by rw [hkind]; decide)
    rw [ahead_bind]
    refine InBody.capture_even ?_ (Capture.group_append .openParen .closeParen 0 _) .argumentList
      ?_ ?_ hfirst
    · exact hinside
    · intro hcomplete
      exact hbody.even _ _ (hahead ▸ List.suffix_rfl) hkind hcomplete
    · intro message hfault
      rw [Capture.group_eq_walk] at hfault ⊢
      exact Capture.walk_fault hfault
  · exact ⟨level, hfirst.reported _⟩

instance : StaysInBody capturedBlock := by
  constructor
  intro setting low close level session hended _ hbody
  refine .node hbody ?_
  rw [ahead_bind, Comparison.coverRequired_eq]
  refine .bind ((hbody.built (.empty .statementBlock)).enterNext hended .span rfl _) ?_
  intro _ after _ hafter
  rw [ahead_bind]
  have hclosing : closingBrace? (0 + level + 1) after.ahead = some close := by
    rw [Nat.zero_add]
    exact hafter.closing
  generalize hblock : Capture.group .openBrace .closeBrace 0 after.ahead = block
  have hsplit : block.taken ++ block.rest = after.ahead := by
    rw [← hblock]
    exact Capture.group_append .openBrace .closeBrace 0 after.ahead
  have hfault (message : Message) (h : block.ending = .fault message) : block.rest ≠ [] := by
    rw [← hblock, Capture.group_eq_walk] at h ⊢
    exact Capture.walk_fault h
  obtain ⟨hcomplete, hend⟩ :
      (block.ending = .complete → closingBrace? level block.rest = some close) ∧
        block.ending ≠ .endOfSource := by
    rw [← hblock]
    rcases closingBrace?_group hclosing with ⟨hcomplete, hrest⟩ | ⟨hfault, -⟩
    · exact ⟨fun _ => hrest, by simp [hcomplete]⟩
    · exact ⟨fun hcomplete => by simp [hfault] at hcomplete, by simp [hfault]⟩
  have hcapture {covered : Session} (h : InBody setting low close (level + 1) covered)
      (hahead : covered.ahead = after.ahead) :
      Stays setting low close level
        (capture .statementBlock session.ahead block setting covered) := by
    refine InBody.capture h (hsplit.trans hahead.symm) .statementBlock hcomplete hfault ?_
    exact fun hnone => absurd hnone hend
  dsimp only
  split
  · exact hcapture hafter rfl
  · rename_i hbroken
    rw [read_bind, widen_bind]
    refine hcapture (hafter.built (hafter.building.widen ?_)) rfl
    cases hrest : block.rest with
    | nil =>
        cases hending : block.ending with
        | complete => exact absurd hending hbroken
        | fault message => exact absurd hrest (hfault message hending)
        | endOfSource => exact absurd hending hend
    | cons token rest =>
        refine hafter.ahead token ?_
        rw [← hsplit, hrest]
        exact List.mem_append_right _ List.mem_cons_self

/-! ## Members -/

section

set_option synthInstance.maxSize 2000

instance (room : Nat) : StaysInBody (returnType room) := by
  unfold returnType
  infer_instance

instance (room : Nat) : StaysInBody (parameter room) := by
  unfold parameter
  infer_instance

instance : StaysInBody methodAttributes := by
  unfold methodAttributes
  infer_instance

instance : StaysInBody sharedModifiers := by
  unfold sharedModifiers
  infer_instance

instance : StaysInBody laterInitializer := by
  unfold laterInitializer
  infer_instance

instance : StaysInBody accessModifier := by
  unfold accessModifier
  refine staysInBody_of_test ?_
  intro token h
  simp only [Token.isAccessModifier, Bool.or_eq_true, decide_eq_true_eq] at h
  rcases h with h | h <;> simp [h]

instance (initializer : Parse Unit) [StaysInBody initializer] :
    StaysInBody (variableNames initializer) := by
  unfold variableNames
  infer_instance

instance (room : Nat) : StaysInBody (memberVariable room) := by
  unfold memberVariable
  infer_instance

instance : StaysInBody functionBody := by
  unfold functionBody
  infer_instance

/-- `void` is skipped only where a parenthesis follows it. -/
theorem staysInBody_void {rest : Parse Unit} [hrest : StaysInBody rest] : StaysInBody (do
    if (← nextIs (.keyword .void)) && (← peekSecond).kind = .closeParen then
      skip
      cover
    else rest) := by
  constructor
  intro setting low close level session hended hwhole hbody
  rw [nextIs_bind, peekSecond_bind]
  split
  · rename_i hvoid
    simp only [Bool.and_eq_true, decide_eq_true_eq] at hvoid
    obtain ⟨hvoid, hparen⟩ := hvoid
    have hskipped := hbody.pass .none (by simp [hvoid]) (by simp [hvoid])
    rw [skip_bind]
    exact hskipped.pass .span (fun h => by cases hparen.symm.trans h)
      (fun h => by cases hparen.symm.trans h)
  · exact hrest.stays hended hwhole hbody

instance (room : Nat) : StaysInBody (parameterList room) := by
  have hlist : StaysInBody (do
      commaSeparated (parameter room)
      if ← nextIs .closeParen then cover
      else failExpected (.expectedEitherKind .closeParen .comma)) := inferInstance
  have hparameters := @staysInBody_void _ hlist
  unfold parameterList
  infer_instance

instance (keyword : Keyword) : StaysInBody (anchorRequired keyword) := by
  have hanchor : PassesInBody (do anchor (← next)) :=
    ⟨fun _ _ hbody hopen hclose => hbody.pass .anchor hopen hclose⟩
  rw [ScriptComparison.anchorRequired_eq]
  infer_instance

instance (room : Nat) : StaysInBody (funcdefDeclaration room) := by
  unfold funcdefDeclaration
  infer_instance

instance (room : Nat) : StaysInBody (method room) := by
  unfold method
  infer_instance

instance (place : PropertyPlace) : StaysInBody (accessor place) := by
  have hblock : StaysInBody (do
      if ← nextIs .openBrace then capturedBlock
      else failExpected (.expectedEitherKind .semicolon .openBrace)) := inferInstance
  unfold accessor
  infer_instance

/-- A loop whose last round passes the brace that closes a block. -/
theorem stays_of_rounds {body : Parse Bool} [Rounds body] {setting : Setting} {low level : Nat}
    {close : Token} {session : Session} (hended : setting.Ended)
    (hok : ∀ session again after, InBody setting low close (level + 1) session →
      body setting session = (.ok again, after) →
      InBody setting low close (if again then level + 1 else level) after)
    (herror : ∀ session interruption after, InBody setting low close (level + 1) session →
      body setting session = (.error interruption, after) →
      ∃ inner, InBody setting low close inner after)
    (hbody : InBody setting low close (level + 1) session) :
    Stays setting low close level (repeatRule body setting session) := by
  have hrepeats : Repeats body setting session _ := repeatRule_repeats hended hbody.reads
  generalize repeatRule body setting session = result at hrepeats
  induction hrepeats with
  | last hround => exact hok _ false _ hbody hround
  | broken hround => exact herror _ _ _ hbody hround
  | again hround hrest ih => exact ih (hok _ true _ hbody hround)

instance (room : Nat) (place : PropertyPlace) : StaysInBody (property room place) := by
  have haccessors : StaysInBody (do
      let _ ← require .openBrace
      repeatRule do
        let token ← peek
        if token.kind = .closeBrace then
          cover
          return false
        if !token.hasRole .accessor then
          failExpected (.expectedOneOf [ContextualWord.get.canonical, ContextualWord.set.canonical,
            TokenKind.closeBrace.describe])
        accessor place
        return true) := by
    constructor
    intro setting low close level session hended hwhole hbody
    refine .bind (hbody.enterNext hended .none rfl _) ?_
    intro _ after _ hafter
    have haccessor : StaysInBody (accessor place) := inferInstance
    refine stays_of_rounds hended ?_ ?_ hafter
    · intro session again after hbody hrun
      rw [peek_bind] at hrun
      split at hrun
      · rename_i hclose
        cases hrun
        exact hbody.leave hended .span hclose
      · split at hrun
        · obtain ⟨_, _, hfails, -⟩ := bind_ok hrun
          cases hfails
        · obtain ⟨_, middle, hfirst, hend⟩ := bind_ok hrun
          have hstays := haccessor.stays hended hwhole hbody
          rw [hfirst] at hstays
          cases hend
          exact hstays
    · intro session interruption after hbody hrun
      rw [peek_bind] at hrun
      split at hrun
      · cases hrun
      · split at hrun
        · cases hrun
          exact ⟨_, hbody.reported _⟩
        · have hstays := haccessor.stays hended hwhole hbody
          rcases bind_error hrun with hfirst | ⟨_, _, -, hend⟩
          · rw [hfirst] at hstays
            exact hstays
          · cases hend
  unfold property
  infer_instance

instance (room : Nat) : StaysInBody (classMember room) := by
  have hrest : StaysInBody (do
      if ← nextIs .semicolon then skip
      else failExpected .expectedMethodOrProperty) := inferInstance
  unfold classMember
  infer_instance

end

end Parse

/-! ## The class -/

/-- The report does not stand inside braces that are opened in the last block of the source: from
there on, no block is closed but those that are opened and the last one. -/
def Shallow (source : Source) (report : Diagnostic) : Prop :=
  closed (source.tokensFrom report.span.start) ≤ opened (source.tokensFrom report.span.start) + 1

instance (source : Source) (report : Diagnostic) : Decidable (Shallow source report) :=
  inferInstanceAs (Decidable (_ ≤ _))

section

open Parse

variable {setting : Setting} {low : Nat} {close : Token} {session : Session} {room : Nat}

theorem recovering_run (inBraces : Bool) (rule : Parse Unit) (setting : Setting)
    (session : Session) :
    recovering inBraces rule setting session =
      match rule setting session with
      | (.ok _, after) => (.ok (), after)
      | (.error _, stopped) => (.ok (), stopped.at (resume inBraces stopped.ahead)) := by
  unfold recovering
  rw [bind_run, attempt_run]
  rcases rule setting session with ⟨_ | _, _⟩ <;> rfl

/-- Behind a member, broken or not, the class is where it was before. -/
theorem member_stays (hended : setting.Ended) (hwhole : setting.Whole)
    (hbody : InBody setting low close 0 session) {result : Except Interruption Unit × Session}
    (hrun : recovering true (classMember room) setting session = result)
    (hshallow : ∀ report ∈ result.2.diagnostics.reported, Shallow setting.source report) :
    ∃ after, result = (.ok (), after) ∧ InBody setting low close 0 after := by
  have hmember : StaysInBody (classMember room) := inferInstance
  have hstays := hmember.stays hended hwhole hbody
  rw [recovering_run] at hrun
  subst hrun
  rcases hresult : classMember room setting session with ⟨interruption | value, stopped⟩ <;>
    rw [hresult] at hshallow hstays
  · obtain ⟨inner, hinner⟩ := hstays
    obtain ⟨report, hlast, -, hspan⟩ :=
      (halts_recovered room).1.halted setting session interruption stopped hresult
    have hreport := hshallow report (List.mem_of_getLast? hlast)
    unfold Shallow at hreport
    rw [hspan, Setting.head, hinner.reads.eq_tokensFrom hwhole] at hreport
    have hcount := closed_of_closingBrace? hinner.reads hinner.last hinner.closing
    obtain rfl : inner = 0 := by omega
    refine ⟨_, rfl, hinner.goOn (setting.leads_of_suffix (resume_suffix true _)) ?_⟩
    rw [closingBrace?_resume]
    exact hinner.closing
  · exact ⟨stopped, rfl, hstays⟩

/-- One round of the loop over the members. -/
def memberRound (room : Nat) : Parse Bool := do
  if !endsMembers (← peek) then
    recovering true (classMember room)
    return true
  else return false

instance : Rounds (memberRound room) :=
  rounds_recovering ScriptComparison.goesOn_of_not_endsMembers

instance : Advances (memberRound room) := by
  unfold memberRound
  infer_instance

theorem members_stay (hended : setting.Ended) (hwhole : setting.Whole)
    (hbody : InBody setting low close 0 session) {result : Except Interruption Unit × Session}
    (hrun : repeatRule (memberRound room) setting session = result)
    (hshallow : ∀ report ∈ result.2.diagnostics.reported, Shallow setting.source report) :
    ∃ after, result = (.ok (), after) ∧ InBody setting low close 0 after ∧
      endsMembers (setting.head after) = true := by
  have hrepeats : Repeats (memberRound room) setting session _ :=
    repeatRule_repeats hended hbody.reads
  rw [hrun] at hrepeats
  clear hrun
  induction hrepeats with
  | last hround =>
      unfold memberRound at hround
      rw [peek_bind] at hround
      split at hround
      · obtain ⟨_, _, -, hend⟩ := bind_ok hround
        cases hend
      · rename_i hends
        cases hround
        exact ⟨_, rfl, hbody, by simpa using hends⟩
  | @broken session after interruption hround =>
      unfold memberRound at hround
      rw [peek_bind] at hround
      split at hround
      · rcases bind_error hround with hmember | ⟨_, _, -, hend⟩
        · rw [recovering_run] at hmember
          split at hmember <;> cases hmember
        · cases hend
      · cases hround
  | @again session middle result hround hrest ih =>
      unfold memberRound at hround
      rw [peek_bind] at hround
      split at hround
      · obtain ⟨_, after, hmember, hend⟩ := bind_ok hround
        cases hend
        have hreads := hbody.reads.leads (advance_of_run hmember).forward
        have hreported := (advance (repeatRule (memberRound room)) setting middle).reported
        rw [(repeatRule_repeats hended hreads).unique hrest] at hreported
        obtain ⟨_, heq, hafter⟩ := member_stays hended hwhole hbody hmember
          fun report hmem => hshallow report (hreported.subset hmem)
        cases heq
        exact ih hafter hshallow
      · cases hround

/-- A class is what its members and its closing brace add to a node over its name. -/
theorem classDeclaration_run {keyword name brace : Token} {rest : List Token}
    (hahead : session.ahead = keyword :: name :: brace :: rest)
    (hkeyword : keyword.kind = .keyword .class_) (hname : name.kind.isIdentifier = true)
    (hbrace : brace.kind = .openBrace) :
    classDeclaration room setting session =
      let inner := (do
        repeatRule (memberRound room)
        coverRequired .closeBrace : Parse Unit) setting ⟨rest, session.diagnostics,
          ((Node.empty .class_).anchor keyword).append (.ofToken .identifier name)⟩
      (inner.1, session.closed inner.2) := by
  obtain ⟨tokens, diagnostics, building⟩ := session
  obtain rfl : tokens = keyword :: name :: brace :: rest := hahead
  have hplain : keyword.hasRole .declarationModifier = false := by
    simp [Token.hasRole, hkeyword, TokenKind.isIdentifier]
  have hkind : name.kind = .identifier := of_decide_eq_true hname
  have hanchor (node : Node) : anchorRequired .class_ setting
      ⟨keyword :: name :: brace :: rest, diagnostics, node⟩ =
        (.ok (), ⟨name :: brace :: rest, diagnostics, node.anchor keyword⟩) := by
    rw [ScriptComparison.anchorRequired_eq, nextIs_bind]
    simp only [Setting.head, List.headD_cons, hkeyword, decide_true, ↓reduceIte]
    rfl
  have hidentifier (node : Node) : identifier setting ⟨name :: brace :: rest, diagnostics, node⟩ =
      (.ok (), ⟨brace :: rest, diagnostics, node.append (.ofToken .identifier name)⟩) :=
    identifier_eq hname
  have hrequire (node : Node) : require .openBrace setting ⟨brace :: rest, diagnostics, node⟩ =
      (.ok brace, ⟨rest, diagnostics, node⟩) := by
    unfold require
    rw [nextIs_bind]
    simp only [Setting.head, List.headD_cons, hbrace, decide_true, ↓reduceIte]
    rfl
  have habsent {kind : TokenKind} {next : Bool → Parse Unit} {node : Node} {token : Token}
      {behind : List Token} (h : token.kind ≠ kind) :
      (nextIs kind >>= next) setting ⟨token :: behind, diagnostics, node⟩ =
        next false setting ⟨token :: behind, diagnostics, node⟩ := by
    rw [nextIs_bind]
    exact congrArg (next · setting _) (decide_eq_false h)
  have hinner : (do
      whileNext (·.hasRole .declarationModifier) identifier
      anchorRequired .class_
      if (← read).options.implicitHandles && (← nextIs .handle) then anchor (← next)
      namedMembers room (recovering true (classMember room))) setting
        ⟨keyword :: name :: brace :: rest, diagnostics, .empty .class_⟩ =
      (do
        repeatRule (memberRound room)
        coverRequired .closeBrace) setting ⟨rest, diagnostics,
          ((Node.empty .class_).anchor keyword).append (.ofToken .identifier name)⟩ := by
    rw [bind_run, whileNext_still hplain]
    dsimp only
    rw [bind_run, hanchor]
    dsimp only
    rw [read_bind, habsent (by simp [hkind])]
    simp only [Bool.and_false, Bool.false_eq_true, ↓reduceIte]
    unfold namedMembers
    rw [bind_run, hidentifier]
    dsimp only
    rw [habsent (by simp [hbrace])]
    simp only [Bool.false_eq_true, ↓reduceIte]
    rw [habsent (by simp [hbrace])]
    simp only [Bool.false_eq_true, ↓reduceIte]
    rw [bind_run, hrequire]
    rfl
  unfold classDeclaration
  rw [Comparison.node_run]
  exact congrArg (fun result => (result.1, Session.closed _ result.2)) hinner

theorem members_reported {result : Except Interruption Unit × Session}
    (hrun : (do
      repeatRule (memberRound room)
      coverRequired .closeBrace : Parse Unit) setting session = result) :
    (repeatRule (memberRound room) setting session).2.diagnostics.reported <+:
      result.2.diagnostics.reported := by
  rw [bind_run] at hrun
  rcases hmembers : repeatRule (memberRound room) setting session with ⟨_ | _, listed⟩ <;>
    rw [hmembers] at hrun <;> subst hrun
  · exact List.prefix_rfl
  · exact (advance (coverRequired .closeBrace) setting listed).reported

/-- The members are read up to the closing brace. -/
theorem members_whole (hended : setting.Ended) (hwhole : setting.Whole)
    (hbody : InBody setting low close 0 session) {result : Except Interruption Unit × Session}
    (hrun : (do
      repeatRule (memberRound room)
      coverRequired .closeBrace : Parse Unit) setting session = result)
    (hshallow : ∀ report ∈ result.2.diagnostics.reported, Shallow setting.source report) :
    ∃ after, result = (.ok (), after) ∧ after.ahead = [] ∧ session.building.Grows after.building ∧
      after.building.Within low close.span.stop ∧ after.building.Covers close.span := by
  have hadvance := advance (repeatRule (memberRound room)) setting session
  obtain ⟨listed, hlisted, hinside, hends⟩ := members_stay hended hwhole hbody rfl
    fun report hmem => hshallow report ((members_reported hrun).subset hmem)
  rw [hlisted] at hadvance
  obtain ⟨tokens, diagnostics, building⟩ := listed
  obtain ⟨token, behind, rfl⟩ := List.exists_cons_of_ne_nil hinside.ne_nil
  have hreads : setting.Reads (token :: behind) := hinside.reads
  have hbrace : token.kind = .closeBrace := by
    simpa [Setting.head, endsMembers, TokenKind.isEnd, hreads.ne_end] using hends
  obtain rfl : token = close := by
    have hclosing : closingBrace? 0 (token :: behind) = some close := hinside.closing
    rwa [closingBrace?_closeBrace hbrace, Option.some.injEq] at hclosing
  have hcover : coverRequired .closeBrace setting ⟨token :: behind, diagnostics, building⟩ =
      (.ok (), ⟨behind, diagnostics, building.widen token.span⟩) := by
    rw [Comparison.coverRequired_eq, nextIs_bind]
    simp only [Setting.head, List.headD_cons, hbrace, decide_true, ↓reduceIte]
    rfl
  rw [bind_run, hlisted] at hrun
  dsimp only at hrun
  rw [hcover] at hrun
  exact ⟨_, hrun.symm, hreads.cons.2.trans hinside.last,
    hadvance.building.trans (Node.grows_widen _ _),
    hinside.building.widen (hinside.toBetween.ahead token List.mem_cons_self),
    Node.covers_widen building hreads.start_lt_stop⟩

/-- A class whose closing brace is the last token is read up to that brace. -/
theorem classDeclaration_whole (hended : setting.Ended) (hwhole : setting.Whole)
    {keyword name brace : Token} {rest : List Token}
    (hahead : session.ahead = keyword :: name :: brace :: rest)
    (hreads : setting.Reads session.ahead)
    (hkeyword : keyword.kind = .keyword .class_) (hname : name.kind.isIdentifier = true)
    (hbrace : brace.kind = .openBrace) (hclosing : closingBrace? 0 rest = some close)
    (hend : setting.source.tokensFrom close.span.stop = []) (heven : EvenGroups rest)
    {result : Except Interruption Unit × Session}
    (hrun : classDeclaration room setting session = result)
    (hshallow : ∀ report ∈ result.2.diagnostics.reported, Shallow setting.source report) :
    ∃ after child, result = (.ok (), after) ∧ after.ahead = [] ∧
      after.building = session.building.append child ∧ child.kind = .class_ ∧
      child.span = some ⟨keyword.span.start, close.span.stop⟩ := by
  rw [classDeclaration_run hahead hkeyword hname hbrace] at hrun
  dsimp only at hrun
  generalize hnode : ((Node.empty .class_).anchor keyword).append (.ofToken .identifier name) = node
    at hrun
  rw [hahead] at hreads
  have hlast : (keyword :: name :: brace :: rest).getLast? = some close := by
    obtain ⟨before, behind, rfl⟩ := List.append_of_mem (mem_of_closingBrace? hclosing).1
    have hbehind : setting.Reads (close :: behind) :=
      hreads.suffix ⟨keyword :: name :: brace :: before, by simp⟩
    rw [hbehind.cons.2, hend]
    exact List.getLast?_concat (l := keyword :: name :: brace :: before)
  have htokens : ∀ token ∈ keyword :: name :: brace :: rest,
      token.span.Within keyword.span.start close.span.stop := fun token hmem =>
    ⟨hreads.start_le_of_head rfl hmem, Nat.le_of_lt (hreads.lt_of_mem hmem),
      hreads.stop_le_last hlast hmem⟩
  have hnamed : (Node.ofToken .identifier name).Within keyword.span.start close.span.stop :=
    (Node.Within.empty _).anchor (htokens name (by simp))
  have hstart : node.Within keyword.span.start close.span.stop := by
    rw [← hnode]
    exact ((Node.Within.empty _).anchor (htokens keyword (by simp))).append hnamed
  have hbody : InBody setting keyword.span.start close 0 ⟨rest, session.diagnostics, node⟩ := by
    refine ⟨⟨hreads.tail.tail.tail, hclosing⟩, ⟨hstart, ?_⟩, hend, heven⟩
    intro token hmem
    exact htokens token (by simp [hmem])
  subst hrun
  obtain ⟨inner, hinner, hnil, hgrows, hwithin, hcloses⟩ :=
    members_whole hended hwhole hbody rfl hshallow
  rw [hinner]
  have hcovers : inner.building.Covers keyword.span := by
    refine Node.Covers.grows ?_ hgrows
    rw [← hnode]
    exact (Node.covers_widen _ hreads.start_lt_stop).grows (Node.grows_append _ _)
  obtain ⟨wide, hwide, hlow, -⟩ := hcovers
  obtain ⟨wide', hwide', -, hhigh⟩ := hcloses
  obtain rfl : wide = wide' := Option.some.inj (hwide.symm.trans hwide')
  obtain ⟨hlow', -, hhigh'⟩ := hwithin.spans wide hwide
  refine ⟨_, inner.building, rfl, hnil, rfl, ?_, ?_⟩
  · rw [hgrows.kind, ← hnode, (Node.grows_append _ _).kind, (Node.grows_anchor _ _).kind]
    rfl
  · rw [hwide, ← Nat.le_antisymm hlow hlow', ← Nat.le_antisymm hhigh' hhigh]

/-- A script that is a class. -/
theorem script_whole (hended : setting.Ended) (hwhole : setting.Whole) {nested : Parse Unit}
    [Advances nested] [Consumes nested] {keyword name brace : Token} {rest : List Token}
    (hahead : session.ahead = keyword :: name :: brace :: rest)
    (hreads : setting.Reads session.ahead)
    (hkeyword : keyword.kind = .keyword .class_) (hname : name.kind.isIdentifier = true)
    (hbrace : brace.kind = .openBrace) (hclosing : closingBrace? 0 rest = some close)
    (hend : setting.source.tokensFrom close.span.stop = []) (heven : EvenGroups rest)
    (hshallow : ∀ report ∈
      (repeatRule (scriptStep room false nested) setting session).2.diagnostics.reported,
      Shallow setting.source report) :
    ∃ after child,
      repeatRule (scriptStep room false nested) setting session = (.ok (), after) ∧
      after.building = session.building.append child ∧ child.kind = .class_ ∧
      child.span = some ⟨keyword.span.start, close.span.stop⟩ := by
  have hplain : session.ahead.dropWhile (·.hasRole .declarationModifier) = session.ahead := by
    rw [hahead]
    exact List.dropWhile_cons_of_neg (by simp [Token.hasRole, hkeyword, TokenKind.isIdentifier])
  have hitem : scriptItem room nested session.ahead setting session =
      classDeclaration room setting session := by
    unfold scriptItem
    rw [read_bind, hahead, List.headD_cons, hkeyword]
  have hgoes : endsText false (session.ahead.headD setting.finish) = false := by
    rw [hahead, List.headD_cons, endsText, hkeyword]
    rfl
  obtain ⟨middle, hstep, hmiddle, hcomplete⟩ : ∃ middle,
      scriptStep room false nested setting session = (.ok true, middle) ∧
      middle.diagnostics = (classDeclaration room setting session).2.diagnostics ∧
      ∀ after, classDeclaration room setting session = (.ok (), after) → middle = after := by
    rw [ScriptComparison.scriptStep_run, hplain, hgoes, if_neg (by simp), bind_run, recovering_run,
      hitem]
    rcases classDeclaration room setting session with ⟨_ | _, stopped⟩
    · exact ⟨_, rfl, rfl, fun _ hfails => by cases hfails⟩
    · exact ⟨_, rfl, rfl, fun _ hends => by cases hends; rfl⟩
  have hreported := (advance (repeatRule (scriptStep room false nested)) setting middle).reported
  rw [repeatRule_again hended hreads hstep] at hshallow ⊢
  rw [hmiddle] at hreported
  obtain ⟨after, child, hafter, hnil, hadded⟩ :=
    classDeclaration_whole hended hwhole hahead hreads hkeyword hname hbrace hclosing hend heven rfl
      fun report hmem => hshallow report (hreported.subset hmem)
  obtain rfl := hcomplete after hafter
  refine ⟨middle, child, repeatRule_last ?_, hadded⟩
  rw [ScriptComparison.scriptStep_run, hnil]
  have hover : endsText false setting.finish = true := by
    unfold endsText
    rw [show setting.finish.kind = .endOfSource from hended]
    rfl
  exact if_pos hover

end

end ScriptSyntax.Grammar

namespace ScriptSyntax.Entry

open Grammar Grammar.Parse

/-- A class that is all there is in a source keeps its own braces, however many of its members are
broken, if nothing is reported inside the braces of a member and the braces in parentheses are
balanced. -/
theorem script_class_whole (options : Options) (source : Source) {keyword name : Token}
    {block : List Token} (htokens : source.tokensFrom 0 = keyword :: name :: block)
    (hkeyword : keyword.kind = .keyword .class_) (hname : name.kind.isIdentifier = true)
    (hblock : IsBlock block) (heven : EvenGroups block)
    (hshallow : ∀ report ∈ (script.parse options source).diagnostics.reported,
      Shallow source report) :
    ∃ close child, block.getLast? = some close ∧
      (script.parse options source).root.children = [child] ∧ child.kind = .class_ ∧
      child.span = some ⟨keyword.span.start, close.span.stop⟩ := by
  let setting := script.setting options source
  let first : Session := ⟨source.tokensFrom 0, {}, .empty .undefined⟩
  let room := options.maxDepth
  have hended : setting.Ended := rfl
  have hwhole : setting.Whole := Nat.le_max_right _ _
  have hreads : setting.Reads first.ahead := ⟨0, rfl⟩
  obtain ⟨brace, rest, rfl, hbrace, hcloses⟩ := hblock.closes
  obtain ⟨close, hlast, hclosing⟩ := hcloses.closingBrace? []
  rw [List.append_nil] at hclosing
  have hend : source.tokensFrom close.span.stop = [] := by
    obtain ⟨before, rfl⟩ := List.getLast?_eq_some_iff.mp hlast
    have hbehind : setting.Reads [close] :=
      hreads.suffix ⟨keyword :: name :: brace :: before, by simp [first, htokens]⟩
    exact hbehind.cons.2.symm
  have hrest : EvenGroups rest := fun paren behind hsuffix =>
    heven paren behind (hsuffix.trans (List.suffix_cons _ _))
  obtain ⟨after, child, hafter, hadded, hchild⟩ :
      ∃ after child, repeatRule (scriptStep room false (namespaceDeclaration room)) setting
        (first.opened .script) = (.ok (), after) ∧
        after.building = (Node.empty .script).append child ∧ child.kind = .class_ ∧
        child.span = some ⟨keyword.span.start, close.span.stop⟩ :=
    script_whole hended hwhole htokens hreads hkeyword hname hbrace hclosing hend hrest hshallow
  have hroot : (script.parse options source).root = after.building := by
    have hrun : node .script (repeatRule (scriptStep room false (namespaceDeclaration room)))
        setting first = (.ok (), { after with building := first.building.append after.building }) :=
      node_of_ok hafter
    exact root_eq (congrArg (·.2.building) hrun)
  refine ⟨close, child, ?_, ?_, hchild⟩
  · rw [List.getLast?_cons, hlast]
    rfl
  · rw [hroot, hadded, Node.children_append]
    rfl

/-- The method behind the broken variable is still a part of the class. -/
example :
    let source := "class A { int x y; void f() { } }".toList
    let outcome := script.parse {} source
    outcome.diagnostics.errors ≠ [] ∧
      (∀ report ∈ outcome.diagnostics.reported, Shallow source report) ∧
      outcome.root.children.map (·.span) = [some ⟨0, 33⟩] := by
  decide +kernel

end ScriptSyntax.Entry
