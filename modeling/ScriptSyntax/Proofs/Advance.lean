import Mathlib.Logic.Relation
import ScriptSyntax.Entry

/-!
# Parsing moves forward

Whatever a rule does, it only adds to the node that is being built and to the reports, and it never
goes back behind the place where it started: the tokens it leaves ahead are reached from those it
found by passing tokens and by reading anew behind the first byte of an operator that starts with
`>`.  Inside a rule, an error may send it back to where a construct started.
-/

namespace ScriptSyntax

namespace Node

/-- What further building keeps of a node. -/
structure Grows (node grown : Node) : Prop where
  kind : grown.kind = node.kind
  children : node.children <+: grown.children
  span : ∀ span, node.span = some span →
    ∃ wider, grown.span = some wider ∧ wider.start ≤ span.start ∧ span.stop ≤ wider.stop

theorem Grows.refl (node : Node) : node.Grows node :=
  ⟨rfl, List.prefix_rfl, fun span hspan => ⟨span, hspan, Nat.le_refl _, Nat.le_refl _⟩⟩

theorem Grows.trans {first second third : Node} (hfirst : first.Grows second)
    (hsecond : second.Grows third) : first.Grows third := by
  refine ⟨hsecond.kind.trans hfirst.kind, hfirst.children.trans hsecond.children, ?_⟩
  intro span hspan
  obtain ⟨middle, hmiddle, hstart, hstop⟩ := hfirst.span span hspan
  obtain ⟨last, hlast, hstart', hstop'⟩ := hsecond.span middle hmiddle
  exact ⟨last, hlast, by omega, by omega⟩

theorem Grows.isSome {node grown : Node} (h : node.Grows grown) (hspan : node.span.isSome) :
    grown.span.isSome := by
  obtain ⟨span, hspan⟩ := Option.isSome_iff_exists.mp hspan
  obtain ⟨wider, hwider, -⟩ := h.span span hspan
  exact Option.isSome_iff_exists.mpr ⟨wider, hwider⟩

theorem children_widen (node : Node) (span : Span) :
    (node.widen span).children = node.children := by
  unfold widen
  split <;> rfl

theorem token_widen (node : Node) (span : Span) : (node.widen span).token = node.token := by
  unfold widen
  split <;> rfl

theorem grows_widen (node : Node) (span : Span) : node.Grows (node.widen span) := by
  unfold widen
  split
  · exact Grows.refl node
  · refine ⟨rfl, List.prefix_rfl, ?_⟩
    intro old hold
    refine ⟨old.hull span, by simp [hold], ?_, ?_⟩
    · exact Nat.min_le_left _ _
    · exact Nat.le_max_left _ _

theorem span_widen {node : Node} {span : Span} (h : span.start < span.stop) :
    (node.widen span).span = some (node.span.elim span (·.hull span)) := by
  unfold widen
  split
  · rename_i hnowhere
    rw [hnowhere] at h
    exact absurd h (Nat.lt_irrefl 0)
  · rfl

/-- What holds of the span of a node still holds once the node is widened. -/
theorem span_of_widen {P : Span → Prop} {node : Node} {span : Span}
    (h : ∀ old, node.span = some old → P old) (hspan : node.span = none → P span)
    (hhull : ∀ {old}, P old → P (old.hull span)) :
    ∀ wide, (node.widen span).span = some wide → P wide := by
  intro wide hwide
  unfold widen at hwide
  split at hwide
  · exact h wide hwide
  · cases hold : node.span with
    | none =>
        simp only [hold, Option.elim_none, Option.some.injEq] at hwide
        exact hwide ▸ hspan hold
    | some old =>
        simp only [hold, Option.elim_some, Option.some.injEq] at hwide
        exact hwide ▸ hhull (h old hold)

theorem grows_widen_all (node : Node) (tokens : List Token) :
    node.Grows (tokens.foldl (fun node token => node.widen token.span) node) := by
  induction tokens generalizing node with
  | nil => exact .refl node
  | cons token rest ih => exact (grows_widen node token.span).trans (ih _)

theorem grows_anchor (node : Node) (token : Token) : node.Grows (node.anchor token) := by
  have hanchored : node.Grows { node with token := some token.kind } :=
    ⟨rfl, List.prefix_rfl, fun span hspan => ⟨span, hspan, Nat.le_refl _, Nat.le_refl _⟩⟩
  exact hanchored.trans (grows_widen _ _)

/-- What a node covers before a child that covers it too makes no difference behind the child. -/
theorem widen_append {node child : Node} {span wide : Span} (h : span.start < span.stop)
    (hchild : child.span = some wide) (hstart : wide.start ≤ span.start)
    (hstop : span.stop ≤ wide.stop) : (node.widen span).append child = node.append child := by
  have hspan : span ≠ .nowhere := by
    rintro rfl
    exact absurd h (Nat.lt_irrefl 0)
  have hwide : wide ≠ .nowhere := by
    rintro rfl
    exact absurd (Nat.lt_of_lt_of_le h hstop) (Nat.not_lt_zero _)
  have hhull (old : Span) : (old.hull span).hull wide = old.hull wide := by
    rw [Span.hull_assoc]
    congr 1
    simp only [Span.hull, Nat.min_eq_right hstart, Nat.max_eq_right hstop]
  simp only [append, hchild, Option.elim_some, widen, hspan, hwide, ↓reduceIte]
  cases node.span with
  | none =>
      simp only [Option.elim_none]
      congr 2
      simp only [Span.hull, Nat.min_eq_right hstart, Nat.max_eq_right hstop]
  | some old => simp only [Option.elim_some, hhull]

@[simp] theorem children_append (node child : Node) :
    (node.append child).children = node.children ++ [child] := by
  unfold append
  cases child.span with
  | none => rfl
  | some span => exact children_widen _ _

theorem token_append (node child : Node) : (node.append child).token = node.token := by
  unfold append
  cases child.span with
  | none => rfl
  | some span => exact token_widen _ _

theorem span_append (node child : Node) :
    (node.append child).span = child.span.elim node.span fun span => (node.widen span).span := by
  unfold append
  cases child.span with
  | none => rfl
  | some span =>
      unfold widen
      simp only [Option.elim_some]
      split <;> rfl

/-- What holds of the spans of two nodes, and of hulls, holds of the span of the one with the other
as its last child. -/
theorem span_of_append {P : Span → Prop} {node child : Node}
    (h : ∀ old, node.span = some old → P old) (hchild : ∀ new, child.span = some new → P new)
    (hhull : ∀ {old new}, P old → P new → P (old.hull new)) :
    ∀ wide, (node.append child).span = some wide → P wide := by
  intro wide hwide
  rw [span_append] at hwide
  cases hnew : child.span with
  | none =>
      rw [hnew] at hwide
      exact h wide hwide
  | some span =>
      rw [hnew] at hwide
      exact span_of_widen h (fun _ => hchild span hnew) (fun hold => hhull hold (hchild span hnew))
        wide hwide

theorem grows_append (node child : Node) : node.Grows (node.append child) := by
  have happended : node.Grows { node with children := node.children ++ [child] } :=
    ⟨rfl, List.prefix_append _ _, fun span hspan => ⟨span, hspan, Nat.le_refl _, Nat.le_refl _⟩⟩
  unfold append
  cases child.span with
  | none => exact happended
  | some span => exact happended.trans (grows_widen _ _)

end Node

namespace Grammar

/-! ## Ways ahead -/

/-- The next token of a session. -/
def Setting.head (setting : Setting) (session : Session) : Token :=
  session.ahead.headD setting.finish

/-- The token after the next one. -/
def Setting.second (setting : Setting) (session : Session) : Token :=
  session.ahead.tail.headD setting.finish

section

variable {setting : Setting} {session after : Session} {token separator : Token} {rest : List Token}

theorem Setting.head_nil (h : session.ahead = []) : setting.head session = setting.finish := by
  rw [head, h, List.headD_nil]

theorem Setting.head_cons (h : session.ahead = token :: rest) : setting.head session = token := by
  rw [head, h, List.headD_cons]

theorem Setting.second_cons (h : session.ahead = token :: separator :: rest) :
    setting.second session = separator := by
  rw [second, h, List.tail_cons, List.headD_cons]

theorem Setting.head_of_tail (h : after.ahead = session.ahead.tail) :
    setting.head after = setting.second session := by
  rw [head, h, second]

end

/-- One token is passed, or the first byte of it. -/
def Setting.Step (setting : Setting) (tokens next : List Token) : Prop :=
  (∃ token, tokens = token :: next) ∨ setting.afterGreater? tokens = some next

def Setting.Leads (setting : Setting) : List Token → List Token → Prop :=
  Relation.ReflTransGen setting.Step

theorem Setting.leads_tail (setting : Setting) (tokens : List Token) :
    setting.Leads tokens tokens.tail := by
  cases tokens with
  | nil => exact .refl
  | cons token rest => exact .single (.inl ⟨token, rfl⟩)

theorem Setting.leads_of_suffix (setting : Setting) {tokens rest : List Token}
    (h : rest <:+ tokens) : setting.Leads tokens rest := by
  obtain ⟨passed, rfl⟩ := h
  induction passed with
  | nil => exact .refl
  | cons token passed ih => exact .head (.inl ⟨token, rfl⟩) ih

theorem Setting.eq_nil_of_leads {setting : Setting} {tokens : List Token}
    (h : setting.Leads [] tokens) : tokens = [] := by
  rcases Relation.ReflTransGen.cases_head h with heq | ⟨next, hstep, -⟩
  · exact heq.symm
  · rcases hstep with ⟨token, heq⟩ | hgreater
    · simp at heq
    · simp [afterGreater?] at hgreater

/-- What was reported, except warnings. -/
def Session.faults (session : Session) : List Diagnostic :=
  session.diagnostics.reported.filter fun diagnostic => diagnostic.severity ≠ .warning

theorem Session.ofSeverity_eq_faults (session : Session) {severity : Severity}
    (hseverity : severity ≠ .warning) : session.diagnostics.ofSeverity severity =
      session.faults.filter (·.severity = severity) := by
  unfold faults Diagnostics.ofSeverity
  rw [List.filter_filter]
  refine List.filter_congr fun diagnostic _ => ?_
  by_cases hsame : diagnostic.severity = severity
  · simp [hsame, hseverity]
  · simp [hsame]

/-- What is kept of a session, whatever is run from it. -/
structure Advance (setting : Setting) (before after : Session) : Prop where
  building : before.building.Grows after.building
  reported : before.diagnostics.reported <+: after.diagnostics.reported
  forward : setting.Leads before.ahead after.ahead

theorem Advance.faults {setting : Setting} {before after : Session}
    (h : Advance setting before after) : before.faults <+: after.faults :=
  h.reported.filter _

theorem Advance.refl (setting : Setting) (session : Session) : Advance setting session session :=
  ⟨.refl _, List.prefix_rfl, .refl⟩

theorem Advance.trans {setting : Setting} {first second third : Session}
    (hfirst : Advance setting first second) (hsecond : Advance setting second third) :
    Advance setting first third :=
  ⟨hfirst.building.trans hsecond.building, hfirst.reported.trans hsecond.reported,
    hfirst.forward.trans hsecond.forward⟩

namespace Parse

variable {α β : Type}

/-- What is kept when a rule has run: a rule that ends early has reported why. -/
structure Proceeds (setting : Setting) (before : Session)
    (result : Except Interruption α × Session) : Prop where
  advance : Advance setting before result.2
  faulty : ∀ interruption, result.1 = .error interruption →
    before.faults.length < result.2.faults.length

theorem Proceeds.of_ok {setting : Setting} {before after : Session} (value : α)
    (h : Advance setting before after) : Proceeds setting before (.ok value, after) :=
  ⟨h, by simp⟩

theorem Proceeds.after {setting : Setting} {before middle : Session}
    {result : Except Interruption α × Session} (hfirst : Advance setting before middle)
    (hsecond : Proceeds setting middle result) : Proceeds setting before result := by
  refine ⟨hfirst.trans hsecond.advance, ?_⟩
  intro interruption herror
  exact Nat.lt_of_le_of_lt hfirst.faults.length_le (hsecond.faulty interruption herror)

class Advances (rule : Parse α) : Prop where
  proceeds : ∀ setting session, Proceeds setting session (rule setting session)

theorem proceeds (rule : Parse α) [Advances rule] (setting : Setting) (session : Session) :
    Proceeds setting session (rule setting session) :=
  Advances.proceeds setting session

theorem advance (rule : Parse α) [Advances rule] (setting : Setting) (session : Session) :
    Advance setting session (rule setting session).2 :=
  (proceeds rule setting session).advance

theorem advance_of_run {rule : Parse α} [Advances rule] {setting : Setting}
    {session after : Session} {result : Except Interruption α}
    (h : rule setting session = (result, after)) : Advance setting session after := by
  have hadvance := advance rule setting session
  rwa [h] at hadvance

/-- A rule that reports no error comes to its end. -/
theorem ok_of_quiet {rule : Parse Unit} [Advances rule] {setting : Setting}
    {session after : Session} (hrun : (rule setting session).2 = after)
    (hquiet : after.faults = session.faults) : rule setting session = (.ok (), after) := by
  subst hrun
  have hfaulty := (proceeds rule setting session).faulty
  generalize rule setting session = result at hfaulty hquiet
  obtain ⟨interruption | _, after⟩ := result
  · have hlt := hfaulty interruption rfl
    rw [hquiet] at hlt
    exact absurd hlt (Nat.lt_irrefl _)
  · rfl

/-- A rule inside a construct that starts with the given tokens.  It does not go back behind
them. -/
class Returns (start : List Token) (rule : Parse α) : Prop where
  proceeds : ∀ setting session, setting.Leads start session.ahead →
    Proceeds setting { session with ahead := start } (rule setting session)

/-- A rule that has not gone back when it comes to its end, takes no report back, and reports why if
it ends early. -/
class Forwards (rule : Parse α) : Prop where
  leads : ∀ setting session value after, rule setting session = (.ok value, after) →
    setting.Leads session.ahead after.ahead
  reported : ∀ setting session,
    session.diagnostics.reported <+: (rule setting session).2.diagnostics.reported
  faulty : ∀ setting session interruption after,
    rule setting session = (.error interruption, after) →
    session.faults.length < after.faults.length

instance (priority := low) (start : List Token) (rule : Parse α) [Advances rule] :
    Returns start rule := by
  constructor
  intro setting session hstart
  have hback : Advance setting { session with ahead := start } session :=
    ⟨.refl _, List.prefix_rfl, hstart⟩
  exact .after hback (proceeds rule setting session)

instance (priority := high) (rule : Parse α) [Advances rule] : Forwards rule := by
  refine ⟨?_, fun setting session => (advance rule setting session).reported, ?_⟩
  · intro setting session value after hrun
    exact (advance_of_run hrun).forward
  · intro setting session interruption after hrun
    have hproceeds := proceeds rule setting session
    rw [hrun] at hproceeds
    exact hproceeds.faulty interruption rfl

/-! ## Building blocks -/

theorem bind_run (rule : Parse α) (next : α → Parse β) (setting : Setting) (session : Session) :
    (rule >>= next) setting session =
      match rule setting session with
      | (.ok value, after) => next value setting after
      | (.error interruption, after) => (.error interruption, after) := by
  simp only [bind, ReaderT.bind, ExceptT.bind, ExceptT.mk, StateT.bind]
  rcases rule setting session with ⟨_ | _, _⟩ <;> rfl

section Runs

variable (setting : Setting) (session : Session)

theorem read_bind (next : Setting → Parse β) :
    (read >>= next) setting session = next setting setting session := rfl

theorem ahead_bind (next : List Token → Parse β) :
    (ahead >>= next) setting session = next session.ahead setting session := rfl

theorem peek_bind (next : Token → Parse β) :
    (peek >>= next) setting session =
      next (setting.head session) setting session := rfl

theorem peekSecond_bind (next : Token → Parse β) :
    (peekSecond >>= next) setting session =
      next (setting.second session) setting session := rfl

theorem nextIs_bind (kind : TokenKind) (next : Bool → Parse β) :
    (nextIs kind >>= next) setting session =
      next (decide ((setting.head session).kind = kind)) setting session := rfl

theorem sees_bind (scan : Scan Unit) (next : Bool → Parse β) :
    (sees scan >>= next) setting session =
      next ((scan setting).run session.ahead).isSome setting session := rfl

theorem tokensBehind_bind (scan : Scan Unit) (next : Option (List Token) → Parse β) :
    (tokensBehind scan >>= next) setting session =
      next (((scan setting).run session.ahead).map (·.2)) setting session := rfl

theorem goTo_bind (tokens : List Token) (next : Unit → Parse β) :
    (goTo tokens >>= next) setting session =
      next () setting { session with ahead := tokens } := rfl

theorem skip_bind (next : Unit → Parse β) :
    (skip >>= next) setting session =
      next () setting { session with ahead := session.ahead.tail } := rfl

theorem widen_bind (span : Span) (next : Unit → Parse β) :
    (widen span >>= next) setting session =
      next () setting { session with building := session.building.widen span } := rfl

theorem anchor_bind (token : Token) (next : Unit → Parse β) :
    (anchor token >>= next) setting session =
      next () setting { session with building := session.building.anchor token } := rfl

end Runs

/-- A rule that cannot fail. -/
theorem advances_of_ok {rule : Parse α} (step : Setting → Session → α × Session)
    (hrun : ∀ setting session,
      rule setting session = (.ok (step setting session).1, (step setting session).2))
    (hadvance : ∀ setting session, Advance setting session (step setting session).2) :
    Advances rule := by
  constructor
  intro setting session
  rw [hrun]
  exact .of_ok _ (hadvance setting session)

/-- A rule that only looks. -/
theorem advances_of_look {rule : Parse α} (look : Setting → Session → α)
    (hrun : ∀ setting session, rule setting session = (.ok (look setting session), session)) :
    Advances rule :=
  advances_of_ok (fun setting session => (look setting session, session)) hrun
    fun setting session => .refl setting session

instance (value : α) : Advances (pure value) :=
  advances_of_look _ fun _ _ => rfl

theorem Advances.bind {rule : Parse α} {next : α → Parse β} (hrule : Advances rule)
    (hnext : ∀ value, Advances (next value)) : Advances (rule >>= next) := by
  constructor
  intro setting session
  rw [bind_run]
  have hproceeds := hrule.proceeds setting session
  split
  · rename_i value after heq
    rw [heq] at hproceeds
    exact .after hproceeds.advance ((hnext value).proceeds setting after)
  · rename_i interruption after heq
    rw [heq] at hproceeds
    exact ⟨hproceeds.advance, fun _ _ => hproceeds.faulty interruption rfl⟩

instance (rule : Parse α) (next : α → Parse β) [Advances rule] [∀ value, Advances (next value)] :
    Advances (rule >>= next) :=
  .bind inferInstance inferInstance

theorem Returns.bind {start : List Token} {rule : Parse α} {next : α → Parse β}
    (hrule : Returns start rule) (hnext : ∀ value, Returns start (next value)) :
    Returns start (rule >>= next) := by
  constructor
  intro setting session hstart
  rw [bind_run]
  have hproceeds := hrule.proceeds setting session hstart
  split
  · rename_i value after heq
    rw [heq] at hproceeds
    have hsecond := (hnext value).proceeds setting after hproceeds.advance.forward
    have hfirst : Advance setting { session with ahead := start } { after with ahead := start } :=
      ⟨hproceeds.advance.building, hproceeds.advance.reported, .refl⟩
    exact .after hfirst hsecond
  · rename_i interruption after heq
    rw [heq] at hproceeds
    exact ⟨hproceeds.advance, fun _ _ => hproceeds.faulty interruption rfl⟩

instance (start : List Token) (rule : Parse α) (next : α → Parse β) [Returns start rule]
    [∀ value, Returns start (next value)] : Returns start (rule >>= next) :=
  .bind inferInstance inferInstance

/-- What comes to its end in two parts does so in the first, and then in the second. -/
theorem bind_ok {rule : Parse α} {next : α → Parse β} {setting : Setting} {session after : Session}
    {value : β} (h : (rule >>= next) setting session = (.ok value, after)) :
    ∃ first middle, rule setting session = (.ok first, middle) ∧
      next first setting middle = (.ok value, after) := by
  rw [bind_run] at h
  split at h
  · rename_i first middle heq
    exact ⟨first, middle, heq, h⟩
  · cases h

theorem Forwards.bind {rule : Parse α} {next : α → Parse β} (hrule : Forwards rule)
    (hnext : ∀ value, Forwards (next value)) : Forwards (rule >>= next) := by
  constructor
  · intro setting session value after hrun
    obtain ⟨first, middle, hfirst, hsecond⟩ := bind_ok hrun
    exact (hrule.leads setting session first middle hfirst).trans
      ((hnext first).leads setting middle value after hsecond)
  · intro setting session
    have hreported := hrule.reported setting session
    rw [bind_run]
    split
    · rename_i value middle heq
      rw [heq] at hreported
      exact hreported.trans ((hnext value).reported setting middle)
    · rename_i interruption middle heq
      rwa [heq] at hreported
  · intro setting session interruption after hrun
    have hreported := hrule.reported setting session
    rw [bind_run] at hrun
    split at hrun
    · rename_i value middle heq
      rw [heq] at hreported
      exact Nat.lt_of_le_of_lt (hreported.filter _).length_le
        ((hnext value).faulty setting middle interruption after hrun)
    · rename_i interruption middle heq
      cases hrun
      exact hrule.faulty setting session interruption after heq

instance (rule : Parse α) (next : α → Parse β) [Forwards rule] [∀ value, Forwards (next value)] :
    Forwards (rule >>= next) :=
  .bind inferInstance inferInstance

instance (condition : Prop) [Decidable condition] (first second : Parse α) [Advances first]
    [Advances second] : Advances (if condition then first else second) := by
  split <;> infer_instance

instance (start : List Token) (condition : Prop) [Decidable condition] (first second : Parse α)
    [Returns start first] [Returns start second] :
    Returns start (if condition then first else second) := by
  split <;> infer_instance

instance (condition : Prop) [Decidable condition] (first second : Parse α) [Forwards first]
    [Forwards second] : Forwards (if condition then first else second) := by
  split <;> infer_instance

/-- Where a construct starts with the tokens ahead, a rule inside it stays behind them. -/
theorem advances_of_returns {rule : List Token → Parse α}
    (hrule : ∀ start, Returns start (rule start)) : Advances (ahead >>= rule) :=
  ⟨fun setting session => (hrule session.ahead).proceeds setting session .refl⟩

instance (rule : List Token → Parse α) [∀ start, Returns start (rule start)] :
    Advances (ahead >>= rule) :=
  advances_of_returns inferInstance

instance : Advances (read : Parse Setting) :=
  advances_of_look _ fun _ _ => rfl

instance : Advances ahead :=
  advances_of_look _ fun _ _ => rfl

instance : Advances peek :=
  advances_of_look _ fun _ _ => rfl

instance : Advances peekSecond :=
  advances_of_look _ fun _ _ => rfl

instance (kind : TokenKind) : Advances (nextIs kind) :=
  advances_of_look _ fun _ _ => rfl

instance (scan : Scan Unit) : Advances (sees scan) :=
  advances_of_look _ fun _ _ => rfl

instance (scan : Scan Unit) : Advances (tokensBehind scan) :=
  advances_of_look _ fun _ _ => rfl

instance : Advances skip :=
  advances_of_ok (fun _ session => ((), { session with ahead := session.ahead.tail }))
    (fun _ _ => rfl) fun setting _ => ⟨.refl _, List.prefix_rfl, setting.leads_tail _⟩

instance : Advances next := by
  unfold next
  infer_instance

instance (span : Span) : Advances (widen span) :=
  advances_of_ok (fun _ session => ((), { session with building := session.building.widen span }))
    (fun _ _ => rfl) fun _ _ => ⟨Node.grows_widen _ _, List.prefix_rfl, .refl⟩

instance (token : Token) : Advances (anchor token) :=
  advances_of_ok
    (fun _ session => ((), { session with building := session.building.anchor token }))
    (fun _ _ => rfl) fun _ _ => ⟨Node.grows_anchor _ _, List.prefix_rfl, .refl⟩

/-! ## Reports -/

/-- The session after one more report. -/
def reported (setting : Setting) (severity : Severity) (message : Message) (token : Token)
    (session : Session) : Session :=
  { session with
    diagnostics := session.diagnostics.push
      ⟨severity, message.text, token.span, setting.lines.row token.span.start,
        setting.lines.column token.span.start⟩ }

theorem faults_reported (setting : Setting) {severity : Severity} (message : Message)
    (token : Token) (session : Session) (hseverity : severity ≠ .warning) :
    (reported setting severity message token session).faults.length = session.faults.length + 1 := by
  simp [Session.faults, reported, Diagnostics.push, hseverity]

instance (severity : Severity) (message : Message) (token : Token) :
    Advances (diagnose severity message token) :=
  advances_of_ok (fun setting session => ((), reported setting severity message token session))
    (fun _ _ => rfl) fun _ _ => ⟨.refl _, List.prefix_append _ _, .refl⟩

/-- Ending early behind a report. -/
theorem proceeds_of_report {setting : Setting} {before after : Session} (severity : Severity)
    (message : Message) (token : Token) (hseverity : severity ≠ .warning)
    (hadvance : Advance setting before after) :
    Proceeds setting before
      ((.error .syntaxError, reported setting severity message token after) :
        Except Interruption α × Session) := by
  have hreports : Proceeds setting after ((.error .syntaxError,
      reported setting severity message token after) : Except Interruption α × Session) := by
    refine ⟨⟨.refl _, List.prefix_append _ _, .refl⟩, fun _ _ => ?_⟩
    rw [faults_reported _ _ _ _ hseverity]
    exact Nat.lt_succ_self _
  exact .after hadvance hreports

instance (message : Message) : Advances (fail message : Parse α) :=
  ⟨fun setting session =>
    proceeds_of_report .error message (setting.head session) (by decide) (.refl setting session)⟩

/-- Going back, but not behind the start of the construct, to report there. -/
theorem returns_of_report {start : List Token} {rule : Parse α} (severity : Severity)
    (message : Message) (tokens : List Token) (hseverity : severity ≠ .warning)
    (htokens : tokens <:+ start)
    (hrun : ∀ setting session, rule setting session =
      (.error .syntaxError, reported setting severity message (tokens.headD setting.finish)
        { session with ahead := tokens })) :
    Returns start rule := by
  constructor
  intro setting session hstart
  rw [hrun]
  refine proceeds_of_report severity message _ hseverity ?_
  exact ⟨.refl _, List.prefix_rfl, setting.leads_of_suffix htokens⟩

theorem returns_goTo_fail {start tokens : List Token} (htokens : tokens <:+ start)
    (message : Message) : Returns start (do goTo tokens; (fail message : Parse α)) :=
  returns_of_report .error message tokens (by decide) htokens fun _ _ => rfl

theorem returns_failInside {start tokens : List Token} (htokens : tokens <:+ start)
    (construct : Construct) : Returns start (failInside construct tokens : Parse α) :=
  returns_of_report .info (.whileParsing construct) tokens (by decide) htokens fun _ _ => rfl

instance (construct : Construct) (start : List Token) :
    Returns start (failInside construct start : Parse α) :=
  returns_failInside List.suffix_rfl construct

instance (construct : Construct) (start : List Token) :
    Returns start (failAtEnd construct start : Parse α) := by
  unfold failAtEnd
  infer_instance

/-- A rule that never comes to its end does not go back there. -/
instance (construct : Construct) (start : List Token) :
    Forwards (failInside construct start : Parse α) := by
  refine ⟨?_, fun setting session => List.prefix_append _ _, ?_⟩
  · intro setting session value after hrun
    cases hrun
  · intro setting session interruption after hrun
    cases hrun
    change _ < (reported setting .info (.whileParsing construct) (start.headD setting.finish)
      { session with ahead := start }).faults.length
    rw [faults_reported _ _ _ _ (by decide)]
    exact Nat.lt_succ_self _

instance (construct : Construct) (start : List Token) :
    Forwards (failAtEnd construct start : Parse α) := by
  unfold failAtEnd
  infer_instance

instance (message : Message) : Advances (reportExpected message) := by
  unfold reportExpected
  infer_instance

theorem reportExpected_faults (message : Message) (setting : Setting) (session : Session) :
    session.faults.length < (reportExpected message setting session).2.faults.length := by
  change _ < (reported setting .error (.insteadFound (setting.head session))
    (setting.head session)
    (reported setting .error message (setting.head session) session)).faults.length
  rw [faults_reported _ _ _ _ (by decide), faults_reported _ _ _ _ (by decide)]
  omega

/-- A rule may end early behind a report. -/
theorem Advances.interrupted {rule : Parse Unit} [Advances rule]
    (hfaults : ∀ setting session,
      session.faults.length < (rule setting session).2.faults.length) :
    Advances (do rule; (interrupt : Parse α)) := by
  constructor
  intro setting session
  have hadvance := advance rule setting session
  have hreports := hfaults setting session
  rw [bind_run]
  split
  · rename_i after heq
    rw [heq] at hadvance hreports
    exact ⟨hadvance, fun _ _ => hreports⟩
  · rename_i after heq
    rw [heq] at hadvance hreports
    exact ⟨hadvance, fun _ _ => hreports⟩

instance (message : Message) : Advances (failExpected message : Parse α) :=
  .interrupted (reportExpected_faults message)

instance (kind : TokenKind) : Advances (require kind) := by
  unfold require
  infer_instance

/-! ## Nodes and loops -/

theorem Advances.node {rule : Parse α} (kind : NodeKind) (hrule : Advances rule) :
    Advances (node kind rule) := by
  constructor
  intro setting session
  have hinner := hrule.proceeds setting { session with building := .empty kind }
  exact ⟨⟨Node.grows_append _ _, hinner.advance.reported, hinner.advance.forward⟩, hinner.faulty⟩

instance (kind : NodeKind) (rule : Parse α) [Advances rule] : Advances (node kind rule) :=
  .node kind inferInstance

theorem node_ok {kind : NodeKind} {rule : Parse α} {setting : Setting} {session after : Session}
    {value : α} (h : node kind rule setting session = (.ok value, after)) :
    ∃ inner, rule setting { session with building := .empty kind } = (.ok value, inner) ∧
      after = { inner with building := session.building.append inner.building } := by
  obtain ⟨hvalue, hafter⟩ := Prod.mk.inj h
  exact ⟨_, Prod.ext hvalue rfl, hafter.symm⟩

theorem node_of_ok {kind : NodeKind} {rule : Parse α} {setting : Setting}
    {session inner : Session} {value : α}
    (h : rule setting { session with building := .empty kind } = (.ok value, inner)) :
    node kind rule setting session =
      (.ok value, { inner with building := session.building.append inner.building }) := by
  unfold node
  rw [h]

instance (kind : NodeKind) : Advances (leaf kind) := by
  unfold leaf
  infer_instance

instance : Advances mark := by
  unfold mark
  infer_instance

instance (kind : TokenKind) : Advances (markIf kind) := by
  unfold markIf
  infer_instance

instance : Advances cover := by
  unfold cover
  infer_instance

instance (kind : TokenKind) : Advances (coverRequired kind) := by
  unfold coverRequired
  infer_instance

instance : Advances identifier := by
  unfold identifier
  infer_instance

instance (rule : Unit → Parse α) [Advances (rule ())] : Advances (deferred rule) :=
  ⟨fun setting session => proceeds (rule ()) setting session⟩

theorem attempt_run (rule : Parse α) (setting : Setting) (session : Session) :
    attempt rule setting session =
      match rule setting session with
      | (.ok value, after) => (.ok (some value), after)
      | (.error _, after) => (.ok none, after) := by
  simp only [attempt, tryCatch, tryCatchThe, MonadExceptOf.tryCatch,
    ExceptT.tryCatch, bind, ReaderT.bind, ExceptT.bind, ExceptT.mk, StateT.bind]
  rcases rule setting session with ⟨_ | _, _⟩ <;> rfl

instance (rule : Parse α) [Advances rule] : Advances (attempt rule) := by
  constructor
  intro setting session
  have hrule := advance rule setting session
  rw [attempt_run]
  split <;> rename_i heq <;> rw [heq] at hrule <;> exact .of_ok _ hrule

instance (start : List Token) (rule : Parse α) [hrule : Returns start rule] :
    Returns start (attempt rule) := by
  constructor
  intro setting session hstart
  have hadvance := (hrule.proceeds setting session hstart).advance
  rw [attempt_run]
  split <;> rename_i heq <;> rw [heq] at hadvance <;> exact .of_ok _ hadvance

instance (count : Nat) (body : Parse Bool) [Advances body] : Advances (repeatUpTo count body) := by
  induction count with
  | zero => exact inferInstanceAs (Advances (pure ()))
  | succ count ih =>
      unfold repeatUpTo
      infer_instance

instance (start : List Token) (count : Nat) (body : Parse Bool) [Returns start body] :
    Returns start (repeatUpTo count body) := by
  induction count with
  | zero => exact inferInstanceAs (Returns start (pure ()))
  | succ count ih =>
      unfold repeatUpTo
      infer_instance

instance (count : Nat) (body : Parse Bool) [Forwards body] : Forwards (repeatUpTo count body) := by
  induction count with
  | zero => exact inferInstanceAs (Forwards (pure ()))
  | succ count ih =>
      unfold repeatUpTo
      infer_instance

instance (body : Parse Bool) [Advances body] : Advances (repeatRule body) := by
  unfold repeatRule
  infer_instance

instance (start : List Token) (body : Parse Bool) [hbody : Returns start body] :
    Returns start (repeatRule body) := by
  constructor
  intro setting session hstart
  have hrepeat : Returns start (repeatUpTo (byteCount session.ahead + 1) body) := inferInstance
  exact hrepeat.proceeds setting session hstart

instance (body : Parse Bool) [Forwards body] : Forwards (repeatRule body) := by
  have hrepeat (session : Session) : Forwards (repeatUpTo (byteCount session.ahead + 1) body) :=
    inferInstance
  exact ⟨fun setting session => (hrepeat session).leads setting session,
    fun setting session => (hrepeat session).reported setting session,
    fun setting session => (hrepeat session).faulty setting session⟩

instance (item : Parse Unit) [Advances item] : Advances (commaSeparated item) := by
  unfold commaSeparated
  infer_instance

instance (kind : NodeKind) : Advances (tooDeep kind) := by
  unfold tooDeep
  infer_instance

instance (test : Token → Bool) (rule : Parse Unit) [Advances rule] :
    Advances (whileNext test rule) := by
  unfold whileNext
  infer_instance

/-! ## Types -/

section

set_option synthInstance.maxSize 2000

instance (forms : TypeForms) : Advances (typeName forms) := by
  unfold typeName
  infer_instance

/-- What closes a list of template arguments. -/
instance advances_listClosing : Advances (do
    match (← read).afterGreater? (← ahead) with
    | some rest =>
        widen (.ofLength (← peek).span.start 1)
        goTo rest
    | none => (failExpected (.expectedKind .greater) : Parse Unit)) := by
  constructor
  intro setting session
  rw [read_bind, ahead_bind]
  cases hrest : setting.afterGreater? session.ahead with
  | none => exact proceeds (failExpected _ : Parse Unit) setting session
  | some rest =>
      exact .of_ok () ⟨Node.grows_widen _ _, List.prefix_rfl, .single (.inr hrest)⟩

instance (argument : Parse Unit) [Advances argument] : Advances (templateArguments argument) := by
  unfold templateArguments
  infer_instance

instance (room : Nat) (argument : Parse Unit) [Advances argument] :
    Advances (scopeOver room argument) := by
  unfold scopeOver
  infer_instance

/-- One suffix of a type, or its end. -/
instance advances_typeSuffix : Advances (do
    match (← peek).kind with
    | .openBracket =>
        mark
        coverRequired .closeBracket
        return true
    | .handle =>
        mark
        markIf .const
        return true
    | _ => return false) := by
  refine .bind inferInstance ?_
  intro token
  split <;> infer_instance

instance : Advances typeSuffixes := by
  unfold typeSuffixes
  infer_instance

instance (room : Nat) (argument : Parse Unit) (forms : TypeForms) [Advances argument] :
    Advances (typeBody room argument forms) := by
  unfold typeBody
  infer_instance

instance (room : Nat) (forms : TypeForms) : Advances (dataType room forms) := by
  induction room generalizing forms with
  | zero => exact inferInstanceAs (Advances (tooDeep _))
  | succ room ih =>
      unfold dataType
      infer_instance

instance (room : Nat) : Advances (scope room) := by
  unfold scope
  infer_instance

instance (ofParameter : Bool) : Advances (typeModifier ofParameter) := by
  unfold typeModifier
  infer_instance

/-! ## Captured text -/

theorem widen_all_run (tokens : List Token) (setting : Setting) (session : Session) :
    (tokens.forM fun token => widen token.span) setting session =
      (.ok (), { session with
        building := tokens.foldl (fun node token => node.widen token.span) session.building }) := by
  induction tokens generalizing session with
  | nil => rfl
  | cons token rest ih =>
      change ((widen token.span >>= fun _ => rest.forM fun token => widen token.span)
        setting session) = _
      rw [bind_run]
      exact ih _

/-- The session behind captured tokens, which are covered. -/
def captured (capture : Capture) (session : Session) : Session :=
  { session with
    ahead := capture.rest
    building := capture.taken.foldl (fun node token => node.widen token.span) session.building }

theorem capture_run (construct : Construct) (start : List Token) (text : Capture)
    (setting : Setting) (session : Session) :
    capture construct start text setting session =
      (match text.ending with
        | .complete => return
        | .fault message => fail message
        | .endOfSource => failAtEnd construct start : Parse Unit) setting (captured text session) := by
  unfold capture
  rw [bind_run, widen_all_run]
  rfl

theorem captured_advance (text : Capture) (setting : Setting) (session : Session)
    (hrest : text.rest <:+ session.ahead) : Advance setting session (captured text session) :=
  ⟨Node.grows_widen_all _ _, List.prefix_rfl, setting.leads_of_suffix hrest⟩

theorem capture_proceeds {setting : Setting} {session : Session} {start : List Token}
    (construct : Construct) (text : Capture) (hstart : setting.Leads start session.ahead)
    (hrest : text.rest <:+ session.ahead) :
    Proceeds setting { session with ahead := start }
      (capture construct start text setting session) := by
  rw [capture_run]
  have hend (ending : CaptureEnd) : Returns start (match ending with
      | .complete => return
      | .fault message => fail message
      | .endOfSource => failAtEnd construct start : Parse Unit) := by
    split <;> infer_instance
  have hcaptured := captured_advance text setting session hrest
  have hfirst : Advance setting { session with ahead := start }
      { captured text session with ahead := start } :=
    ⟨hcaptured.building, hcaptured.reported, .refl⟩
  exact .after hfirst ((hend text.ending).proceeds setting _ (hstart.trans hcaptured.forward))

theorem capture_forwards {setting : Setting} {session : Session} (construct : Construct)
    (start : List Token) (text : Capture) (hrest : text.rest <:+ session.ahead) :
    (∀ value after, capture construct start text setting session = (.ok value, after) →
      setting.Leads session.ahead after.ahead) ∧
    session.diagnostics.reported <+:
      (capture construct start text setting session).2.diagnostics.reported ∧
    ∀ interruption after, capture construct start text setting session =
      (.error interruption, after) → session.faults.length < after.faults.length := by
  rw [capture_run]
  have hend (ending : CaptureEnd) : Forwards (match ending with
      | .complete => return
      | .fault message => fail message
      | .endOfSource => failAtEnd construct start : Parse Unit) := by
    split <;> infer_instance
  refine ⟨?_, (hend text.ending).reported setting (captured text session), ?_⟩
  · intro value after hrun
    exact (captured_advance text setting session hrest).forward.trans
      ((hend text.ending).leads setting _ value after hrun)
  · intro interruption after hrun
    exact (hend text.ending).faulty setting (captured text session) interruption after hrun

/-- A capture that is not complete is reported. -/
theorem capture_faulty {text : Capture} (h : text.ending ≠ .complete) (construct : Construct)
    (start : List Token) (setting : Setting) (session : Session) :
    session.faults.length < (capture construct start text setting session).2.faults.length := by
  rw [capture_run]
  cases hending : text.ending with
  | complete => exact absurd hending h
  | fault message =>
      exact (proceeds (fail message : Parse Unit) setting (captured text session)).faulty _ rfl
  | endOfSource =>
      have hfirst := faults_reported setting .unexpectedEndOfFile
        (setting.head (captured text session)) (captured text session)
        (show Severity.error ≠ .warning by decide)
      have hsecond := faults_reported setting (.whileParsing construct) (start.headD setting.finish)
        { reported setting .error .unexpectedEndOfFile (setting.head (captured text session))
            (captured text session) with ahead := start }
        (show Severity.info ≠ .warning by decide)
      have hlength : (captured text session).faults.length = session.faults.length := rfl
      refine Nat.lt_of_lt_of_eq ?_ hsecond.symm
      exact Nat.lt_succ_of_lt (Nat.lt_of_lt_of_eq (by omega) hfirst.symm)

theorem suffix_of_append {taken rest tokens : List Token} (h : taken ++ rest = tokens) :
    rest <:+ tokens :=
  ⟨taken, h⟩

instance : Advances (do
    let start ← ahead
    capture .expression start (.argument [] start)) := by
  constructor
  intro setting session
  exact capture_proceeds _ _ .refl
    (suffix_of_append (Capture.argument_append [] session.ahead))

instance : Advances defaultArgument := by
  unfold defaultArgument
  infer_instance

instance : Advances (do
    let start ← ahead
    capture .expression start (.initializer 0 0 start)) := by
  constructor
  intro setting session
  exact capture_proceeds _ _ .refl
    (suffix_of_append (Capture.initializer_append 0 0 session.ahead))

instance : Advances (do
    let start ← ahead
    capture .argumentList start (.group .openParen .closeParen 0 start.tail)) := by
  constructor
  intro setting session
  have hgroup := Capture.group_append .openParen .closeParen 0 session.ahead.tail
  exact capture_proceeds _ _ .refl ((suffix_of_append hgroup).trans (List.tail_suffix _))

instance advances_initializerText : Advances (do
    let first ← peek
    widen first.span
    match first.kind with
    | .assign =>
        skip
        if Capture.endsInitializer (← peek).kind then failExpected .expectedExpressionValue
        let start ← ahead
        capture .expression start (.initializer 0 0 start)
    | .openParen =>
        let start ← ahead
        capture .argumentList start (.group .openParen .closeParen 0 start.tail)
    | _ =>
        failExpected (.expectedOneOfKinds [.assign, .openParen])) := by
  refine .bind inferInstance fun first => .bind inferInstance fun covered => ?_
  split <;> infer_instance

instance : Advances capturedInitializer := by
  unfold capturedInitializer
  infer_instance

instance returns_blockText (start : List Token) : Returns start (do
    let block := Capture.group .openBrace .closeBrace 0 (← ahead)
    unless block.ending = .complete do
      widen (block.rest.headD (← read).finish).span
    capture .statementBlock start block) := by
  constructor
  intro setting session hstart
  have hrest := suffix_of_append
    (Capture.group_append .openBrace .closeBrace 0 session.ahead)
  rw [ahead_bind]
  by_cases hcomplete : (Capture.group .openBrace .closeBrace 0 session.ahead).ending = .complete
  · simp only [hcomplete, ↓reduceIte]
    exact capture_proceeds _ _ hstart hrest
  · simp only [hcomplete, ↓reduceIte]
    rw [read_bind, widen_bind]
    generalize Capture.group .openBrace .closeBrace 0 session.ahead = block at hrest
    have hfirst := advance (widen (block.rest.headD setting.finish).span) setting
      { session with ahead := start }
    generalize hwiden : ({ session with
      building := session.building.widen (block.rest.headD setting.finish).span } : Session) = wide
    have hsecond : Proceeds setting { wide with ahead := start }
        (capture .statementBlock start block setting wide) := by
      subst hwiden
      exact capture_proceeds _ _ hstart hrest
    subst hwiden
    exact .after hfirst hsecond

instance forwards_blockText (start : List Token) : Forwards (do
    let block := Capture.group .openBrace .closeBrace 0 (← ahead)
    unless block.ending = .complete do
      widen (block.rest.headD (← read).finish).span
    capture .statementBlock start block) := by
  have hblock (setting : Setting) (session : Session) (building : Node) :=
    @capture_forwards setting { session with building } .statementBlock
      start (.group .openBrace .closeBrace 0 session.ahead)
      (suffix_of_append (Capture.group_append .openBrace .closeBrace 0 session.ahead))
  constructor
  · intro setting session value after hrun
    rw [ahead_bind] at hrun
    split at hrun
    · exact (hblock setting session session.building).1 value after hrun
    · rw [read_bind, widen_bind] at hrun
      exact (hblock setting session (session.building.widen _)).1 value after hrun
  · intro setting session
    rw [ahead_bind]
    split
    · exact (hblock setting session session.building).2.1
    · rw [read_bind, widen_bind]
      exact (hblock setting session (session.building.widen _)).2.1
  · intro setting session interruption after hrun
    rw [ahead_bind] at hrun
    split at hrun
    · exact (hblock setting session session.building).2.2 interruption after hrun
    · rw [read_bind, widen_bind] at hrun
      exact (hblock setting session (session.building.widen _)).2.2 interruption after hrun

instance : Advances capturedBlock := by
  unfold capturedBlock
  infer_instance

/-! ## Expressions -/

section Expressions

variable (rules : ValueRules) [Advances rules.assignment] [Advances rules.initList]

instance : Advances (argument rules) := by
  unfold argument
  infer_instance

/-- The arguments, and what closes them. -/
instance advances_argumentsText (parenthesized : Bool) : Advances (do
    match (← peek).kind with
    | .closeParen => if parenthesized then cover
    | .closeBracket => if parenthesized then fail (.unexpectedKind .closeBracket)
    | _ =>
        commaSeparated (argument rules)
        if parenthesized then
          if ← nextIs .closeParen then cover
          else failExpected (.expectedEitherKind .closeParen .comma)) := by
  refine .bind inferInstance ?_
  intro token
  split <;> infer_instance

instance (parenthesized : Bool) : Advances (argumentList rules parenthesized) := by
  unfold argumentList
  infer_instance

instance : Advances emptySlot := by
  unfold emptySlot
  infer_instance

instance : Advances (listElement rules) := by
  unfold listElement
  refine .bind inferInstance ?_
  intro token
  split <;> infer_instance

instance : Advances (initListBody rules) := by
  unfold initListBody
  infer_instance

instance : Advances constant := by
  unfold constant
  infer_instance

instance : Advances (functionCall rules) := by
  unfold functionCall
  infer_instance

instance (room : Nat) : Advances (variableAccess room) := by
  unfold variableAccess
  infer_instance

instance : Advances (constructCall rules) := by
  unfold constructCall
  infer_instance

instance : Advances (cast rules) := by
  unfold cast
  infer_instance

instance (room : Nat) : Advances (lambdaParameterType room) := by
  unfold lambdaParameterType
  refine .bind inferInstance ?_
  intro tokens
  split <;> infer_instance

instance (room : Nat) : Advances (lambda room) := by
  unfold lambda
  infer_instance

instance : Advances (namedValue rules) := by
  unfold namedValue
  infer_instance

/-- The value inside its node. -/
instance advances_valueOfKind : Advances (do
    match (← peek).kind with
    | .keyword .void => mark
    | .keyword .cast => cast rules
    | .openParen =>
        cover
        rules.assignment
        widen (← peek).span
        let _ ← require .closeParen
    | .unterminatedString => fail .unterminatedString
    | kind =>
        if kind.isPrimitiveType then constructCall rules
        else if kind.isIdentifier || kind = .scope then namedValue rules
        else if kind.isConstant then constant
        else failExpected .expectedExpressionValue) := by
  refine .bind inferInstance ?_
  intro token
  split <;> infer_instance

instance : Advances (value rules) := by
  unfold value
  infer_instance

/-- An operator behind a value, inside its node. -/
instance advances_postOperatorOfKind : Advances (do
    let token ← peek
    anchor token
    match token.kind with
    | .dot =>
        skip
        if (← peekSecond).kind = .openParen then functionCall rules else identifier
    | .openBracket =>
        skip
        argumentList rules false
        coverRequired .closeBracket
    | .openParen => argumentList rules true
    | _ => skip) := by
  refine .bind inferInstance fun token => .bind inferInstance ?_
  intro anchored
  split <;> infer_instance

instance : Advances (postOperator rules) := by
  unfold postOperator
  infer_instance

instance : Advances (term rules) := by
  unfold term
  infer_instance

instance : Advances (expression rules) := by
  unfold expression
  infer_instance

instance : Advances (condition rules) := by
  unfold condition
  infer_instance

instance : Advances (assignmentBody rules) := by
  unfold assignmentBody
  infer_instance

instance : Advances (assignedValue rules) := by
  unfold assignedValue
  infer_instance

instance : Advances (initializer rules) := by
  unfold initializer
  refine .bind inferInstance ?_
  intro token
  extract_lets after
  have hafter (read : Unit) : Advances (after read) := by
    unfold after
    infer_instance
  split <;> infer_instance

end Expressions

theorem valueRules_advances (room : Nat) :
    Advances (valueRules room).assignment ∧ Advances (valueRules room).initList := by
  induction room with
  | zero => exact ⟨inferInstanceAs (Advances (tooDeep _)), inferInstanceAs (Advances (tooDeep _))⟩
  | succ room ih =>
      obtain ⟨hassignment, hlist⟩ := ih
      exact ⟨inferInstanceAs (Advances (deferred fun _ => assignmentBody (valueRules room))),
        inferInstanceAs (Advances (deferred fun _ => initListBody (valueRules room)))⟩

instance (room : Nat) : Advances (valueRules room).assignment :=
  (valueRules_advances room).1

instance (room : Nat) : Advances (valueRules room).initList :=
  (valueRules_advances room).2

/-! ## Statements -/

instance (inBraces : Bool) : Advances (recover inBraces) :=
  advances_of_ok (fun _ session => ((), { session with ahead := resume inBraces session.ahead }))
    (fun _ _ => rfl) fun setting session => ⟨.refl _, List.prefix_rfl,
      setting.leads_of_suffix (resume_suffix inBraces session.ahead)⟩

instance (inBraces : Bool) (rule : Parse Unit) [Advances rule] :
    Advances (recovering inBraces rule) := by
  unfold recovering
  infer_instance

instance (start : List Token) (inBraces : Bool) (rule : Parse Unit) [Returns start rule] :
    Returns start (recovering inBraces rule) := by
  unfold recovering
  infer_instance

instance (initializer : Parse Unit) [Advances initializer] :
    Advances (variableNames initializer) := by
  unfold variableNames
  infer_instance

section Statements

variable (rules : ValueRules) [Advances rules.assignment] [Advances rules.initList]

/-- The initializer of a local variable. -/
instance advances_localInitializer : Advances (do
    match (← peek).kind with
    | .openParen => argumentList rules true
    | .assign =>
        skip
        assignedValue rules
    | _ => return) := by
  refine .bind inferInstance ?_
  intro token
  split <;> infer_instance

instance : Advances (localVariable rules) := by
  unfold localVariable
  infer_instance

end Statements

section Statements

variable (rules : BlockRules) [Advances rules.assignment] [Advances rules.initList]
  [Advances rules.statement]

instance : Advances (blockItem rules) := by
  unfold blockItem
  infer_instance

instance : Advances (goTo []) :=
  advances_of_ok (fun _ session => ((), { session with ahead := [] })) (fun _ _ => rfl)
    fun setting _ => ⟨.refl _, List.prefix_rfl, setting.leads_of_suffix List.nil_suffix⟩

instance (start : List Token) : Returns start (blockStep rules start) := by
  unfold blockStep
  infer_instance

instance (start : List Token) : Forwards (blockStep rules start) := by
  unfold blockStep
  infer_instance

instance : Advances (block rules) := by
  unfold block
  infer_instance

instance : Advances (expressionStatement rules) := by
  unfold expressionStatement
  infer_instance

instance (keyword : Keyword) : Advances (keywordCondition rules keyword) := by
  unfold keywordCondition
  infer_instance

instance (kind : NodeKind) : Advances (jump kind) := by
  unfold jump
  infer_instance

instance : Advances (caseLabel rules) := by
  unfold caseLabel
  infer_instance

/-- One label of a switch, or its end. -/
instance advances_switchStep : Advances (do
    match (← peek).kind with
    | .closeBrace =>
        cover
        return false
    | .keyword .case_ | .keyword .default_ =>
        caseLabel rules
        return true
    | _ => (failExpected (.expectedOneOfKinds [.keyword .case_, .keyword .default_]) :
        Parse Bool)) := by
  refine .bind inferInstance ?_
  intro token
  split <;> infer_instance

instance : Advances (switchStatement rules) := by
  unfold switchStatement
  infer_instance

instance : Advances (ifStatement rules) := by
  unfold ifStatement
  infer_instance

instance : Advances (whileStatement rules) := by
  unfold whileStatement
  infer_instance

instance : Advances (doStatement rules) := by
  unfold doStatement
  infer_instance

instance : Advances (do
    cover
    let _ ← require .openParen
    if ← sees (variableAhead rules.room) then localVariable rules.toValueRules
    else expressionStatement rules
    expressionStatement rules
    unless ← nextIs .closeParen do
      commaSeparated (node .expressionStatement rules.assignment)
    if ← nextIs .closeParen then skip else failExpected (.expectedOneOfKinds [.comma, .closeParen])
    rules.statement) := by
  refine .bind inferInstance fun _ => .bind inferInstance fun _ => .bind inferInstance fun _ => ?_
  extract_lets rest
  have hrest (first : PUnit) : Advances (rest first) := by
    unfold rest
    infer_instance
  clear_value rest
  infer_instance

instance : Advances (forStatement rules) := by
  unfold forStatement
  infer_instance

instance : Advances (returnStatement rules) := by
  unfold returnStatement
  infer_instance

instance : Advances (tryStatement rules) := by
  unfold tryStatement
  infer_instance

instance : Advances (statementBody rules) := by
  unfold statementBody
  refine .bind inferInstance ?_
  intro token
  split <;> infer_instance

end Statements

instance (room : Nat) : Advances (blockRules room).assignment := by
  cases room <;> exact inferInstanceAs (Advances (valueRules _).assignment)

instance (room : Nat) : Advances (blockRules room).initList := by
  cases room <;> exact inferInstanceAs (Advances (valueRules _).initList)

instance (room : Nat) : Advances (blockRules room).statement := by
  induction room with
  | zero => exact inferInstanceAs (Advances (fail _))
  | succ room ih =>
      exact inferInstanceAs (Advances (deferred fun _ => statementBody (blockRules room)))

/-! ## Signatures -/

instance (room : Nat) : Advances (returnType room) := by
  unfold returnType
  infer_instance

instance (room : Nat) : Advances (parameter room) := by
  unfold parameter
  infer_instance

instance (room : Nat) : Advances (parameterList room) := by
  unfold parameterList
  infer_instance

instance : Advances methodAttributes := by
  unfold methodAttributes
  infer_instance

instance (room : Nat) : Advances (signature room) := by
  unfold signature
  infer_instance

instance (room : Nat) : Advances (functionSignature room) := by
  unfold functionSignature
  infer_instance

instance (room : Nat) (nested : Parse Unit) (start : List Token) [Advances nested] :
    Returns start (patternElement room nested start) := by
  unfold patternElement
  refine .bind inferInstance fun token => .bind inferInstance ?_
  intro covered
  split <;> infer_instance

instance (start : List Token) : Returns start (patternSeparator start) := by
  unfold patternSeparator
  refine .bind inferInstance fun token => .bind inferInstance ?_
  intro covered
  split <;> infer_instance

instance (room : Nat) (nested : Parse Unit) [Advances nested] :
    Advances (listPatternBody room nested) := by
  unfold listPatternBody
  infer_instance

instance (room : Nat) : Advances (listPattern room) := by
  induction room with
  | zero => exact inferInstanceAs (Advances (tooDeep _))
  | succ room ih => exact inferInstanceAs (Advances (deferred _))

/-! ## Declarations -/

instance : Advances laterInitializer := by
  unfold laterInitializer
  infer_instance

instance : Advances accessModifier := by
  unfold accessModifier
  infer_instance

instance (room : Nat) : Advances (globalVariable room) := by
  unfold globalVariable
  infer_instance

instance (room : Nat) : Advances (memberVariable room) := by
  unfold memberVariable
  infer_instance

instance (keyword : Keyword) : Advances (anchorRequired keyword) := by
  unfold anchorRequired
  infer_instance

instance : Advances sharedModifiers := by
  unfold sharedModifiers
  infer_instance

instance : Advances expectIdentifier := by
  unfold expectIdentifier
  infer_instance

instance (room : Nat) : Advances (importDeclaration room) := by
  unfold importDeclaration
  infer_instance

instance : Advances enumerator := by
  unfold enumerator
  infer_instance

/-- The enumerators, or the semicolon of an enumeration without any. -/
instance advances_enumBody : Advances (do
    match (← peek).kind with
    | .semicolon => mark
    | .openBrace =>
        skip
        repeatRule enumerator
        coverRequired .closeBrace
    | _ => failExpected (.expectedOneOfKinds [.openBrace, .semicolon])) := by
  refine .bind inferInstance ?_
  intro token
  split <;> infer_instance

instance : Advances enumDeclaration := by
  unfold enumDeclaration
  infer_instance

instance : Advances typedefDeclaration := by
  unfold typedefDeclaration
  infer_instance

instance (room : Nat) : Advances (funcdefDeclaration room) := by
  unfold funcdefDeclaration
  infer_instance

instance : Advances functionBody := by
  unfold functionBody
  infer_instance

instance (room : Nat) : Advances (globalFunction room) := by
  unfold globalFunction
  infer_instance

instance (room : Nat) : Advances (method room) := by
  unfold method
  infer_instance

instance (room : Nat) : Advances (interfaceMethod room) := by
  unfold interfaceMethod
  infer_instance

instance (place : PropertyPlace) : Advances (accessor place) := by
  unfold accessor
  infer_instance

instance (room : Nat) (place : PropertyPlace) : Advances (property room place) := by
  unfold property
  infer_instance

instance (room : Nat) : Advances (baseName room) := by
  unfold baseName
  infer_instance

instance (room : Nat) (member : Parse Unit) [Advances member] :
    Advances (namedMembers room member) := by
  unfold namedMembers
  infer_instance

instance (room : Nat) : Advances (interfaceMember room) := by
  unfold interfaceMember
  infer_instance

instance (room : Nat) : Advances (interfaceDeclaration room) := by
  unfold interfaceDeclaration
  infer_instance

instance (room : Nat) : Advances (classMember room) := by
  unfold classMember
  infer_instance

instance (room : Nat) : Advances (classDeclaration room) := by
  unfold classDeclaration
  infer_instance

instance (room : Nat) : Advances (mixinDeclaration room) := by
  unfold mixinDeclaration
  infer_instance

instance (room : Nat) : Advances (globalMember room) := by
  unfold globalMember
  infer_instance

/-! ## Scripts -/

instance (body : Parse Unit) (count : Nat) [Advances body] :
    Advances (namespacePath body count) := by
  induction count with
  | zero => exact inferInstanceAs (Advances (pure ()))
  | succ count ih =>
      unfold namespacePath
      infer_instance

instance : Advances namespaceKeyword := by
  unfold namespaceKeyword
  have hreport (message : Message) : Advances (do
      reportExpected message
      identifier
      (interrupt : Parse Unit)) := by
    rw [← bind_assoc]
    refine .interrupted ?_
    intro setting session
    rw [bind_run]
    exact Nat.lt_of_lt_of_le (reportExpected_faults message setting session)
      (advance identifier setting _).faults.length_le
  infer_instance

instance (start : List Token) : Returns start (namespaceClosing (namespaceOpening start)) := by
  have hinside : Returns start
      (failInside .namespaceBody (namespaceOpening start) : Parse Unit) :=
    returns_failInside (namespaceOpening_suffix start) _
  unfold namespaceClosing
  infer_instance

/-- What follows the keyword of a namespace. -/
instance advances_behindNamespaceKeyword (body : Parse Unit) [Advances body] : Advances (do
    let opening := namespaceOpening (← ahead)
    if let some brace := opening.head? then widen brace.span
    namespacePath body ((← ahead).length + 1)
    namespaceClosing opening) := by
  refine advances_of_returns ?_
  intro start
  dsimp only
  split <;> infer_instance

instance (body : Parse Unit) [Advances body] : Advances (namespaceBody body) := by
  unfold namespaceBody
  infer_instance

theorem returns_scriptItem {start behind : List Token} {room : Nat} {nested : Parse Unit}
    [Advances nested] (hbehind : behind <:+ start) :
    Returns start (scriptItem room nested behind) := by
  have hfails (message : Message) : Returns start (do goTo behind; (fail message : Parse Unit)) :=
    returns_goTo_fail hbehind message
  unfold scriptItem
  refine .bind inferInstance ?_
  intro setting
  dsimp only
  split <;> infer_instance

instance (start : List Token) (room : Nat) (nested : Parse Unit) (p : Token → Bool)
    [Advances nested] : Returns start (scriptItem room nested (start.dropWhile p)) :=
  returns_scriptItem (List.dropWhile_suffix _)

instance (room : Nat) (inBraces : Bool) (nested : Parse Unit) [Advances nested] :
    Advances (scriptStep room inBraces nested) := by
  unfold scriptStep
  infer_instance

instance (room : Nat) (inBraces : Bool) (nested : Parse Unit) [Advances nested] :
    Advances (scriptBody room inBraces nested) := by
  unfold scriptBody
  infer_instance

instance (room : Nat) : Advances (namespaceDeclaration room) := by
  induction room with
  | zero => exact inferInstanceAs (Advances (tooDeep _))
  | succ room ih => exact inferInstanceAs (Advances (deferred _))

instance (room : Nat) : Advances (script room) := by
  unfold script
  infer_instance

end

end Parse

end Grammar
end ScriptSyntax
