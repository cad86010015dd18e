import ScriptSyntax.Proofs.Progress
import ScriptSyntax.Proofs.Scanning

/-!
# Two runs side by side

A rule is run from two sessions that agree in some respect, perhaps in two settings, and the
sessions it leaves are to agree again.  What agreeing means differs from use to use; a comparison
collects what the rules need to know about it.  With both runs the same, agreeing is an invariant
of one run.

A comparison may give up on a run of the left side, for instance once an error is reported there.
The left session is lost then, and stays so.  What agreeing means may also depend on how far the
node reaches that is being built: some rules cover the next token before they pass it, and an error
may leave it so.

Where the text ends inside a construct, the run goes back to the start of the construct.  The node
that is being built there is abandoned: it is closed, and only a node around it is gone on with.
-/

namespace ScriptSyntax.Grammar

/-- What a token leaves on the node that is being built. -/
inductive Imprint
  | none | span | anchor

end Grammar

def Node.imprinted (node : Node) (token : Token) : Grammar.Imprint → Node
  | .none => node
  | .span => node.widen token.span
  | .anchor => node.anchor token

namespace Grammar

/-- The session after the next token has left an imprint. -/
def Setting.noted (setting : Setting) (imprint : Imprint) (session : Session) : Session :=
  { session with building := session.building.imprinted (setting.head session) imprint }

/-- The session after the next token has left an imprint and is passed. -/
def Setting.passed (setting : Setting) (imprint : Imprint) (session : Session) : Session :=
  { setting.noted imprint session with ahead := session.ahead.tail }

/-- The session after the first byte of the next token has left its span and is passed. -/
def Setting.shortened (setting : Setting) (tokens : List Token) (session : Session) : Session :=
  { session with
    ahead := tokens
    building := session.building.widen (.ofLength (setting.head session).span.start 1) }

/-- The session after the next token has left its kind, but not its span. -/
def Setting.labelled (setting : Setting) (session : Session) : Session :=
  { session with building := { session.building with token := some (setting.head session).kind } }

/-- The session at the start of a node. -/
def Session.opened (kind : NodeKind) (session : Session) : Session :=
  { session with building := .empty kind }

/-- The session at the end of a node that was begun in `outer`. -/
def Session.closed (outer inner : Session) : Session :=
  { inner with building := outer.building.append inner.building }

/-- The next token reports in the session, with what was found in its place. -/
def Setting.reports (setting : Setting) (severity : Severity) (message : Message)
    (session : Session) : Session :=
  Parse.reported setting severity message (setting.head session) session

/-- The next token reports that something else was expected in its place. -/
def Setting.expects (setting : Setting) (message : Message) (session : Session) : Session :=
  setting.reports .error (.insteadFound (setting.head session))
    (setting.reports .error message session)

def Bracket.opening : Bracket → TokenKind
  | .paren => .openParen
  | .brace => .openBrace

def Bracket.closing : Bracket → TokenKind
  | .paren => .closeParen
  | .brace => .closeBrace

/-- How far the node that is being built reaches. -/
inductive Phase
  /-- Up to the next token. -/
  | settled
  /-- Over the next token, and none of its children does. -/
  | noted
  /-- Over the next token. -/
  | covered

/-- Where a node reaches that notes the next token. -/
def Phase.noting : Phase → Phase
  | covered => covered
  | _ => noted

/-- Where a node reaches behind a child of it. -/
def Phase.closing : Phase → Phase → Phase
  | settled, settled => settled
  | _, _ => covered

structure Comparison where
  left : Setting
  right : Setting
  /-- Where sessions are: the braces that are open, or the node that is being built. -/
  Frame : Type
  /-- The two sessions agree, in a frame and as far as the phase allows. -/
  relate : Phase → Frame → Session → Session → Prop
  /-- The two sessions agree behind an error, which may have made them go back in the text. -/
  broken : Frame → Session → Session → Prop
  /-- The frame inside a node that is opened here. -/
  inside : Frame → Session → Frame
  /-- The frame behind one more opening brace. -/
  deeper : Frame → Frame
  /-- The frame of a node that is not gone on with. -/
  abandoned : Frame → Frame
  /-- Nothing more is claimed about the left session. -/
  lost : Session → Prop
  /-- Tokens that stand for each other. -/
  alike : Token → Token → Prop
  /-- Lists of tokens that a rule may go back to from sessions that agree in the frame. -/
  places : Frame → List Token → List Token → Prop
  /-- A node with the span begins where the tokens start, or before. -/
  begins : Span → List Token → Prop
  /-- Sessions may still agree after an error. -/
  lenient : Prop
  /-- The kinds that may be passed in the same frame. -/
  passes : TokenKind → Prop
  options_eq : right.options = left.options
  application_eq : right.application = left.application
  ended : left.Ended
  alike_kind : ∀ {token other}, alike token other → other.kind = token.kind
  alike_text : ∀ {token other}, alike token other → other.text = token.text
  lost_reported : ∀ {session after : Session},
    session.diagnostics.reported <+: after.diagnostics.reported → lost session → lost after
  lenient_or : lenient ∨ ∀ session, session.faults ≠ [] → lost session
  loosen : ∀ {p n s t}, relate .settled n s t → relate p n s t
  loosest : ∀ {p n s t}, relate p n s t → relate .covered n s t
  broken_of_covered : ∀ {n s t}, relate .covered n s t → broken n s t
  abandon : ∀ {n s t}, broken n s t → broken (abandoned n) s t
  abandoned_deeper : ∀ n, abandoned (deeper n) = deeper (abandoned n)
  head : ∀ {p n s t}, relate p n s t → alike (left.head s) (right.head t)
  /-- A token that is there is not empty. -/
  solid : ∀ {p n s t}, relate p n s t → (left.head s).kind ≠ .endOfSource →
    (left.head s).span.start < (left.head s).span.stop ∧
      (right.head t).span.start < (right.head t).span.stop
  second : ∀ {n s t}, relate .settled n s t → passes (left.head s).kind →
    alike (left.second s) (right.second t)
  place : ∀ {p n s t}, relate p n s t → places n s.ahead t.ahead
  place_deeper : ∀ {n tokens others}, places n tokens others → places (deeper n) tokens others
  begins_ahead : ∀ {p n s t span}, relate p n s t → s.building.span = some span →
    begins span s.ahead
  begins_wider : ∀ {span wider tokens}, begins span tokens → wider.start ≤ span.start →
    begins wider tokens
  pass : ∀ {p n s t} (imprint : Imprint), relate p n s t → passes (left.head s).kind →
    lost (left.passed imprint s) ∨
      relate .settled n (left.passed imprint s) (right.passed imprint t)
  note : ∀ {p n s t} (imprint : Imprint), relate p n s t →
    lenient ∨ passes (left.head s).kind ∧ (left.head s).kind ≠ .comma ∧
      (left.head s).kind.startsWithGreater = false →
    (left.head s).kind ≠ .endOfSource ∨ s.building.span.isSome →
    relate p.noting n (left.noted imprint s) (right.noted imprint t)
  label : ∀ {n s t}, relate .settled n s t →
    relate .settled n (left.labelled s) (right.labelled t)
  greater : ∀ {n s t tokens}, relate .settled n s t → left.afterGreater? s.ahead = some tokens →
    ∃ others, right.afterGreater? t.ahead = some others ∧
      (lost (left.shortened tokens s) ∨
        relate .settled n (left.shortened tokens s) (right.shortened others t))
  noGreater : ∀ {n s t}, relate .settled n s t → left.afterGreater? s.ahead = none →
    right.afterGreater? t.ahead = none
  opened : ∀ {p n s t} (kind : NodeKind), relate p n s t →
    relate .settled (inside n s) (s.opened kind) (t.opened kind)
  closed : ∀ {p q n s t kind after other}, p ≠ .covered → relate p n s t →
    Advance left (s.opened kind) after → relate q (inside n s) after other →
    relate (p.closing q) n (s.closed after) (t.closed other)
  abandoned_closed : ∀ {p n s t kind after other}, p ≠ .covered → relate p n s t →
    Advance left (s.opened kind) after → broken (abandoned (inside n s)) after other →
    broken n (s.closed after) (t.closed other)
  report : ∀ {p n s t} (message message' : Message), lenient → relate p n s t →
    message'.text = message.text →
    (message = .unexpectedEndOfFile → (left.head s).kind = .endOfSource) →
    relate p n (left.reports .error message s) (right.reports .error message' t)
  fuel : ∀ {p n s t}, relate p n s t → byteCount s.ahead ≤ byteCount t.ahead
  shorter : ∀ {p n s t tokens}, relate p n s t → left.Passes s.ahead tokens →
    byteCount tokens < byteCount s.ahead

namespace Comparison

variable {α β : Type} (S : Comparison)

/-- The two sessions agree, and the nodes that are being built reach up to the next tokens. -/
abbrev agree (n : S.Frame) (s t : Session) : Prop :=
  S.relate .settled n s t

/-- How two runs end together: the left one is lost, or they end in the same way. -/
inductive Ends (n : S.Frame) (post : α → β → Session → Session → Prop) :
    Except Interruption α × Session → Except Interruption β × Session → Prop
  | lost {result other after after'} (hlost : S.lost after) :
      Ends n post (result, after) (other, after')
  | ok {value value' after after'} (hpost : post value value' after after') :
      Ends n post (.ok value, after) (.ok value', after')
  | error {after after'} (hlenient : S.lenient) (hbroken : S.broken n after after') :
      Ends n post (.error .syntaxError, after) (.error .syntaxError, after')

/-- The two runs of a rule from sessions that agree end in sessions that agree. -/
structure Keeps (rule : Parse Unit) : Prop where
  ends : ∀ {n s t}, S.agree n s t →
    S.Ends n (fun _ _ => S.agree n) (rule S.left s) (rule S.right t)

variable {S} {n m : S.Frame} {p q : Phase} {s t : Session}

theorem head_kind (h : S.relate p n s t) : (S.right.head t).kind = (S.left.head s).kind :=
  S.alike_kind (S.head h)

theorem head_text (h : S.relate p n s t) : (S.right.head t).text = (S.left.head s).text :=
  S.alike_text (S.head h)

theorem isWord_congr {token other : Token} (h : S.alike token other) (word : ContextualWord) :
    other.isWord word = token.isWord word := by
  unfold Token.isWord
  rw [S.alike_kind h, S.alike_text h]

theorem hasRole_congr {token other : Token} (h : S.alike token other) (role : ContextualRole) :
    other.hasRole role = token.hasRole role := by
  unfold Token.hasRole
  rw [S.alike_kind h, S.alike_text h]

theorem Ends.of_lost {post : α → β → Session → Session → Prop}
    {result : Except Interruption α × Session} {other : Except Interruption β × Session}
    (h : S.lost result.2) : S.Ends n post result other :=
  .lost h

theorem Ends.mono {post post' : α → β → Session → Session → Prop}
    {result : Except Interruption α × Session} {other : Except Interruption β × Session}
    (h : S.Ends n post result other)
    (hpost : ∀ value value' after after', post value value' after after' →
      post' value value' after after') :
    S.Ends n post' result other := by
  cases h with
  | lost hlost => exact .lost hlost
  | ok hvalue => exact .ok (hpost _ _ _ _ hvalue)
  | error hlenient hbroken => exact .error hlenient hbroken

/-- A node that breaks off may be abandoned. -/
theorem Ends.abandon {post : α → β → Session → Session → Prop}
    {result : Except Interruption α × Session} {other : Except Interruption β × Session}
    (h : S.Ends n post result other) : S.Ends (S.abandoned n) post result other := by
  cases h with
  | lost hlost => exact .lost hlost
  | ok hpost => exact .ok hpost
  | error hlenient hbroken => exact .error hlenient (S.abandon hbroken)

/-- What the left run did, beside how the two end. -/
theorem Ends.recall {post : α → β → Session → Session → Prop}
    {result : Except Interruption α × Session} {other : Except Interruption β × Session}
    (h : S.Ends n post result other) :
    S.Ends n (fun value value' after after' =>
      post value value' after after' ∧ result = (.ok value, after)) result other := by
  cases h with
  | lost hlost => exact .lost hlost
  | ok hpost => exact .ok ⟨hpost, rfl⟩
  | error hlenient hbroken => exact .error hlenient hbroken

/-- What the right run did, beside how the two end. -/
theorem Ends.recallRight {post : α → β → Session → Session → Prop}
    {result : Except Interruption α × Session} {other : Except Interruption β × Session}
    (h : S.Ends n post result other) :
    S.Ends n (fun value value' after after' =>
      post value value' after after' ∧ other = (.ok value', after')) result other := by
  cases h with
  | lost hlost => exact .lost hlost
  | ok hpost => exact .ok ⟨hpost, rfl⟩
  | error hlenient hbroken => exact .error hlenient hbroken

/-- A run that has reported an error is lost, unless the comparison is lenient. -/
theorem Ends.of_faults {post : α → β → Session → Session → Prop}
    {result : Except Interruption α × Session} {other : Except Interruption β × Session}
    (hstrict : ¬S.lenient) (hfaults : s.faults.length < result.2.faults.length) :
    S.Ends n post result other := by
  rcases S.lenient_or with hlenient | hlost
  · exact absurd hlenient hstrict
  · apply Ends.of_lost
    apply hlost
    intro hnil
    rw [hnil] at hfaults
    exact absurd hfaults (Nat.not_lt_zero _)

open Parse

theorem Ends.bind {γ δ : Type} {rule : Parse α} {rule' : Parse β} {next : α → Parse γ}
    {next' : β → Parse δ} {Q : α → β → Session → Session → Prop}
    {post' : γ → δ → Session → Session → Prop} [hforwards : ∀ value, Forwards (next value)]
    (h : S.Ends n Q (rule S.left s) (rule' S.right t))
    (hnext : ∀ value value' after after', Q value value' after after' →
      S.Ends n post' (next value S.left after) (next' value' S.right after')) :
    S.Ends n post' ((rule >>= next) S.left s) ((rule' >>= next') S.right t) := by
  rw [bind_run, bind_run]
  generalize rule S.left s = result at h
  generalize rule' S.right t = other at h
  cases h with
  | @lost result _ after _ hlost =>
      apply Ends.of_lost
      cases result with
      | ok value => exact S.lost_reported ((hforwards value).reported S.left after) hlost
      | error interruption => exact hlost
  | ok hpost => exact hnext _ _ _ _ hpost
  | error hlenient hbroken => exact .error hlenient hbroken

/-- What follows a rule that never comes to its end is not reached. -/
theorem Ends.never {γ δ : Type} {rule : Parse α} {rule' : Parse β} {next : α → Parse γ}
    {next' : β → Parse δ} {post : γ → δ → Session → Session → Prop}
    [∀ value, Forwards (next value)]
    (h : S.Ends n (fun _ _ _ _ => False) (rule S.left s) (rule' S.right t)) :
    S.Ends n post ((rule >>= next) S.left s) ((rule' >>= next') S.right t) :=
  .bind h fun _ _ _ _ hfalse => hfalse.elim

/-- A rule, then what follows it. -/
theorem Keeps.bind {γ δ : Type} {rule : Parse Unit} {next : Unit → Parse γ}
    {next' : Unit → Parse δ} {post : γ → δ → Session → Session → Prop}
    [∀ value, Forwards (next value)] (hrule : S.Keeps rule) (h : S.agree n s t)
    (hnext : ∀ after after', S.agree n after after' →
      S.Ends n post (next () S.left after) (next' () S.right after')) :
    S.Ends n post ((rule >>= next) S.left s) ((rule >>= next') S.right t) :=
  .bind (hrule.ends h) fun _ _ after after' => hnext after after'

/-! ## Tokens -/

theorem Ends.passed {value : α} {value' : β} (imprint : Imprint) (h : S.relate p n s t)
    (hkind : S.passes (S.left.head s).kind) :
    S.Ends n (fun _ _ => S.agree n) (.ok value, S.left.passed imprint s)
      (.ok value', S.right.passed imprint t) := by
  rcases S.pass imprint h hkind with hlost | hagree
  · exact .lost hlost
  · exact .ok hagree

theorem skip_ends (h : S.relate p n s t) (hkind : S.passes (S.left.head s).kind) :
    S.Ends n (fun _ _ => S.agree n) (skip S.left s) (skip S.right t) :=
  .passed .none h hkind

theorem cover_ends (h : S.relate p n s t) (hkind : S.passes (S.left.head s).kind) :
    S.Ends n (fun _ _ => S.agree n) (cover S.left s) (cover S.right t) :=
  .passed .span h hkind

theorem anchorNext_ends (h : S.relate p n s t) (hkind : S.passes (S.left.head s).kind) :
    S.Ends n (fun _ _ => S.agree n) ((do anchor (← next)) S.left s)
      ((do anchor (← next)) S.right t) :=
  .passed .anchor h hkind

theorem ifNext_ends {post : α → β → Session → Session → Prop} {kind : TokenKind}
    {yes no : Parse α} {yes' no' : Parse β} (h : S.relate p n s t)
    (hyes : (S.left.head s).kind = kind → S.Ends m post (yes S.left s) (yes' S.right t))
    (hno : (S.left.head s).kind ≠ kind → S.Ends m post (no S.left s) (no' S.right t)) :
    S.Ends m post ((do if ← nextIs kind then yes else no) S.left s)
      ((do if ← nextIs kind then yes' else no') S.right t) := by
  rw [nextIs_bind, nextIs_bind, head_kind h]
  by_cases hkind : (S.left.head s).kind = kind
  · simpa only [hkind, decide_true, ↓reduceIte] using hyes hkind
  · simpa only [hkind, decide_false, Bool.false_eq_true, ↓reduceIte] using hno hkind

/-- A node that has covered a token has a span, and keeps one. -/
theorem span_isSome_of_cover {after last : Session} (h : S.relate p n s t)
    (hhead : (S.left.head s).kind ≠ .endOfSource)
    (hrun : cover S.left s = (.ok (), after)) (hadvance : Advance S.left after last) :
    last.building.span.isSome := by
  cases hrun
  have hspan := @Node.span_widen s.building _ (S.solid h hhead).1
  exact hadvance.building.isSome (Option.isSome_iff_exists.mpr ⟨_, hspan⟩)

variable (S) in
/-- The node that is being built begins where the tokens start, or before. -/
def Heads (session : Session) (tokens : List Token) : Prop :=
  ∀ span, session.building.span = some span → S.begins span tokens

theorem heads_ahead (h : S.relate p n s t) : S.Heads s s.ahead :=
  fun _ => S.begins_ahead h

theorem Heads.grows {after : Session} {tokens : List Token} (h : S.Heads s tokens)
    (hspan : s.building.span.isSome) (hgrows : s.building.Grows after.building) :
    S.Heads after tokens := by
  obtain ⟨old, hold⟩ := Option.isSome_iff_exists.mp hspan
  obtain ⟨wider, hwider, hstart, -⟩ := hgrows.span old hold
  intro span hnew
  rw [hwider, Option.some.injEq] at hnew
  exact S.begins_wider (h old hold) (hnew ▸ hstart)

variable (S) in
/-- The node that is being built begins where the tokens start, or before, also if the next token
is its first one. -/
def Fronts (session : Session) (start : List Token) : Prop :=
  S.Heads session start ∧ (session.building.span.isSome ∨ session.ahead = start)

theorem fronts_ahead (h : S.relate p n s t) : S.Fronts s s.ahead :=
  ⟨heads_ahead h, .inr rfl⟩

theorem Fronts.passed {start : List Token} (hlenient : S.lenient) (h : S.relate p n s t)
    (hhead : (S.left.head s).kind ≠ .endOfSource) (hfronts : S.Fronts s start) :
    S.Fronts (S.left.passed .span s) start := by
  obtain ⟨hheads, hspan | rfl⟩ := hfronts
  · have hgrows : s.building.Grows (S.left.passed .span s).building := s.building.grows_widen _
    exact ⟨hheads.grows hspan hgrows, .inl (hgrows.isSome hspan)⟩
  · have hnoted := S.note .span h (.inl hlenient) (.inl hhead)
    exact ⟨heads_ahead hnoted, .inl (span_isSome_of_cover h hhead rfl (.refl S.left _))⟩

/-! ## Reports -/

theorem insteadFound_text {token other : Token} (hkind : other.kind = token.kind)
    (htext : other.text = token.text) :
    (Message.insteadFound other).text = (Message.insteadFound token).text := by
  have heq : Message.insteadFoundText other = Message.insteadFoundText token := by
    unfold Message.insteadFoundText
    rw [hkind, htext]
  exact heq

theorem fail_run (message : Message) (setting : Setting) (session : Session) :
    (fail message : Parse α) setting session =
      (.error .syntaxError, setting.reports .error message session) := rfl

theorem failExpected_run (message : Message) (setting : Setting) (session : Session) :
    (failExpected message : Parse α) setting session =
      (.error .syntaxError, setting.expects message session) := rfl

theorem reportExpected_bind (message : Message) (next : Unit → Parse α) (setting : Setting)
    (session : Session) :
    (reportExpected message >>= next) setting session =
      next () setting (setting.expects message session) := rfl

theorem faults_lt_reports (setting : Setting) (message : Message) (session : Session) :
    session.faults.length < (setting.reports .error message session).faults.length := by
  unfold Setting.reports
  rw [faults_reported _ _ _ _ (by decide)]
  exact Nat.lt_succ_self _

theorem fail_ends {post : α → β → Session → Session → Prop} (h : S.relate p n s t)
    (message message' : Message) (htext : message'.text = message.text)
    (hmessage : message ≠ .unexpectedEndOfFile) :
    S.Ends n post ((fail message : Parse α) S.left s) ((fail message' : Parse β) S.right t) := by
  rw [fail_run, fail_run]
  by_cases hlenient : S.lenient
  · have hreported := S.report message message' hlenient h htext fun heq => absurd heq hmessage
    exact .error hlenient (S.broken_of_covered (S.loosest hreported))
  · exact .of_faults hlenient (faults_lt_reports S.left message s)

theorem expected_related (hlenient : S.lenient) (h : S.relate p n s t) (message : Message)
    (hmessage : message ≠ .unexpectedEndOfFile) :
    S.relate p n (S.left.expects message s) (S.right.expects message t) := by
  have hfirst := S.report message message hlenient h rfl fun heq => absurd heq hmessage
  exact S.report (.insteadFound (S.left.head s)) (.insteadFound (S.right.head t))
    hlenient hfirst (insteadFound_text (head_kind h) (head_text h)) (by simp)

theorem failExpected_ends {post : α → β → Session → Session → Prop} (h : S.relate p n s t)
    (message : Message) (hmessage : message ≠ .unexpectedEndOfFile) :
    S.Ends n post ((failExpected message : Parse α) S.left s)
      ((failExpected message : Parse β) S.right t) := by
  rw [failExpected_run, failExpected_run]
  by_cases hlenient : S.lenient
  · exact .error hlenient
      (S.broken_of_covered (S.loosest (expected_related hlenient h message hmessage)))
  · refine .of_faults hlenient (Nat.lt_trans (faults_lt_reports S.left message s) ?_)
    exact faults_lt_reports S.left _ _

theorem require_ends {kind : TokenKind} (h : S.relate p n s t) (hkind : S.passes kind) :
    S.Ends n (fun _ _ => S.agree n) (require kind S.left s) (require kind S.right t) := by
  unfold require
  apply ifNext_ends h
  · intro hhead
    exact .passed .none h (hhead ▸ hkind)
  · intro hhead
    exact failExpected_ends h _ (by simp [Message.expectedKind])

theorem coverRequired_eq (kind : TokenKind) :
    coverRequired kind =
      (do if ← nextIs kind then cover else failExpected (.expectedKind kind)) := by
  funext setting session
  unfold coverRequired require
  rw [bind_run, nextIs_bind, nextIs_bind]
  by_cases hkind : (setting.head session).kind = kind
  · simp only [hkind, decide_true, ↓reduceIte]
    rfl
  · simp only [hkind, decide_false, Bool.false_eq_true, ↓reduceIte]
    rfl

theorem coverRequired_run {kind : TokenKind} {setting : Setting} {session after : Session}
    {value : Unit} (hrun : coverRequired kind setting session = (.ok value, after)) :
    (setting.head session).kind = kind ∧ after = setting.passed .span session := by
  rw [coverRequired_eq, nextIs_bind] at hrun
  by_cases hkind : (setting.head session).kind = kind
  · simp only [hkind, decide_true, ↓reduceIte] at hrun
    cases hrun
    exact ⟨hkind, rfl⟩
  · simp only [hkind, decide_false, Bool.false_eq_true, ↓reduceIte] at hrun
    cases hrun

theorem isSome_of_coverRequired {kind : TokenKind} {value : Unit} {after : Session}
    (h : S.relate p n s t) (hkind : kind ≠ .endOfSource)
    (hrun : coverRequired kind S.left s = (.ok value, after)) : after.building.span.isSome := by
  obtain ⟨hhead, rfl⟩ := coverRequired_run hrun
  exact span_isSome_of_cover h (hhead ▸ hkind) rfl (.refl S.left _)

theorem fronts_of_coverRequired {kind : TokenKind} {value : Unit} {after : Session}
    (hlenient : S.lenient) (h : S.relate p n s t) (hkind : kind ≠ .endOfSource)
    (hrun : coverRequired kind S.left s = (.ok value, after)) : S.Fronts after s.ahead := by
  obtain ⟨hhead, rfl⟩ := coverRequired_run hrun
  exact (fronts_ahead h).passed hlenient h (hhead ▸ hkind)

theorem coverRequired_ends {kind : TokenKind} (h : S.relate p n s t) (hkind : S.passes kind) :
    S.Ends n (fun _ _ => S.agree n) (coverRequired kind S.left s)
      (coverRequired kind S.right t) := by
  rw [coverRequired_eq]
  apply ifNext_ends h
  · intro hhead
    exact cover_ends h (hhead ▸ hkind)
  · intro hhead
    exact failExpected_ends h _ (by simp [Message.expectedKind])

/-! ## Nodes -/

theorem node_run (kind : NodeKind) (rule : Parse α) (setting : Setting) (session : Session) :
    node kind rule setting session =
      ((rule setting (session.opened kind)).1,
        session.closed (rule setting (session.opened kind)).2) := rfl

/-- A node around a rule that may abandon it. -/
theorem node_leaves {Q post : α → β → Session → Session → Prop} {rule : Parse α}
    {rule' : Parse β} [Advances rule] {kind : NodeKind} (hphase : p ≠ .covered)
    (h : S.relate p n s t)
    (hrule : S.agree (S.inside n s) (s.opened kind) (t.opened kind) →
      S.Ends (S.abandoned (S.inside n s)) Q (rule S.left (s.opened kind))
        (rule' S.right (t.opened kind)))
    (hclosed : ∀ value value' after after', Advance S.left (s.opened kind) after →
      Q value value' after after' → post value value' (s.closed after) (t.closed after')) :
    S.Ends n post (node kind rule S.left s) (node kind rule' S.right t) := by
  have hadvance := advance rule S.left (s.opened kind)
  have hinner := hrule (S.opened kind h)
  change S.Ends n post ((rule S.left (s.opened kind)).1, s.closed (rule S.left (s.opened kind)).2)
    ((rule' S.right (t.opened kind)).1, t.closed (rule' S.right (t.opened kind)).2)
  generalize rule S.left (s.opened kind) = result at hadvance hinner
  generalize rule' S.right (t.opened kind) = other at hinner
  cases hinner with
  | @lost result _ after _ hlost =>
      have hreported :
          after.diagnostics.reported <+: (s.closed after).diagnostics.reported := List.prefix_rfl
      exact .lost (S.lost_reported hreported hlost)
  | ok hpost => exact .ok (hclosed _ _ _ _ hadvance hpost)
  | error hlenient hbroken => exact .error hlenient (S.abandoned_closed hphase h hadvance hbroken)

theorem node_ends {Q post : α → β → Session → Session → Prop} {rule : Parse α}
    {rule' : Parse β} [Advances rule] {kind : NodeKind} (hphase : p ≠ .covered)
    (h : S.relate p n s t)
    (hrule : S.agree (S.inside n s) (s.opened kind) (t.opened kind) →
      S.Ends (S.inside n s) Q (rule S.left (s.opened kind)) (rule' S.right (t.opened kind)))
    (hclosed : ∀ value value' after after', Advance S.left (s.opened kind) after →
      Q value value' after after' → post value value' (s.closed after) (t.closed after')) :
    S.Ends n post (node kind rule S.left s) (node kind rule' S.right t) :=
  node_leaves hphase h (fun hopened => (hrule hopened).abandon) hclosed

/-- The kind of the next token is kept, and a node over that token comes first.  It makes no
difference whether the token's span is kept too. -/
theorem node_anchored {kind : NodeKind} {rule : Parse α} {setting : Setting} {session : Session}
    {covered : Session} (hsolid : (setting.head session).span.start < (setting.head session).span.stop)
    (hcovered : covered.building.span = some (setting.head session).span)
    (hadvance : Advance setting covered (rule setting (session.opened kind)).2) :
    node kind rule setting (setting.noted .anchor session) =
      node kind rule setting (setting.labelled session) := by
  obtain ⟨wide, hwide, hstart, hstop⟩ := hadvance.building.span _ hcovered
  rw [node_run, node_run]
  refine Prod.ext rfl ?_
  change Session.mk _ _ _ = Session.mk _ _ _
  congr 1
  exact Node.widen_append hsolid hwide hstart hstop

/-- A node around a rule that ends in sessions that agree, or abandons the node. -/
theorem Ends.nodeLeaving {rule : Parse Unit} {rule' : Parse Unit} [Advances rule] {kind : NodeKind}
    (h : S.agree n s t)
    (hrule : S.agree (S.inside n s) (s.opened kind) (t.opened kind) →
      S.Ends (S.abandoned (S.inside n s)) (fun _ _ => S.agree (S.inside n s))
        (rule S.left (s.opened kind)) (rule' S.right (t.opened kind))) :
    S.Ends n (fun _ _ => S.agree n) (node kind rule S.left s) (node kind rule' S.right t) := by
  refine node_leaves (by simp) h hrule ?_
  intro _ _ after after' hadvance hagree
  exact S.closed (by simp) h hadvance hagree

/-- A node around a rule that ends in sessions that agree. -/
theorem Ends.node {rule : Parse Unit} {rule' : Parse Unit} [Advances rule] {kind : NodeKind}
    (h : S.agree n s t)
    (hrule : S.agree (S.inside n s) (s.opened kind) (t.opened kind) →
      S.Ends (S.inside n s) (fun _ _ => S.agree (S.inside n s)) (rule S.left (s.opened kind))
        (rule' S.right (t.opened kind))) :
    S.Ends n (fun _ _ => S.agree n) (node kind rule S.left s) (node kind rule' S.right t) :=
  .nodeLeaving h fun hopened => (hrule hopened).abandon

theorem Keeps.node {rule : Parse Unit} [Advances rule] (kind : NodeKind) (hrule : S.Keeps rule) :
    S.Keeps (node kind rule) :=
  ⟨fun h => .node h hrule.ends⟩

/-- A node around a rule, where the node around it may have noted the next token. -/
theorem Keeps.nodeFrom {rule : Parse Unit} [Advances rule] {kind : NodeKind}
    (hrule : S.Keeps rule) (hphase : p ≠ .covered) (h : S.relate p n s t) :
    S.Ends n (fun _ _ => S.relate (p.closing .settled) n) (Parse.node kind rule S.left s)
      (Parse.node kind rule S.right t) := by
  refine node_ends hphase h hrule.ends ?_
  intro _ _ after after' hadvance hagree
  exact S.closed hphase h hadvance hagree

theorem leaf_ends {kind : NodeKind} (h : S.agree n s t)
    (hkind : S.passes (S.left.head s).kind) :
    S.Ends n (fun _ _ => S.agree n) (leaf kind S.left s) (leaf kind S.right t) :=
  .node h fun hopened => anchorNext_ends hopened hkind

theorem markIf_keeps {kind : TokenKind} (hkind : S.passes kind) : S.Keeps (markIf kind) := by
  constructor
  intro n s t h
  apply ifNext_ends h
  · intro hhead
    exact leaf_ends h (hhead ▸ hkind)
  · intro hhead
    exact .ok h

theorem identifier_keeps (hkind : S.passes .identifier) : S.Keeps identifier := by
  apply Keeps.node
  constructor
  intro n s t h
  rw [peek_bind, peek_bind, head_kind h]
  by_cases hname : (S.left.head s).kind.isIdentifier = true
  · simp only [hname, ↓reduceIte]
    have hhead : (S.left.head s).kind = .identifier := by
      simpa [TokenKind.isIdentifier] using hname
    exact anchorNext_ends h (hhead ▸ hkind)
  · simp only [hname, Bool.false_eq_true, ↓reduceIte]
    exact failExpected_ends h _ (by simp)

theorem tooDeep_from (kind : NodeKind) (hphase : p ≠ .covered) (h : S.relate p n s t) :
    S.Ends n (fun _ _ => S.relate (p.closing .settled) n) (tooDeep kind S.left s)
      (tooDeep kind S.right t) := by
  refine Keeps.nodeFrom ⟨?_⟩ hphase h
  intro n s t h
  exact fail_ends h _ _ rfl (by simp)

theorem tooDeep_keeps (kind : NodeKind) : S.Keeps (tooDeep kind) :=
  ⟨tooDeep_from kind (by simp)⟩

/-- The next token is covered, and it has to be of a kind that may be passed. -/
theorem coverThenRequire_ends {kind : TokenKind} (h : S.agree n s t) (hkind : S.passes kind)
    (hcomma : kind ≠ .comma) (hgreater : kind.startsWithGreater = false)
    (hspan : s.building.span.isSome) :
    S.Ends n (fun _ _ => S.agree n)
      ((do
        widen (← peek).span
        let _ ← require kind) S.left s)
      ((do
        widen (← peek).span
        let _ ← require kind) S.right t) := by
  rw [peek_bind, peek_bind, widen_bind, widen_bind]
  by_cases hhead : (S.left.head s).kind = kind
  · have hnoted := S.note .span h (.inr ⟨hhead ▸ hkind, hhead ▸ hcomma, hhead ▸ hgreater⟩)
      (.inr hspan)
    exact .bind (require_ends hnoted hkind) fun _ _ _ _ hagree => .ok hagree
  · by_cases hlenient : S.lenient
    · have hnoted := S.note .span h (.inl hlenient) (.inr hspan)
      exact .bind (require_ends hnoted hkind) fun _ _ _ _ hagree => .ok hagree
    · apply Ends.of_faults hlenient (s := S.left.noted .span s)
      have hproceeds := proceeds (do let _ ← require kind) S.left (S.left.noted .span s)
      refine hproceeds.faulty .syntaxError ?_
      rw [bind_run]
      unfold require
      rw [nextIs_bind]
      have hnoted : (S.left.head (S.left.noted .span s)).kind ≠ kind := hhead
      simp only [hnoted, decide_false, Bool.false_eq_true, ↓reduceIte]
      rfl

/-! ## Loops -/

/-- What a round of a loop leaves: the invariant of the loop if it asks for another one, else what
the loop is to leave. -/
def Round (inv post : Session → Session → Prop) (again again' : Bool) (s t : Session) : Prop :=
  again' = again ∧ if again then inv s t else post s t

variable {inv post : Session → Session → Prop}

theorem repeatUpTo_ends {body body' : Parse Bool} [Forwards body] [Rounds body]
    (hbody : ∀ {s t}, inv s t →
      S.Ends n (fun again again' => Round inv post again again') (body S.left s) (body' S.right t))
    (hshorter : ∀ {s t tokens}, inv s t → S.left.Passes s.ahead tokens →
      byteCount tokens < byteCount s.ahead)
    (count count' : Nat) (h : inv s t) (hcount : byteCount s.ahead < count)
    (hcount' : count ≤ count') :
    S.Ends n (fun _ _ => post) (repeatUpTo count body S.left s)
      (repeatUpTo count' body' S.right t) := by
  induction count generalizing s t count' with
  | zero => exact absurd hcount (Nat.not_lt_zero _)
  | succ count ih =>
      obtain ⟨smaller, rfl⟩ : ∃ smaller, count' = smaller + 1 := ⟨count' - 1, by omega⟩
      unfold repeatUpTo
      refine .bind (hbody h).recall ?_
      rintro _ again after after' ⟨⟨rfl, hround⟩, hrun⟩
      cases again with
      | false => exact .ok hround
      | true =>
          have hpassed := hshorter h (Rounds.passes S.left s after S.ended hrun)
          exact ih smaller hround (by omega) (by omega)

/-- Each round of a loop passes a token, so the loop does not run out of rounds. -/
theorem repeatRule_ends {body body' : Parse Bool} [Forwards body] [Rounds body]
    (hbody : ∀ {s t}, inv s t →
      S.Ends n (fun again again' => Round inv post again again') (body S.left s) (body' S.right t))
    (hrelated : ∀ {s t}, inv s t → s.ahead = [] ∨ ∃ p n, S.relate p n s t) (h : inv s t) :
    S.Ends n (fun _ _ => post) (repeatRule body S.left s) (repeatRule body' S.right t) := by
  have hfuel : byteCount s.ahead ≤ byteCount t.ahead := by
    rcases hrelated h with hnil | ⟨p, m, hrelate⟩
    · rw [hnil]
      exact Nat.zero_le _
    · exact S.fuel hrelate
  refine repeatUpTo_ends hbody ?_ _ _ h (Nat.lt_succ_self _) (Nat.succ_le_succ hfuel)
  intro s t tokens hinv hpasses
  rcases hrelated hinv with hnil | ⟨p, m, hrelate⟩
  · rw [hnil] at hpasses
    exact absurd hpasses (S.left.not_passes_nil tokens)
  · exact S.shorter hrelate hpasses

/-- A loop whose rounds leave sessions that agree. -/
theorem repeat_ends {body body' : Parse Bool} [Forwards body] [Rounds body]
    (hbody : ∀ {s t}, S.agree n s t →
      S.Ends n (fun again again' => Round (S.agree n) post again again') (body S.left s)
        (body' S.right t)) (h : S.agree n s t) :
    S.Ends n (fun _ _ => post) (repeatRule body S.left s) (repeatRule body' S.right t) :=
  repeatRule_ends hbody (fun hagree => .inr ⟨_, _, hagree⟩) h

theorem commaSeparated_ends {item : Parse Unit} [Advances item] (hcomma : S.passes .comma)
    (hitem : ∀ {s t}, S.agree n s t → S.Ends n (fun _ _ after after' =>
        S.agree n after after' ∨ S.relate .covered n after after' ∧ post after after')
      (item S.left s) (item S.right t))
    (hpost : ∀ {s t}, S.agree n s t → post s t) (h : S.agree n s t) :
    S.Ends n (fun _ _ => post) (commaSeparated item S.left s)
      (commaSeparated item S.right t) := by
  refine repeat_ends ?_ h
  intro s t h
  refine .bind (hitem h) ?_
  intro _ _ after after' hafter
  have hcovered : S.relate .covered n after after' := by
    rcases hafter with hagree | ⟨hcovered, -⟩
    · exact S.loosen hagree
    · exact hcovered
  apply ifNext_ends hcovered
  · intro hhead
    refine .bind (skip_ends hcovered (hhead ▸ hcomma)) ?_
    intro _ _ last last' hlast
    exact .ok ⟨rfl, hlast⟩
  · intro hhead
    refine .ok ⟨rfl, ?_⟩
    rcases hafter with hagree | ⟨-, hlast⟩
    · exact hpost hagree
    · exact hlast

theorem commaSeparated_keeps {item : Parse Unit} [Advances item] (hitem : S.Keeps item)
    (hcomma : S.passes .comma) : S.Keeps (commaSeparated item) := by
  constructor
  intro n s t h
  refine commaSeparated_ends hcomma ?_ id h
  intro s t h
  exact (hitem.ends h).mono fun _ _ _ _ hagree => .inl hagree

theorem whileNext_keeps {test : Token → Bool} {rule : Parse Unit} [Advances rule]
    (hrounds : Rounds (do
      if test (← peek) then
        rule
        return true
      else return false))
    (htest : ∀ {n s t}, S.agree n s t → test (S.right.head t) = test (S.left.head s))
    (hrule : ∀ {n s t}, S.agree n s t → test (S.left.head s) = true →
      S.Ends n (fun _ _ => S.agree n) (rule S.left s) (rule S.right t)) :
    S.Keeps (whileNext test rule) := by
  constructor
  intro n s t h
  refine repeat_ends ?_ h
  intro s t h
  rw [peek_bind, peek_bind, htest h]
  by_cases hhead : test (S.left.head s) = true
  · simp only [hhead, ↓reduceIte]
    refine .bind (hrule h hhead) ?_
    intro _ _ after after' hagree
    exact .ok ⟨rfl, hagree⟩
  · simp only [hhead, Bool.false_eq_true, ↓reduceIte]
    exact .ok ⟨rfl, h⟩

/-- What an attempt leaves, whether it came to its end or not. -/
theorem attempt_ends {rule rule' : Parse Unit}
    (h : S.Ends n (fun _ _ => post) (rule S.left s) (rule' S.right t)) :
    S.Ends m (fun result result' after after' => result' = result ∧
        (result = some () ∧ post after after' ∨
          result = none ∧ S.lenient ∧ S.broken n after after'))
      (attempt rule S.left s) (attempt rule' S.right t) := by
  rw [attempt_run, attempt_run]
  generalize rule S.left s = result at h
  generalize rule' S.right t = other at h
  cases h with
  | @lost result _ after _ hlost =>
      apply Ends.of_lost
      cases result <;> exact hlost
  | ok hpost => exact .ok ⟨rfl, .inl ⟨rfl, hpost⟩⟩
  | error hlenient hbroken => exact .ok ⟨rfl, .inr ⟨rfl, hlenient, hbroken⟩⟩

/-- A rule that is run only under a condition, then what follows it either way. -/
theorem Keeps.optional {condition : Prop} [Decidable condition] {rule : Parse Unit}
    {next : Unit → Parse α} {next' : Unit → Parse β} {post : α → β → Session → Session → Prop}
    [∀ value, Forwards (next value)] (hrule : S.Keeps rule) (h : S.agree n s t)
    (hnext : ∀ {after after'}, S.agree n after after' →
      S.Ends n post (next () S.left after) (next' () S.right after')) :
    S.Ends n post ((if condition then rule >>= next else next ()) S.left s)
      ((if condition then rule >>= next' else next' ()) S.right t) := by
  by_cases hcondition : condition
  · simp only [hcondition, ↓reduceIte]
    exact hrule.bind h fun _ _ => hnext
  · simp only [hcondition, ↓reduceIte]
    exact hnext h

end Comparison

end ScriptSyntax.Grammar
