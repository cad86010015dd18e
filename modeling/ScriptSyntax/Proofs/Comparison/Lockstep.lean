import ScriptSyntax.Proofs.Comparison.Entry
import ScriptSyntax.Proofs.Correspondence

/-!
# Runs in lockstep

Two runs from tokens that stand for each other take the same steps, errors included.  What is to be
compared beside the tokens is closed under the few things that happen to a session: the next token
leaves its span or its kind, a node is opened or closed, something is reported, and the run goes on
behind tokens that it passes over.

Where the text ends inside a construct, both runs go back to the start of it.  Two runs that end
with their first error ask nothing of what follows; others resume behind it.
-/

namespace ScriptSyntax.Grammar

/-- The session, at other tokens. -/
def Session.at (session : Session) (tokens : List Token) : Session :=
  { session with ahead := tokens }

structure Lockstep extends Correspondence where
  /-- Where sessions are: the node that is being built. -/
  Frame : Type
  /-- What the two sessions have in common beside their tokens. -/
  holds : Phase → Frame → Session → Session → Prop
  /-- What they have in common where they have just gone back to the start of a construct. -/
  rewound : Frame → Session → Session → Prop
  /-- What they have in common once the node with the construct is closed. -/
  astray : Frame → Session → Session → Prop
  inside : Frame → Session → Frame
  /-- Tokens to which a rule may go back in the frame. -/
  within : Frame → List Token → Prop
  /-- A node with the span begins where the tokens start, or before. -/
  begins : Span → List Token → Prop
  within_ahead : ∀ {p n s t}, holds p n s t → within n s.ahead
  within_suffix : ∀ {n tokens next}, left.Reads tokens → within n tokens → next <:+ tokens →
    within n next
  begins_ahead : ∀ {p n s t span}, holds p n s t → s.building.span = some span →
    begins span s.ahead
  begins_suffix : ∀ {span tokens next}, left.Reads tokens → begins span tokens → next <:+ tokens →
    begins span next
  begins_wider : ∀ {span wider tokens}, begins span tokens → wider.start ≤ span.start →
    begins wider tokens
  lost : Session → Prop
  lost_reported : ∀ {session after : Session},
    session.diagnostics.reported <+: after.diagnostics.reported → lost session → lost after
  loosen : ∀ {p n s t}, holds .settled n s t → holds p n s t
  loosest : ∀ {p n s t}, holds p n s t → holds .covered n s t
  note : ∀ {p n s t} (imprint : Imprint), pairs s.ahead t.ahead → holds p n s t →
    s.ahead ≠ [] ∨ s.building.span.isSome →
    holds p.noting n (left.noted imprint s) (right.noted imprint t)
  label : ∀ {n s t}, pairs s.ahead t.ahead → holds .settled n s t →
    holds .settled n (left.labelled s) (right.labelled t)
  slot : ∀ {n s t}, pairs s.ahead t.ahead → holds .settled n s t →
    (left.head s).kind = .comma ∨ (left.head s).kind = .closeBrace →
    holds .covered n (Comparison.slotted left s) (Comparison.slotted right t)
  shorten : ∀ {n s t tokens others}, pairs s.ahead t.ahead → holds .settled n s t →
    left.afterGreater? s.ahead = some tokens → pairs tokens others →
    holds .settled n (left.shortened tokens s) (right.shortened others t)
  /-- Behind the next token the node that is being built may reach up to it. -/
  behind : ∀ {n s t tokens others}, pairs s.ahead t.ahead → holds .covered n s t → s.ahead ≠ [] →
    tokens <:+ s.ahead.tail → pairs tokens others → holds .settled n (s.at tokens) (t.at others)
  onward : ∀ {n s t tokens others}, pairs s.ahead t.ahead → holds .covered n s t →
    tokens <:+ s.ahead → pairs tokens others → holds .covered n (s.at tokens) (t.at others)
  opened : ∀ {p n s t} (kind : NodeKind), pairs s.ahead t.ahead → holds p n s t →
    holds .settled (inside n s) (s.opened kind) (t.opened kind)
  closed : ∀ {p q n s t kind after other}, p ≠ .covered → pairs s.ahead t.ahead →
    holds p n s t → Advance left (s.opened kind) after → holds q (inside n s) after other →
    holds (p.closing q) n (s.closed after) (t.closed other)
  rewound_closed : ∀ {p n s t kind after other}, p ≠ .covered → pairs s.ahead t.ahead →
    holds p n s t → Advance left (s.opened kind) after → pairs after.ahead other.ahead →
    rewound (inside n s) after other → astray n (s.closed after) (t.closed other)
  astray_closed : ∀ {p n s t kind after other}, p ≠ .covered → pairs s.ahead t.ahead →
    holds p n s t → Advance left (s.opened kind) after → pairs after.ahead other.ahead →
    astray (inside n s) after other → astray n (s.closed after) (t.closed other)
  report : ∀ {p n s t} (severity : Severity) (message message' : Message), severity ≠ .info →
    message'.text = message.text → pairs s.ahead t.ahead → holds p n s t →
    holds p n (left.reports severity message s) (right.reports severity message' t)
  rewind : ∀ {n s t tokens others} (construct : Construct), within n tokens →
    (∀ span, s.building.span = some span → begins span tokens) →
    pairs tokens others → pairs s.ahead t.ahead → holds .covered n s t → left.Blamed s →
    lost (left.reports .info (.whileParsing construct) (s.at tokens)) ∨
      holds .covered n (left.reports .info (.whileParsing construct) (s.at tokens))
        (right.reports .info (.whileParsing construct) (t.at others)) ∨
      rewound n (left.reports .info (.whileParsing construct) (s.at tokens))
        (right.reports .info (.whileParsing construct) (t.at others))
  /-- A node may be widened over a token in it that was passed, or that comes next. -/
  reach : ∀ {p n s t s₀ t₀ token tokens other others}, holds .settled n s₀ t₀ →
    pairs s₀.ahead t₀.ahead → token :: tokens <:+ s₀.ahead →
    pairs (token :: tokens) (other :: others) → pairs s.ahead t.ahead → holds p n s t →
    left.Leads tokens s.ahead ∨ p = .covered ∧ token :: tokens = s.ahead →
    holds p n { s with building := s.building.widen token.span }
      { t with building := t.building.widen other.span }
  rewound_reach : ∀ {n s t s₀ t₀ token tokens other others}, holds .settled n s₀ t₀ →
    pairs s₀.ahead t₀.ahead → token :: tokens <:+ s₀.ahead → token.kind = .openBrace →
    pairs (token :: tokens) (other :: others) → pairs s.ahead t.ahead → rewound n s t →
    left.Leads (token :: tokens) s.ahead →
    rewound n { s with building := s.building.widen token.span }
      { t with building := t.building.widen other.span }
  astray_reach : ∀ {n s t s₀ t₀ token tokens other others}, holds .settled n s₀ t₀ →
    pairs s₀.ahead t₀.ahead → token :: tokens <:+ s₀.ahead → token.kind = .openBrace →
    pairs (token :: tokens) (other :: others) → pairs s.ahead t.ahead → astray n s t →
    left.Leads (token :: tokens) s.ahead →
    astray n { s with building := s.building.widen token.span }
      { t with building := t.building.widen other.span }

/-- Behind an error the two runs go on in lockstep. -/
class Lockstep.Resumes (L : Lockstep) : Prop where
  astray_resume : ∀ {n s t} (inBraces : Bool), L.pairs s.ahead t.ahead → L.astray n s t →
    L.holds .settled n (s.at (resume inBraces s.ahead)) (t.at (resume inBraces t.ahead))

namespace Lockstep

open Correspondence

variable (L : Lockstep) {n : L.Frame} {p : Phase} {s t : Session}

/-- The tokens correspond, and so does the rest. -/
def Related (p : Phase) (n : L.Frame) (s t : Session) : Prop :=
  L.pairs s.ahead t.ahead ∧ L.holds p n s t

/-- The tokens correspond behind an error. -/
def Broken (n : L.Frame) (s t : Session) : Prop :=
  L.pairs s.ahead t.ahead ∧ (L.holds .covered n s t ∨ L.astray n s t)

/-- The tokens correspond behind an error in a node that is not gone on with. -/
def Abandoned (n : L.Frame) (s t : Session) : Prop :=
  L.pairs s.ahead t.ahead ∧ (L.holds .covered n s t ∨ L.astray n s t ∨ L.rewound n s t)

variable {L}

theorem ahead_ne_nil (h : (L.left.head s).kind ≠ .endOfSource) : s.ahead ≠ [] :=
  fun hnil => h (Setting.Ended.head_nil L.ended hnil)

theorem head_ne_end (h : L.pairs s.ahead t.ahead) (hne : s.ahead ≠ []) :
    (L.left.head s).kind ≠ .endOfSource := by
  have hreads := (L.reads h).1
  cases hahead : s.ahead with
  | nil => exact absurd hahead hne
  | cons token rest =>
      rw [hahead] at hreads
      rw [Setting.head_cons hahead]
      exact hreads.ne_end

theorem Related.pass (imprint : Imprint) (h : L.Related p n s t) (hne : s.ahead ≠ []) :
    L.Related .settled n (L.left.passed imprint s) (L.right.passed imprint t) := by
  have hnoted := L.note imprint h.1 h.2 (.inl hne)
  exact ⟨L.tails h.1, L.behind h.1 (L.loosest hnoted) hne List.suffix_rfl (L.tails h.1)⟩

theorem resume_eq_nil {inBraces : Bool} {tokens : List Token} (h : nextStop inBraces tokens = []) :
    resume inBraces tokens = [] := by
  unfold resume
  rw [h]

/-- After an error a run goes on behind some token, or it stays at the end of the text. -/
theorem resume_cases (inBraces : Bool) (tokens : List Token) :
    tokens ≠ [] ∧ resume inBraces tokens <:+ tokens.tail ∨
      resume inBraces tokens = tokens ∧
        (tokens = [] ∨ inBraces = true ∧ ∃ token rest, tokens = token :: rest ∧ token.kind = .closeBrace) := by
  have hsuffix : nextStop inBraces tokens <:+ tokens := List.dropWhile_suffix _
  cases hstop : nextStop inBraces tokens with
  | nil =>
      rw [resume_eq_nil hstop]
      by_cases htokens : tokens = []
      · exact .inr ⟨htokens.symm, .inl htokens⟩
      · exact .inl ⟨htokens, List.nil_suffix⟩
  | cons token rest =>
      rw [hstop] at hsuffix
      have hne : tokens ≠ [] := by
        rintro rfl
        exact absurd (List.suffix_nil.mp hsuffix) (by simp)
      have hrest : rest <:+ tokens.tail := by
        obtain ⟨passed, rfl⟩ := hsuffix
        cases passed with
        | nil => exact List.suffix_rfl
        | cons first passed => exact ⟨passed ++ [token], by simp⟩
      unfold resume
      rw [hstop]
      dsimp only
      split
      · exact .inl ⟨hne, hrest⟩
      · exact .inl ⟨hne, (skipBlock_suffix 0 rest).trans hrest⟩
      · rename_i hsemicolon hbrace
        have hkind : inBraces = true ∧ token.kind = .closeBrace := by
          have hhead := List.head?_dropWhile_not (fun token => !isStop inBraces token) tokens
          rw [show tokens.dropWhile _ = token :: rest from hstop] at hhead
          simp only [isStop, List.head?_cons] at hhead
          simp_all
        obtain ⟨passed, rfl⟩ := hsuffix
        cases passed with
        | nil => exact .inr ⟨rfl, .inr ⟨hkind.1, token, rest, rfl, hkind.2⟩⟩
        | cons first passed => exact .inl ⟨hne, ⟨passed, rfl⟩⟩

theorem Broken.abandon (h : L.Broken n s t) : L.Abandoned n s t :=
  ⟨h.1, h.2.imp_right .inl⟩

theorem Abandoned.closed {kind : NodeKind} {after other : Session} (hphase : p ≠ .covered)
    (h : L.Related p n s t) (hadvance : Advance L.left (s.opened kind) after)
    (hafter : L.Abandoned (L.inside n s) after other) :
    L.Broken n (s.closed after) (t.closed other) := by
  refine ⟨hafter.1, ?_⟩
  rcases hafter.2 with hcovered | hastray | hrewound
  · have hclosed := L.closed hphase h.1 h.2 hadvance hcovered
    left
    cases p <;> exact hclosed
  · exact .inr (L.astray_closed hphase h.1 h.2 hadvance hafter.1 hastray)
  · exact .inr (L.rewound_closed hphase h.1 h.2 hadvance hafter.1 hrewound)

theorem Broken.resume [L.Resumes] (inBraces : Bool) (h : L.Broken n s t) :
    L.Related .settled n (s.at (resume inBraces s.ahead)) (t.at (resume inBraces t.ahead)) ∨
      L.Related .covered n (s.at (resume inBraces s.ahead)) (t.at (resume inBraces t.ahead)) ∧
        endsText inBraces (L.left.head (s.at (resume inBraces s.ahead))) = true := by
  have hpairs := resume_pairs inBraces h.1
  rcases h.2 with hcovered | hastray
  case inr => exact .inl ⟨hpairs, Resumes.astray_resume inBraces h.1 hastray⟩
  rcases resume_cases inBraces s.ahead with ⟨hne, hsuffix⟩ | ⟨hsame, hends⟩
  · exact .inl ⟨hpairs, L.behind h.1 hcovered hne hsuffix hpairs⟩
  · refine .inr ⟨⟨hpairs, L.onward h.1 hcovered (resume_suffix inBraces _) hpairs⟩, ?_⟩
    have hhead : L.left.head (s.at (Grammar.resume inBraces s.ahead)) = L.left.head s := by
      rw [hsame]
      rfl
    rw [hhead]
    unfold endsText Setting.head
    rcases hends with hnil | ⟨rfl, token, rest, hahead, hkind⟩
    · rw [hnil]
      have hended : L.left.finish.kind = .endOfSource := L.ended
      simp [hended, TokenKind.isEnd]
    · rw [hahead]
      simp [hkind]

/-- Two scans of the tokens ahead succeed together. -/
theorem isSome_congr {α β : Type} {values : α → β → Prop} {scan : Scan α} {scan' : Scan β}
    (hscan : L.Scans values scan scan') (h : L.pairs s.ahead t.ahead) :
    ((scan' L.right).run t.ahead).isSome = ((scan L.left).run s.ahead).isSome := by
  have hseen := hscan _ _ h
  generalize (scan L.left).run s.ahead = seen at hseen
  generalize (scan' L.right).run t.ahead = seen' at hseen
  cases hseen <;> rfl

variable (L)

/-- The comparison of two runs in lockstep.  A frame is a node, and whether it is abandoned: no
session is related in an abandoned node. -/
def comparison : Comparison where
  left := L.left
  right := L.right
  Frame := L.Frame × Bool
  relate p n s t := n.2 = false ∧ L.Related p n.1 s t
  broken n s t := L.Broken n.1 s t ∨ n.2 = true ∧ L.Abandoned n.1 s t
  inside n s := (L.inside n.1 s, false)
  deeper := id
  abandoned n := (n.1, true)
  lost := L.lost
  alike := Token.Alike
  places n tokens others := L.within n.1 tokens ∧ L.pairs tokens others
  begins := L.begins
  lenient := True
  passes kind := kind ≠ .endOfSource
  options_eq := L.options_eq
  application_eq := L.application_eq
  ended := L.ended
  alike_kind h := h.kind
  alike_text h := h.text
  lost_reported := L.lost_reported
  lenient_or := .inl trivial
  loosen h := ⟨h.1, h.2.1, L.loosen h.2.2⟩
  loosest h := ⟨h.1, h.2.1, L.loosest h.2.2⟩
  broken_of_covered h := .inl ⟨h.2.1, .inl h.2.2⟩
  abandon := by
    rintro n s t (hbroken | ⟨-, habandoned⟩)
    · exact .inr ⟨rfl, hbroken.abandon⟩
    · exact .inr ⟨rfl, habandoned⟩
  abandoned_deeper _ := rfl
  head h := L.head h.2.1
  solid := by
    intro p n s t h hhead
    exact solid h.2.1 (ahead_ne_nil hhead)
  second h _ := L.head (L.tails h.2.1)
  place h := ⟨L.within_ahead h.2.2, h.2.1⟩
  place_deeper h := h
  begins_ahead h := L.begins_ahead h.2.2
  begins_wider := L.begins_wider
  pass imprint h hkind := .inr ⟨h.1, h.2.pass imprint (ahead_ne_nil hkind)⟩
  note imprint h _ hkind :=
    ⟨h.1, h.2.1, L.note imprint h.2.1 h.2.2 (hkind.imp_left ahead_ne_nil)⟩
  label h := ⟨h.1, h.2.1, L.label h.2.1 h.2.2⟩
  greater := by
    intro n s t tokens h hgreater
    have hrel := L.greater h.2.1
    rw [hgreater] at hrel
    generalize hright : L.right.afterGreater? t.ahead = behind at hrel
    cases hrel with
    | some hpairs =>
        exact ⟨_, rfl, .inr ⟨h.1, hpairs, L.shorten h.2.1 h.2.2 hgreater hpairs⟩⟩
  noGreater := by
    intro n s t h hgreater
    have hrel := L.greater h.2.1
    rw [hgreater] at hrel
    generalize L.right.afterGreater? t.ahead = behind at hrel
    cases hrel
    rfl
  opened kind h := ⟨rfl, h.2.1, L.opened kind h.2.1 h.2.2⟩
  closed hphase h hadvance hafter :=
    ⟨h.1, hafter.2.1, L.closed hphase h.2.1 h.2.2 hadvance hafter.2.2⟩
  abandoned_closed := by
    rintro p n s t kind after other hphase h hadvance (hbroken | ⟨-, habandoned⟩)
    · exact .inl (Abandoned.closed hphase h.2 hadvance hbroken.abandon)
    · exact .inl (Abandoned.closed hphase h.2 hadvance habandoned)
  report message message' _ h htext _ :=
    ⟨h.1, h.2.1, L.report .error message message' (by simp) htext h.2.1 h.2.2⟩
  fuel h := Nat.le_of_eq (L.bytes h.2.1).symm
  shorter h hpasses := ((L.reads h.2.1).1.orderly).byteCount_lt hpasses

end Lockstep

end ScriptSyntax.Grammar
