import ScriptSyntax.Proofs.Comparison.Type

/-!
# Captured text side by side

Text is captured token by token: what is open decides, with the kind of the next token, whether it
is taken.  A comparison of declarations passes every token.  Where it gives up on the left run as
soon as an error is reported there, it may also be that the left tokens run out where the right ones
go on; two sessions are done with a construct if that is all they differ in.
-/

namespace ScriptSyntax

namespace Node

theorem widen_comm (node : Node) (first second : Span) :
    (node.widen first).widen second = (node.widen second).widen first := by
  unfold widen
  by_cases hfirst : first = .nowhere
  · simp only [hfirst, ↓reduceIte]
  · by_cases hsecond : second = .nowhere
    · simp only [hsecond, ↓reduceIte]
    · simp only [hfirst, hsecond, ↓reduceIte]
      cases node.span with
      | none => simp only [Option.elim_none, Option.elim_some, Span.hull_comm first second]
      | some span =>
          simp only [Option.elim_some, Span.hull_assoc, Span.hull_comm first second]

end Node

namespace Grammar

namespace Capture

/-- What the next token is to text that is captured. -/
inductive Step (σ : Type)
  /-- The text ends before the token. -/
  | complete
  /-- The token may not stand there. -/
  | fault (message : Message)
  /-- The text ends with the token. -/
  | last
  | more (state : σ)

variable {σ : Type}

/-- Text captured step by step. -/
def walk (step : σ → TokenKind → Step σ) : σ → List Token → Capture
  | _, [] => stop .endOfSource []
  | state, token :: rest =>
      match step state token.kind with
      | .complete => stop .complete (token :: rest)
      | .fault message => stop (.fault message) (token :: rest)
      | .last => (stop .complete rest).take token
      | .more state => (walk step state rest).take token

def argumentStep (opened : List Bracket) (kind : TokenKind) : Step (List Bracket) :=
  match kind, opened with
  | .openParen, opened => .more (.paren :: opened)
  | .openBrace, opened => .more (.brace :: opened)
  | .closeParen, .paren :: outer => .more outer
  | .closeParen, [] => .complete
  | .closeParen, .brace :: _ => .fault (.unexpectedKind .closeParen)
  | .closeBrace, .brace :: outer => .more outer
  | .closeBrace, _ => .fault (.unexpectedKind .closeBrace)
  | .comma, [] => .complete
  | .semicolon, _ => .fault (.unexpectedKind .semicolon)
  | .unterminatedString, _ => .fault .unterminatedString
  | _, opened => .more opened

/-- A token of an initializer that does not end it; the state counts parentheses and braces. -/
def initializerMore (state : Int × Int) (kind : TokenKind) : Step (Int × Int) :=
  match kind with
  | .openParen => .more (state.1 + 1, state.2)
  | .closeParen => .more (state.1 - 1, state.2)
  | .openBrace => .more (state.1, state.2 + 1)
  | .closeBrace => .more (state.1, state.2 - 1)
  | .unterminatedString => .fault .unterminatedString
  | _ => .more state

def initializerStep (state : Int × Int) (kind : TokenKind) : Step (Int × Int) :=
  if state.1 = 0 ∧ state.2 = 0 ∧ endsInitializer kind then .complete
  else initializerMore state kind

def groupStep (opening closing : TokenKind) (level : Nat) (kind : TokenKind) : Step Nat :=
  if kind = opening then .more (level + 1)
  else if kind = closing then
    match level with
    | 0 => .last
    | level + 1 => .more level
  else if kind = .unterminatedString then .fault .unterminatedString
  else .more level

theorem argument_eq_walk (opened : List Bracket) (tokens : List Token) :
    argument opened tokens = walk argumentStep opened tokens := by
  fun_induction argument opened tokens <;> simp_all [walk, argumentStep]

theorem initializer_eq_walk (parens braces : Int) (tokens : List Token) :
    initializer parens braces tokens = walk initializerStep (parens, braces) tokens := by
  fun_induction initializer parens braces tokens with
  | case1 => rfl
  | case2 parens braces token rest h => rw [walk, initializerStep, if_pos h]
  | _ =>
      rw [walk, initializerStep, if_neg (by assumption)]
      simp only [initializerMore, *]

theorem group_eq_walk (opening closing : TokenKind) (level : Nat) (tokens : List Token) :
    group opening closing level tokens = walk (groupStep opening closing) level tokens := by
  fun_induction group opening closing level tokens <;> simp_all [walk, groupStep]

theorem argumentStep_fault {opened : List Bracket} {kind : TokenKind} {message : Message}
    (h : argumentStep opened kind = .fault message) : message ≠ .unexpectedEndOfFile := by
  unfold argumentStep at h
  split at h <;> cases h <;> simp [Message.unexpectedKind]

theorem argumentStep_ne_last (opened : List Bracket) (kind : TokenKind) :
    argumentStep opened kind ≠ .last := by
  unfold argumentStep
  split <;> simp

theorem initializerStep_fault {state : Int × Int} {kind : TokenKind} {message : Message}
    (h : initializerStep state kind = .fault message) : message ≠ .unexpectedEndOfFile := by
  unfold initializerStep initializerMore at h
  split at h
  · cases h
  · split at h <;> cases h
    simp

theorem initializerStep_ne_last (state : Int × Int) (kind : TokenKind) :
    initializerStep state kind ≠ .last := by
  unfold initializerStep initializerMore
  split
  · simp
  · split <;> simp

theorem groupStep_fault {opening closing : TokenKind} {level : Nat} {kind : TokenKind}
    {message : Message} (h : groupStep opening closing level kind = .fault message) :
    message ≠ .unexpectedEndOfFile := by
  unfold groupStep at h
  split at h
  · cases h
  · split at h
    · split at h <;> cases h
    · split at h <;> cases h
      simp

theorem groupStep_last {opening closing : TokenKind} {level : Nat} {kind : TokenKind}
    (h : groupStep opening closing level kind = .last) : kind = closing := by
  unfold groupStep at h
  split at h
  · cases h
  · split at h
    · assumption
    · split at h <;> cases h

end Capture

/-! ## What declarations ask of a comparison -/

/-- The token ends the declarations of a script, or of a body in braces. -/
def endsText (inBraces : Bool) (token : Token) : Bool :=
  token.kind.isEnd || inBraces && token.kind = .closeBrace

/-- What was reported last is an error, and it stands at the next token. -/
def Setting.Blamed (setting : Setting) (session : Session) : Prop :=
  ∃ front report, session.diagnostics.reported = front ++ [report] ∧ report.severity = .error ∧
    report.span = (setting.head session).span

theorem Setting.reported_reports (setting : Setting) (severity : Severity) (message : Message)
    (session : Session) :
    ∃ report, (setting.reports severity message session).diagnostics.reported =
        session.diagnostics.reported ++ [report] ∧
      report.severity = severity ∧ report.span = (setting.head session).span :=
  ⟨_, rfl, rfl, rfl⟩

theorem Setting.blamed_reports (setting : Setting) (message : Message) (session : Session) :
    setting.Blamed (setting.reports .error message session) := by
  obtain ⟨report, hreported, hseverity, hspan⟩ := setting.reported_reports .error message session
  exact ⟨_, report, hreported, hseverity, hspan⟩

/-- A comparison for declarations.  All their tokens are passed in one frame. -/
structure ScriptComparison extends Comparison where
  /-- The two sessions agree, unless the left one has come to the end of its tokens. -/
  done : Frame → Session → Session → Prop
  types : toComparison.ReadsTypes
  inner : ∀ {kind : TokenKind}, kind ≠ .semicolon → kind ≠ .closeBrace → kind ≠ .endOfSource →
    passes kind
  done_of_agree : ∀ {n s t}, relate .settled n s t → done n s t
  agree_of_done : ∀ {n s t}, done n s t → lenient ∨ s.ahead ≠ [] → relate .settled n s t
  there : ∀ {p n s t}, relate p n s t → s.ahead ≠ [] → (left.head s).kind ≠ .endOfSource
  empty_iff : ∀ {p n s t}, relate p n s t → (t.ahead = [] ↔ s.ahead = [])
  finish : ∀ {p n s t} (imprint : Imprint), relate p n s t → (left.head s).kind ≠ .endOfSource →
    lost (left.passed imprint s) ∨ done n (left.passed imprint s) (right.passed imprint t)
  done_closed : ∀ {n s t kind after other}, relate .settled n s t →
    Advance left (s.opened kind) after → done (inside n s) after other →
    done n (s.closed after) (t.closed other)
  rewind : ∀ {n s t tokens others} (construct : Construct), lenient → places n tokens others →
    toComparison.Heads s tokens → relate .covered n s t → left.Blamed s →
    lost (left.reports .info (.whileParsing construct) { s with ahead := tokens }) ∨
      broken (abandoned n) (left.reports .info (.whileParsing construct) { s with ahead := tokens })
        (right.reports .info (.whileParsing construct) { t with ahead := others })
  sees_property : ∀ room, toComparison.SeesAlike (propertyAhead room)
  /-- A member of a class is told in the same way, or the left one is broken. -/
  sees_member : ∀ {n s t} (room : Nat), relate .settled n s t →
    lost (Parse.classMember room left s).2 ∨
      ((methodAhead room right).run t.ahead).isSome = ((methodAhead room left).run s.ahead).isSome ∧
        ((variableAhead room right).run t.ahead).isSome =
          ((variableAhead room left).run s.ahead).isSome
  /-- A global declaration is told in the same way, or the left one is broken. -/
  sees_global : ∀ {n s t} (room : Nat), relate .settled n s t →
    lost (Parse.globalMember room left s).2 ∨
      ((variableAhead room right).run t.ahead).isSome =
        ((variableAhead room left).run s.ahead).isSome
  opening : ∀ {n s t}, relate .settled n s t →
    places n (namespaceOpening s.ahead) (namespaceOpening t.ahead) ∧
      toComparison.Heads s (namespaceOpening s.ahead) ∧
      (namespaceOpening t.ahead = [] ↔ namespaceOpening s.ahead = [])
  /-- A node may be widened over a brace of it that is passed. -/
  back : ∀ {n s t s₀ t₀ brace rest brace' rest'}, relate .settled n s₀ t₀ →
    namespaceOpening s₀.ahead = brace :: rest → namespaceOpening t₀.ahead = brace' :: rest' →
    left.Passes (brace :: rest) s.ahead → done n s t →
    done n { s with building := s.building.widen brace.span }
      { t with building := t.building.widen brace'.span }
  backBroken : ∀ {n s t s₀ t₀ brace rest brace' rest'}, relate .settled n s₀ t₀ →
    namespaceOpening s₀.ahead = brace :: rest → namespaceOpening t₀.ahead = brace' :: rest' →
    left.Leads (brace :: rest) s.ahead → broken (abandoned n) s t →
    broken (abandoned n) { s with building := s.building.widen brace.span }
      { t with building := t.building.widen brace'.span }

/-- Behind an error the two runs go on in sessions that agree again, in a frame that they have not
abandoned. -/
class ScriptComparison.Resumes (S : ScriptComparison) : Prop where
  resumed : ∀ {p n s t s₀ t₀} (inBraces : Bool), S.lenient → S.relate p n s₀ t₀ → S.broken n s t →
    S.relate .settled n { s with ahead := resume inBraces s.ahead }
        { t with ahead := resume inBraces t.ahead } ∨
      S.relate .covered n { s with ahead := resume inBraces s.ahead }
          { t with ahead := resume inBraces t.ahead } ∧
        endsText inBraces (S.left.head { s with ahead := resume inBraces s.ahead }) = true

namespace ScriptComparison

open Parse Comparison

section

set_option linter.unusedSectionVars false

variable {α β : Type} {S : ScriptComparison} {n m : S.Frame} {p : Phase} {s t : Session}

instance : S.ReadsTypes := S.types

theorem plain {kind : TokenKind} (h : kind.isTypePart = true) : S.passes kind :=
  S.types.passes h

/-- Where the left tokens have run out. -/
theorem done_cases (h : S.done n s t) : S.agree n s t ∨ ¬S.lenient ∧ s.ahead = [] := by
  by_cases hgoes : S.lenient ∨ s.ahead ≠ []
  · exact .inl (S.agree_of_done h hgoes)
  · exact .inr ⟨fun hlenient => hgoes (.inl hlenient),
      Decidable.of_not_not fun hne => hgoes (.inr hne)⟩

theorem finish_ends {value : α} {value' : β} (imprint : Imprint) (h : S.relate p n s t)
    (hhead : (S.left.head s).kind ≠ .endOfSource) :
    S.Ends n (fun _ _ => S.done n) (.ok value, S.left.passed imprint s)
      (.ok value', S.right.passed imprint t) := by
  rcases S.finish imprint h hhead with hlost | hdone
  · exact .lost hlost
  · exact .ok hdone

theorem skip_done (h : S.relate p n s t) (hhead : (S.left.head s).kind ≠ .endOfSource) :
    S.Ends n (fun _ _ => S.done n) (skip S.left s) (skip S.right t) :=
  finish_ends .none h hhead

theorem cover_done (h : S.relate p n s t) (hhead : (S.left.head s).kind ≠ .endOfSource) :
    S.Ends n (fun _ _ => S.done n) (cover S.left s) (cover S.right t) :=
  finish_ends .span h hhead

theorem coverRequired_done {kind : TokenKind} (h : S.relate p n s t) (hkind : kind ≠ .endOfSource) :
    S.Ends n (fun _ _ => S.done n) (coverRequired kind S.left s) (coverRequired kind S.right t) := by
  rw [coverRequired_eq]
  apply ifNext_ends h
  · intro hhead
    exact cover_done h (hhead ▸ hkind)
  · intro hhead
    exact failExpected_ends h _ (by simp [Message.expectedKind])

theorem node_doneLeaving {rule : Parse α} {rule' : Parse β} [Advances rule] {kind : NodeKind}
    (h : S.agree n s t)
    (hrule : S.agree (S.inside n s) (s.opened kind) (t.opened kind) →
      S.Ends (S.abandoned (S.inside n s)) (fun _ _ => S.done (S.inside n s))
        (rule S.left (s.opened kind)) (rule' S.right (t.opened kind))) :
    S.Ends n (fun _ _ => S.done n) (node kind rule S.left s) (node kind rule' S.right t) := by
  refine node_leaves (by simp) h hrule ?_
  intro _ _ after after' hadvance hdone
  exact S.done_closed h hadvance hdone

theorem node_done {rule : Parse α} {rule' : Parse β} [Advances rule] {kind : NodeKind}
    (h : S.agree n s t)
    (hrule : S.agree (S.inside n s) (s.opened kind) (t.opened kind) →
      S.Ends (S.inside n s) (fun _ _ => S.done (S.inside n s)) (rule S.left (s.opened kind))
        (rule' S.right (t.opened kind))) :
    S.Ends n (fun _ _ => S.done n) (node kind rule S.left s) (node kind rule' S.right t) :=
  node_doneLeaving h fun hopened => (hrule hopened).abandon

theorem leaf_done {kind : NodeKind} (h : S.agree n s t)
    (hhead : (S.left.head s).kind ≠ .endOfSource) :
    S.Ends n (fun _ _ => S.done n) (leaf kind S.left s) (leaf kind S.right t) :=
  node_done h fun hopened => finish_ends .anchor hopened hhead

/-! ## The ends of constructs -/

theorem failInside_ends {post : α → β → Session → Session → Prop} {tokens others : List Token}
    (construct : Construct) (hplaces : S.places n tokens others) (hheads : S.Heads s tokens)
    (h : S.relate p n s t) (hblamed : S.left.Blamed s) :
    S.Ends (S.abandoned n) post ((failInside construct tokens : Parse α) S.left s)
      ((failInside construct others : Parse β) S.right t) := by
  by_cases hlenient : S.lenient
  · rcases S.rewind construct hlenient hplaces hheads (S.loosest h) hblamed with hlost | hbroken
    · exact .lost hlost
    · exact .error hlenient hbroken
  · have hforwards : Forwards (failInside construct tokens : Parse α) := inferInstance
    exact .of_faults hlenient (hforwards.faulty S.left s .syntaxError _ rfl)

theorem failAtEnd_ends {post : α → β → Session → Session → Prop} {tokens others : List Token}
    (construct : Construct) (hplaces : S.places n tokens others) (hheads : S.Heads s tokens)
    (h : S.relate p n s t) (hend : (S.left.head s).kind = .endOfSource) :
    S.Ends (S.abandoned n) post ((failAtEnd construct tokens : Parse α) S.left s)
      ((failAtEnd construct others : Parse β) S.right t) := by
  by_cases hlenient : S.lenient
  · have hreported := S.report .unexpectedEndOfFile .unexpectedEndOfFile hlenient h rfl fun _ => hend
    exact failInside_ends construct hplaces hheads hreported (S.left.blamed_reports _ _)
  · have hforwards : Forwards (failAtEnd construct tokens : Parse α) := inferInstance
    exact .of_faults hlenient (hforwards.faulty S.left s .syntaxError _ rfl)

/-! ## Captured text -/

/-- Cover what was captured; the token at which an incomplete capture ends may be covered too. -/
def captureOver (reaching : Bool) (construct : Construct) (start : List Token) (text : Capture) :
    Parse Unit := do
  if reaching && text.ending ≠ .complete then widen (text.rest.headD (← read).finish).span
  capture construct start text

theorem captureOver_incomplete {reaching : Bool} {construct : Construct} {start : List Token}
    {text : Capture} {setting : Setting} {session : Session} (h : text.ending ≠ .complete) :
    captureOver reaching construct start text setting session =
      capture construct start text setting { session with
        building := if reaching then session.building.widen (text.rest.headD setting.finish).span
          else session.building } := by
  unfold captureOver
  cases reaching with
  | false => rfl
  | true =>
      simp only [h, ne_eq, not_false_eq_true, decide_true, Bool.and_self, ↓reduceIte]
      rfl

theorem captureOver_complete {reaching : Bool} {construct : Construct} {start : List Token}
    {text : Capture} (h : text.ending = .complete) :
    captureOver reaching construct start text = capture construct start text := by
  unfold captureOver
  simp only [h, ne_eq, not_true_eq_false, decide_false, Bool.and_false, Bool.false_eq_true,
    ↓reduceIte]

/-- A token that is taken is covered and passed. -/
theorem captureOver_take {reaching : Bool} {construct : Construct} {start : List Token}
    {text : Capture} {token : Token} {setting : Setting} {session : Session}
    (hhead : setting.head session = token) :
    captureOver reaching construct start (text.take token) setting session =
      captureOver reaching construct start text setting (setting.passed .span session) := by
  by_cases hending : text.ending = .complete
  · have htaken : (text.take token).ending = .complete := hending
    rw [captureOver_complete hending, captureOver_complete htaken, capture_run, capture_run]
    subst hhead
    rfl
  · have htaken : (text.take token).ending ≠ .complete := hending
    rw [captureOver_incomplete hending, captureOver_incomplete htaken, capture_run, capture_run]
    subst hhead
    cases reaching with
    | false => rfl
    | true =>
        have hcomm := session.building.widen_comm (text.rest.headD setting.finish).span
          (setting.head session).span
        simp only [captured, Capture.taken_take, List.foldl_cons, Capture.rest_take, ↓reduceIte,
          Setting.passed, Setting.noted, Node.imprinted, hcomm]
        rfl

theorem captureOver_faulty {reaching : Bool} {construct : Construct} {start : List Token}
    {text : Capture} {setting : Setting} {session : Session} (h : text.ending ≠ .complete) :
    session.faults.length <
      (captureOver reaching construct start text setting session).2.faults.length := by
  rw [captureOver_incomplete h]
  generalize (if reaching = true then session.building.widen (text.rest.headD setting.finish).span
    else session.building) = building
  exact capture_faulty h construct start setting { session with building }

theorem capture_reported (construct : Construct) (start : List Token) (text : Capture)
    (setting : Setting) (session : Session) :
    session.diagnostics.reported <+:
      (capture construct start text setting session).2.diagnostics.reported := by
  have hforwards (rule : Parse Unit) [Forwards rule] :
      session.diagnostics.reported <+:
        (rule setting (captured text session)).2.diagnostics.reported :=
    Forwards.reported setting (captured text session)
  rw [capture_run]
  cases text.ending with
  | complete => exact hforwards (pure ())
  | fault message => exact hforwards (fail message)
  | endOfSource => exact hforwards (failAtEnd construct start)

theorem captureOver_reported (reaching : Bool) (construct : Construct) (start : List Token)
    (text : Capture) (setting : Setting) (session : Session) :
    session.diagnostics.reported <+:
      (captureOver reaching construct start text setting session).2.diagnostics.reported := by
  by_cases hending : text.ending = .complete
  · rw [captureOver_complete hending]
    exact capture_reported construct start text setting session
  · rw [captureOver_incomplete hending]
    generalize (if reaching = true then session.building.widen (text.rest.headD setting.finish).span
      else session.building) = building
    exact capture_reported construct start text setting { session with building }

section Walks

variable {σ : Type} {step : σ → TokenKind → Capture.Step σ} {post : Session → Session → Prop}
  {start start' : List Token}

theorem walk_nil (state : σ) : Capture.walk step state [] = Capture.stop .endOfSource [] := rfl

theorem captureOver_ends {reaching : Bool} (construct : Construct)
    (hfault : ∀ {state kind message}, step state kind = .fault message →
      message ≠ .unexpectedEndOfFile)
    (hcomplete : ∀ {s t}, S.agree n s t → post s t)
    (hlast : ∀ {s t state}, S.agree n s t → step state (S.left.head s).kind = .last →
      (S.left.head s).kind ≠ .endOfSource →
      S.lost (S.left.passed .span s) ∨ post (S.left.passed .span s) (S.right.passed .span t))
    (hplaces : S.places n start start') (state : σ) (h : S.agree n s t)
    (hfronts : S.lenient → S.Fronts s start) (hspan : reaching = true → s.building.span.isSome) :
    S.Ends (S.abandoned n) (fun _ _ => post)
      (captureOver reaching construct start (Capture.walk step state s.ahead) S.left s)
      (captureOver reaching construct start' (Capture.walk step state t.ahead) S.right t) := by
  have hreaching {s t : Session} (hlenient : S.lenient) (h : S.agree n s t)
      (hfronts : S.Fronts s start) (hspan : reaching = true → s.building.span.isSome) :
      ∃ p, S.relate p n
          { s with building := if reaching then s.building.widen (S.left.head s).span else s.building }
          { t with building :=
              if reaching then t.building.widen (S.right.head t).span else t.building } ∧
        S.Heads { s with building :=
          if reaching then s.building.widen (S.left.head s).span else s.building } start := by
    cases reaching with
    | false => exact ⟨_, h, hfronts.1⟩
    | true =>
        exact ⟨_, S.note .span h (.inl hlenient) (.inr (hspan rfl)),
          hfronts.1.grows (hspan rfl) (s.building.grows_widen _)⟩
  obtain ⟨ahead, diagnostics, building⟩ := s
  obtain ⟨ahead', diagnostics', building'⟩ := t
  dsimp only
  induction ahead generalizing state diagnostics building ahead' diagnostics' building' with
  | nil =>
      by_cases hlenient : S.lenient
      · obtain rfl : ahead' = [] := (S.empty_iff h).mpr rfl
        rw [walk_nil, captureOver_incomplete (by simp [Capture.stop]),
          captureOver_incomplete (by simp [Capture.stop]), capture_run, capture_run]
        obtain ⟨p, hcovered, hheads⟩ := hreaching hlenient h (hfronts hlenient) hspan
        exact failAtEnd_ends construct hplaces hheads hcovered S.ended
      · exact .of_faults hlenient (captureOver_faulty (by simp [Capture.walk, Capture.stop]))
  | cons token rest ih =>
      have hthere := S.there h (by simp)
      obtain ⟨other, others, rfl⟩ : ∃ other others, ahead' = other :: others := by
        cases ahead' with
        | nil => exact absurd ((S.empty_iff h).mp rfl) (by simp)
        | cons other others => exact ⟨other, others, rfl⟩
      have hkind : other.kind = token.kind := head_kind h
      have hleft : S.left.head ⟨token :: rest, diagnostics, building⟩ = token := rfl
      have hright : S.right.head ⟨other :: others, diagnostics', building'⟩ = other := rfl
      rw [Capture.walk, Capture.walk, hkind]
      cases hstep : step state token.kind with
      | complete =>
          rw [captureOver_complete rfl, captureOver_complete rfl, capture_run, capture_run]
          exact .ok (hcomplete h)
      | fault message =>
          by_cases hlenient : S.lenient
          · rw [captureOver_incomplete (by simp [Capture.stop]),
              captureOver_incomplete (by simp [Capture.stop]), capture_run, capture_run]
            obtain ⟨p, hcovered, -⟩ := hreaching hlenient h (hfronts hlenient) hspan
            exact (fail_ends hcovered _ _ rfl (hfault hstep)).abandon
          · exact .of_faults hlenient (captureOver_faulty (by simp [Capture.stop]))
      | last =>
          dsimp only
          rw [captureOver_take hleft, captureOver_take hright, captureOver_complete rfl,
            captureOver_complete rfl, capture_run, capture_run]
          rcases hlast h hstep hthere with hlost | hpost
          · exact .lost hlost
          · exact .ok hpost
      | more state =>
          dsimp only
          rw [captureOver_take hleft, captureOver_take hright]
          rcases S.finish .span h hthere with hlost | hdone
          · exact .of_lost (S.lost_reported (captureOver_reported _ _ _ _ _ _) hlost)
          · rcases done_cases hdone with hagree | ⟨hstrict, hnil⟩
            · have hwider (hreaching : reaching = true) :=
                (building.grows_widen token.span).isSome (hspan hreaching)
              have hbehind (hlenient : S.lenient) := (hfronts hlenient).passed hlenient h hthere
              exact ih state _ _ hbehind hwider _ _ _ hagree
            · obtain rfl : rest = [] := hnil
              exact .of_faults hstrict (captureOver_faulty (by simp [Capture.walk, Capture.stop]))

end Walks

theorem captureOver_false (construct : Construct) (start : List Token) (text : Capture) :
    captureOver false construct start text = capture construct start text := rfl

/-- Text up to a token that is not part of it. -/
theorem capture_ends {σ : Type} {step : σ → TokenKind → Capture.Step σ} (construct : Construct)
    {start start' : List Token} (hfault : ∀ {state kind message},
      step state kind = .fault message → message ≠ .unexpectedEndOfFile)
    (hlast : ∀ {state kind}, step state kind = .last → S.passes kind)
    (hplaces : S.places n start start') (state : σ) (h : S.agree n s t)
    (hfronts : S.lenient → S.Fronts s start) :
    S.Ends (S.abandoned n) (fun _ _ => S.agree n)
      (capture construct start (Capture.walk step state s.ahead) S.left s)
      (capture construct start' (Capture.walk step state t.ahead) S.right t) := by
  rw [← captureOver_false, ← captureOver_false]
  refine captureOver_ends construct hfault id ?_ hplaces state h hfronts (by simp)
  intro s t state h hstep hhead
  exact S.pass .span h (hlast hstep)

theorem defaultArgument_keeps : S.Keeps defaultArgument := by
  refine ⟨fun h => .nodeLeaving h fun hopened => ?_⟩
  rw [ahead_bind, ahead_bind, Capture.argument_eq_walk, Capture.argument_eq_walk]
  refine capture_ends _ Capture.argumentStep_fault ?_ (S.place hopened) _ hopened
    fun _ => fronts_ahead hopened
  intro opened kind hstep
  exact absurd hstep (Capture.argumentStep_ne_last opened kind)

/-- An initializer is captured where one starts. -/
theorem capturedInitializer_ends (h : S.agree n s t)
    (hhead : (S.left.head s).kind = .assign ∨ (S.left.head s).kind = .openParen) :
    S.Ends n (fun _ _ => S.agree n) (capturedInitializer S.left s)
      (capturedInitializer S.right t) := by
  refine .nodeLeaving h fun hopened => ?_
  rw [peek_bind, peek_bind, widen_bind, widen_bind, head_kind hopened]
  rcases hhead with hassign | hparen
  · have hkind : (S.left.head (s.opened .assignment)).kind = .assign := hassign
    rw [hkind]
    have hpassed : S.Ends (S.inside n s) (fun _ _ => S.agree (S.inside n s))
        (skip S.left (S.left.noted .span (s.opened .assignment)))
        (skip S.right (S.right.noted .span (t.opened .assignment))) :=
      .passed .span hopened (S.inner (by simp [hkind]) (by simp [hkind]) (by simp [hkind]))
    have htext {m : S.Frame} {s t : Session} (h : S.agree m s t) :
        S.Ends (S.abandoned m) (fun _ _ => S.agree m)
          ((do
            let start ← ahead
            capture .expression start (.initializer 0 0 start)) S.left s)
          ((do
            let start ← ahead
            capture .expression start (.initializer 0 0 start)) S.right t) := by
      rw [ahead_bind, ahead_bind, Capture.initializer_eq_walk, Capture.initializer_eq_walk]
      refine capture_ends _ Capture.initializerStep_fault ?_ (S.place h) _ h
        fun _ => fronts_ahead h
      intro state kind hstep
      exact absurd hstep (Capture.initializerStep_ne_last state kind)
    refine .bind hpassed.abandon ?_
    intro _ _ after after' hafter
    rw [peek_bind, peek_bind, head_kind hafter]
    split
    · exact .never (failExpected_ends hafter _ (by simp)).abandon
    · exact htext hafter
  · have hkind : (S.left.head (s.opened .assignment)).kind = .openParen := hparen
    have hplain : S.passes .openParen := S.inner (by simp) (by simp) (by simp)
    have hplaces := S.place hopened
    rw [hkind]
    dsimp only
    rw [ahead_bind, ahead_bind, Capture.group_eq_walk, Capture.group_eq_walk]
    -- what is captured behind the parenthesis is captured from the session that has passed it
    have hbehind (setting : Setting) (session : Session) (start : List Token) (text : Capture) :
        capture .argumentList start text setting (setting.noted .span session) =
          capture .argumentList start text setting (setting.passed .span session) := by
      rw [capture_run, capture_run]
      rfl
    change S.Ends _ _
      (capture .argumentList _ _ S.left (S.left.noted .span (s.opened .assignment)))
      (capture .argumentList _ _ S.right (S.right.noted .span (t.opened .assignment)))
    rw [hbehind, hbehind]
    rcases S.pass .span hopened (hkind ▸ hplain) with hlost | hagree
    · exact .of_lost (S.lost_reported (capture_reported _ _ _ _ _) hlost)
    · refine capture_ends _ Capture.groupStep_fault ?_ hplaces _ hagree fun hlenient =>
        (fronts_ahead hopened).passed hlenient hopened (by simp [hkind])
      intro level kind hstep
      rw [Capture.groupStep_last hstep]
      exact S.inner (by simp) (by simp) (by simp)

/-- The two sessions agree, and the node that is being built has a span. -/
def begun (S : ScriptComparison) (n : S.Frame) (s t : Session) : Prop :=
  S.agree n s t ∧ s.building.span.isSome

theorem coverBrace_ends (h : S.agree n s t) :
    S.Ends n (fun _ _ => S.begun n) (coverRequired .openBrace S.left s)
      (coverRequired .openBrace S.right t) := by
  have hbrace : S.passes .openBrace := S.inner (by simp) (by simp) (by simp)
  refine (coverRequired_ends h hbrace).recall.mono ?_
  rintro _ _ after after' ⟨hagree, hrun⟩
  exact ⟨hagree, isSome_of_coverRequired h (by simp) hrun⟩

theorem capturedBlock_ends (h : S.agree n s t) :
    S.Ends n (fun _ _ => S.done n) (capturedBlock S.left s) (capturedBlock S.right t) := by
  refine node_doneLeaving h fun hopened => ?_
  have hplaces := S.place hopened
  rw [ahead_bind, ahead_bind]
  refine .bind (coverBrace_ends hopened).recall.abandon ?_
  rintro _ _ after after' ⟨⟨hagree, hspan⟩, hrun⟩
  rw [ahead_bind, ahead_bind]
  have hover (setting : Setting) (session : Session) (start : List Token) (text : Capture) :
      (do
        unless text.ending = .complete do widen (text.rest.headD (← read).finish).span
        capture .statementBlock start text : Parse Unit) setting session =
        captureOver true .statementBlock start text setting session := by
    unfold captureOver
    by_cases hending : text.ending = .complete <;> simp [hending]
  rw [hover, hover, Capture.group_eq_walk, Capture.group_eq_walk]
  refine captureOver_ends _ Capture.groupStep_fault S.done_of_agree ?_ hplaces _ hagree
    (fun hlenient => fronts_of_coverRequired hlenient hopened (by simp) hrun) fun _ => hspan
  intro s t level h hstep hhead
  exact S.finish .span h hhead

end

end ScriptComparison

end Grammar

end ScriptSyntax
