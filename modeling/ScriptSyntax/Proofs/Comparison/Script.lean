import ScriptSyntax.Proofs.Comparison.Declaration

/-!
# Scripts side by side

A script goes on behind a broken declaration.  A namespace covers its opening brace before it reads
its path; as nothing that follows looks at the span of the node, the brace may as well be covered at
the end.
-/

namespace ScriptSyntax

theorem Node.widen_append_comm (node child : Node) (span : Span) :
    (node.widen span).append child = (node.append child).widen span := by
  have happended : { node.widen span with children := (node.widen span).children ++ [child] } =
      ({ node with children := node.children ++ [child] } : Node).widen span := by
    unfold widen
    split <;> rfl
  unfold append
  rw [happended]
  cases child.span with
  | none => rfl
  | some wide => exact widen_comm _ span wide

namespace Grammar

theorem namespaceOpening_scope {name separator : Token} (rest : List Token)
    (hname : name.kind = .identifier) (hscope : separator.kind = .scope) :
    namespaceOpening (name :: separator :: rest) = namespaceOpening rest := by
  unfold namespaceOpening
  rw [skipScopes, if_pos ⟨hname, hscope⟩]

theorem namespaceOpening_other {name separator : Token} (rest : List Token)
    (h : ¬(name.kind = .identifier ∧ separator.kind = .scope)) :
    namespaceOpening (name :: separator :: rest) =
      if name.kind.isIdentifier && separator.kind = .openBrace then separator :: rest else [] := by
  unfold namespaceOpening
  rw [skipScopes, if_neg h]

namespace Parse

variable {α β : Type}

theorem identifier_run {setting : Setting} {session : Session}
    (h : (setting.head session).kind = .identifier) :
    ∃ after, identifier setting session = (.ok (), after) ∧ after.ahead = session.ahead.tail := by
  have hopened : (setting.head (session.opened .identifier)).kind.isIdentifier = true := by
    rw [show setting.head (session.opened .identifier) = setting.head session from rfl, h]
    rfl
  refine ⟨(identifier setting session).2, Prod.ext ?_ rfl, ?_⟩
  · unfold identifier
    rw [Comparison.node_run, peek_bind]
    simp only [hopened, ↓reduceIte]
    rfl
  · unfold identifier
    rw [Comparison.node_run, peek_bind]
    simp only [hopened, ↓reduceIte]
    rfl

instance (opening : List Token) : Forwards (namespaceClosing opening) := by
  unfold namespaceClosing
  infer_instance

/-- The session whose node covers one more span. -/
def covering (span : Span) (session : Session) : Session :=
  { session with building := session.building.widen span }

/-- A rule that does not look at the span of the node that is being built. -/
class Widens (rule : Parse α) : Prop where
  covering_run : ∀ span setting session, rule setting (covering span session) =
    ((rule setting session).1, covering span (rule setting session).2)

instance (value : α) : Widens (pure value) :=
  ⟨fun _ _ _ => rfl⟩

instance (rule : Parse α) (next : α → Parse β) [hrule : Widens rule]
    [hnext : ∀ value, Widens (next value)] : Widens (rule >>= next) := by
  constructor
  intro span setting session
  rw [bind_run, bind_run, hrule.covering_run]
  rcases rule setting session with ⟨_ | value, after⟩
  · rfl
  · exact (hnext value).covering_run span setting after

instance (condition : Prop) [Decidable condition] (first second : Parse α) [Widens first]
    [Widens second] : Widens (if condition then first else second) := by
  split <;> infer_instance

instance (kind : NodeKind) (rule : Parse α) : Widens (node kind rule) := by
  constructor
  intro span setting session
  rw [Comparison.node_run, Comparison.node_run]
  refine Prod.ext rfl ?_
  exact congrArg (Session.mk _ _) (Node.widen_append_comm _ _ span)

instance : Widens peek := ⟨fun _ _ _ => rfl⟩

instance (kind : TokenKind) : Widens (nextIs kind) := ⟨fun _ _ _ => rfl⟩

instance : Widens next := ⟨fun _ _ _ => rfl⟩

instance (tokens : List Token) : Widens (goTo tokens) := ⟨fun _ _ _ => rfl⟩

instance (severity : Severity) (message : Message) (token : Token) :
    Widens (diagnose severity message token) := ⟨fun _ _ _ => rfl⟩

instance : Widens (interrupt : Parse α) := ⟨fun _ _ _ => rfl⟩

instance (span : Span) : Widens (widen span) := by
  constructor
  intro wider setting session
  refine Prod.ext rfl ?_
  exact congrArg (Session.mk _ _) (Node.widen_comm _ wider span)

instance : Widens cover := by
  unfold cover
  infer_instance

instance (message : Message) : Widens (reportExpected message) := by
  unfold reportExpected
  infer_instance

instance (message : Message) : Widens (failExpected message : Parse α) := by
  unfold failExpected
  infer_instance

instance (kind : TokenKind) : Widens (require kind) := by
  unfold require
  infer_instance

instance (construct : Construct) (start : List Token) :
    Widens (failInside construct start : Parse α) := by
  unfold failInside
  infer_instance

instance : Widens identifier := by
  unfold identifier
  infer_instance

instance (body : Parse Unit) (count : Nat) [Widens body] : Widens (namespacePath body count) := by
  cases count with
  | zero => exact inferInstanceAs (Widens (pure ()))
  | succ count =>
      unfold namespacePath
      infer_instance

instance (room : Nat) (inBraces : Bool) (nested : Parse Unit) :
    Widens (scriptBody room inBraces nested) := by
  unfold scriptBody
  infer_instance

instance (opening : List Token) : Widens (namespaceClosing opening) := by
  unfold namespaceClosing
  infer_instance

section Paths

variable {body : Parse Unit} {setting : Setting} {session named : Session} {count : Nat}

theorem namespacePath_scope (hname : identifier setting session = (.ok (), named))
    (hnext : (setting.head named).kind = .scope) :
    (namespacePath body (count + 1) setting session).2.ahead =
      (namespacePath body count setting
        (((setting.passed .span named).opened .script).opened .namespace_)).2.ahead := by
  rw [namespacePath, bind_run, hname]
  dsimp only
  rw [nextIs_bind]
  simp only [hnext, decide_true, ↓reduceIte]
  rfl

theorem namespacePath_brace (hname : identifier setting session = (.ok (), named))
    (hnext : (setting.head named).kind = .openBrace) :
    namespacePath body (count + 1) setting session =
      body setting { named with ahead := named.ahead.tail } := by
  have hrequire : require .openBrace setting named =
      (.ok (setting.head named), { named with ahead := named.ahead.tail }) := by
    unfold require
    rw [nextIs_bind]
    simp only [hnext, decide_true, ↓reduceIte]
    rfl
  have hscope : (setting.head named).kind ≠ .scope := by simp [hnext]
  rw [namespacePath, bind_run, hname]
  dsimp only
  rw [nextIs_bind]
  simp only [hscope, decide_false, Bool.false_eq_true, ↓reduceIte]
  rw [bind_run, hrequire]

/-- A path runs past the brace behind it. -/
theorem namespacePath_leads [Advances body] {brace : Token} {rest : List Token}
    (hopening : namespaceOpening session.ahead = brace :: rest)
    (hcount : session.ahead.length < count) :
    setting.Leads rest (namespacePath body count setting session).2.ahead := by
  induction count generalizing session with
  | zero => exact absurd hcount (Nat.not_lt_zero _)
  | succ count ih =>
      match hahead : session.ahead with
      | [] =>
          rw [hahead] at hopening
          cases hopening
      | [_] =>
          rw [hahead] at hopening
          cases hopening
      | name :: separator :: more =>
          have hfirst (hkind : name.kind = .identifier) : (setting.head session).kind = .identifier := by
            rw [Setting.head_cons hahead]
            exact hkind
          have hsecond {named : Session} (htail : named.ahead = session.ahead.tail) :
              setting.head named = separator ∧ named.ahead.tail = more := by
            rw [Setting.head_of_tail htail, Setting.second_cons hahead, htail, hahead]
            exact ⟨rfl, rfl⟩
          rw [hahead] at hopening
          rw [hahead, List.length_cons, List.length_cons] at hcount
          by_cases hscope : name.kind = .identifier ∧ separator.kind = .scope
          · obtain ⟨named, hnamed, htail⟩ := identifier_run (hfirst hscope.1)
            obtain ⟨hhead, hmore⟩ := hsecond htail
            rw [namespaceOpening_scope more hscope.1 hscope.2, ← hmore] at hopening
            rw [namespacePath_scope hnamed (hhead ▸ hscope.2)]
            refine ih hopening ?_
            change named.ahead.tail.length < count
            rw [hmore]
            omega
          · rw [namespaceOpening_other more hscope] at hopening
            split at hopening
            · rename_i hbrace
              simp only [Bool.and_eq_true, decide_eq_true_eq, TokenKind.isIdentifier] at hbrace
              cases hopening
              obtain ⟨named, hnamed, htail⟩ := identifier_run (hfirst hbrace.1)
              obtain ⟨hhead, hmore⟩ := hsecond htail
              rw [namespacePath_brace hnamed (hhead ▸ hbrace.2), ← hmore]
              exact (advance body setting { named with ahead := named.ahead.tail }).forward
            · cases hopening

/-- What follows the keyword of a namespace, but for its brace. -/
def behindKeyword (body : Parse Unit) (opening : List Token) (count : Nat) : Parse Unit := do
  namespacePath body count
  namespaceClosing opening

instance (opening : List Token) [Widens body] : Widens (behindKeyword body opening count) := by
  unfold behindKeyword
  infer_instance

/-- What follows the keyword runs past the brace, or ends there with a report. -/
theorem behindKeyword_leads [Advances body] {brace : Token} {rest : List Token}
    (hopening : namespaceOpening session.ahead = brace :: rest)
    (hcount : session.ahead.length < count) :
    setting.Leads (brace :: rest) (behindKeyword body (brace :: rest) count setting session).2.ahead ∧
      ∀ value, (behindKeyword body (brace :: rest) count setting session).1 = .ok value →
        setting.Passes (brace :: rest)
          (behindKeyword body (brace :: rest) count setting session).2.ahead := by
  have hpath := @namespacePath_leads body setting _ _ _ _ _ hopening hcount
  have hbrace : setting.Step (brace :: rest) rest := .inl ⟨brace, rfl⟩
  have hreturns : Returns (brace :: rest) (namespaceClosing (brace :: rest)) := by
    unfold namespaceClosing
    infer_instance
  have hforwards : Forwards (namespaceClosing (brace :: rest)) := inferInstance
  unfold behindKeyword
  rw [bind_run]
  generalize namespacePath body count setting session = result at hpath
  obtain ⟨_ | value, middle⟩ := result
  · refine ⟨.head hbrace hpath, ?_⟩
    intro value herror
    cases herror
  · refine ⟨(hreturns.proceeds setting middle (.head hbrace hpath)).advance.forward, ?_⟩
    intro value hok
    have hclosing := hforwards.leads setting middle value _ (Prod.ext hok rfl)
    exact .head' hbrace (hpath.trans hclosing)

end Paths

end Parse

namespace ScriptComparison

open Parse Comparison

section

set_option synthInstance.maxSize 2000

set_option linter.unusedSectionVars false

variable {α β : Type} {S : ScriptComparison} {n m : S.Frame} {p : Phase} {s t : Session}

theorem node_finishes {inBraces : Bool} {rule : Parse α} {rule' : Parse β} [Advances rule]
    {kind : NodeKind} (h : S.agree n s t)
    (hrule : S.agree (S.inside n s) (s.opened kind) (t.opened kind) →
      S.Finishes (S.inside n s) (fun _ _ => S.rested inBraces (S.inside n s))
        (rule S.left (s.opened kind)) (rule' S.right (t.opened kind))) :
    S.Finishes n (fun _ _ => S.rested inBraces n) (node kind rule S.left s)
      (node kind rule' S.right t) := by
  rcases hrule (S.opened kind h) with ⟨hstrict, ⟨value, hvalue⟩, hnil⟩ | hends
  · exact .inl ⟨hstrict, ⟨value, hvalue⟩, hnil⟩
  · refine .inr (node_ends (by simp) h (fun _ => hends) ?_)
    intro _ _ after after' hadvance hrested
    rcases hrested with hdone | ⟨hcovered, htext⟩
    · exact .inl (S.done_closed h hadvance hdone)
    · exact .inr ⟨S.closed (by simp) h hadvance hcovered, htext⟩

/-! ## Declarations of a script -/

variable [S.Resumes]

/-- The sessions behind the modifiers of a declaration. -/
theorem behindModifiers (h : S.agree n s t) :
    S.lost s ∨ S.agree n
      { s with ahead := s.ahead.dropWhile (·.hasRole .declarationModifier) }
      { t with ahead := t.ahead.dropWhile (·.hasRole .declarationModifier) } := by
  obtain ⟨ahead, diagnostics, building⟩ := s
  obtain ⟨ahead', diagnostics', building'⟩ := t
  dsimp only
  induction ahead generalizing ahead' with
  | nil =>
      obtain rfl : ahead' = [] := (S.empty_iff h).mpr rfl
      exact .inr h
  | cons token rest ih =>
      obtain ⟨other, others, rfl⟩ : ∃ other others, ahead' = other :: others := by
        cases ahead' with
        | nil => exact absurd ((S.empty_iff h).mp rfl) (by simp)
        | cons other others => exact ⟨other, others, rfl⟩
      have halike : S.alike token other := S.head h
      rw [List.dropWhile_cons, List.dropWhile_cons, hasRole_congr halike]
      by_cases hrole : token.hasRole .declarationModifier = true
      · rw [if_pos hrole, if_pos hrole]
        have hkind : S.passes token.kind := kind_of_hasRole hrole ▸ plain rfl
        -- passing a token reports nothing
        have hback {tokens : List Token} (hlost : S.lost ⟨tokens, diagnostics, building⟩) :
            S.lost ⟨token :: rest, diagnostics, building⟩ := by
          have hsame : diagnostics.reported <+: diagnostics.reported := List.prefix_rfl
          exact S.lost_reported hsame hlost
        rcases S.pass .none h hkind with hlost | hagree
        · exact .inl (hback hlost)
        · exact (ih others hagree).imp hback id
      · rw [if_neg hrole, if_neg hrole]
        exact .inr h

theorem scriptItem_ends (room : Nat) {nested : Parse Unit} [Advances nested]
    (hnested : ∀ {n s t}, S.agree n s t →
      S.Ends n (fun _ _ => S.done n) (nested S.left s) (nested S.right t))
    {behind behind' : List Token} (h : S.agree n s t)
    (hbehind : S.agree n { s with ahead := behind } { t with ahead := behind' })
    (hsuffix : behind <:+ s.ahead) :
    S.Ends n (fun _ _ => S.done n) (scriptItem room nested behind S.left s)
      (scriptItem room nested behind' S.right t) := by
  have hkind : (behind'.headD S.right.finish).kind = (behind.headD S.left.finish).kind :=
    head_kind hbehind
  unfold scriptItem
  rw [read_bind, read_bind, hkind]
  generalize hfirst : (behind.headD S.left.finish).kind = first
  split
  · exact importDeclaration_ends room h
  · exact enumDeclaration_ends h
  · exact typedefDeclaration_ends h
  · exact classDeclaration_ends room h
  · exact mixinDeclaration_ends room h
  · exact interfaceDeclaration_ends room h
  · exact funcdefDeclaration_ends room h
  · exact hnested h
  · exact globalMember_ends room h
  · exact globalMember_ends room h
  · exact globalMember_ends room h
  · refine skip_done h (S.there h ?_)
    intro hnil
    rw [hnil, List.suffix_nil] at hsuffix
    rw [hsuffix, List.headD_nil, S.ended] at hfirst
    cases hfirst
  · have htype : (behind'.headD S.right.finish).isTypeName =
        (behind.headD S.left.finish).isTypeName := by
      unfold Token.isTypeName
      rw [hkind]
    rw [htype]
    split
    · exact globalMember_ends room h
    · rw [goTo_bind, goTo_bind]
      refine fail_ends hbehind _ _ rfl ?_
      split <;> simp [Message.unexpectedKind]

theorem scriptStep_run (room : Nat) (inBraces : Bool) (nested : Parse Unit) (setting : Setting)
    (session : Session) :
    scriptStep room inBraces nested setting session =
      if endsText inBraces ((session.ahead.dropWhile
          (·.hasRole .declarationModifier)).headD setting.finish) then (.ok false, session)
      else (do
        recovering inBraces (scriptItem room nested
          (session.ahead.dropWhile (·.hasRole .declarationModifier)))
        return true : Parse Bool) setting session := by
  unfold scriptStep
  rw [ahead_bind, read_bind]
  unfold endsText
  split <;> rfl

/-- What ends a text is no modifier. -/
theorem dropWhile_of_endsText {setting : Setting} {inBraces : Bool}
    (h : endsText inBraces (setting.head s) = true) :
    s.ahead.dropWhile (·.hasRole .declarationModifier) = s.ahead := by
  cases hahead : s.ahead with
  | nil => rfl
  | cons token rest =>
      rw [Setting.head_cons hahead] at h
      refine List.dropWhile_cons_of_neg ?_
      intro hrole
      rw [endsText, kind_of_hasRole hrole] at h
      simp [TokenKind.isEnd] at h

theorem scriptStep_still {setting : Setting} {inBraces : Bool} (room : Nat) (nested : Parse Unit)
    (h : endsText inBraces (setting.head s) = true) :
    scriptStep room inBraces nested setting s = (.ok false, s) := by
  rw [scriptStep_run, dropWhile_of_endsText h]
  exact if_pos h

theorem scriptStep_ends (room : Nat) (inBraces : Bool) {nested : Parse Unit}
    [Advances nested] (hnested : ∀ {n s t}, S.agree n s t →
      S.Ends n (fun _ _ => S.done n) (nested S.left s) (nested S.right t)) (h : S.agree n s t) :
    S.Ends n
      (fun again again' => Round (S.rested inBraces n) (S.rested inBraces n) again again')
      (scriptStep room inBraces nested S.left s) (scriptStep room inBraces nested S.right t) := by
  rcases behindModifiers h with hlost | hbehind
  · have hadvance := advance (scriptStep room inBraces nested) S.left s
    exact .of_lost (S.lost_reported hadvance.reported hlost)
  have hfirst : endsText inBraces ((t.ahead.dropWhile
        (·.hasRole .declarationModifier)).headD S.right.finish) =
      endsText inBraces ((s.ahead.dropWhile
        (·.hasRole .declarationModifier)).headD S.left.finish) :=
    endsText_congr (head_kind hbehind)
  rw [scriptStep_run, scriptStep_run, hfirst]
  split
  · exact .ok ⟨rfl, .inl (S.done_of_agree h)⟩
  · have hitem := scriptItem_ends room hnested h hbehind (List.dropWhile_suffix _)
    refine .bind (recovering_ends h hitem) ?_
    intro _ _ after after' hafter
    exact .ok ⟨rfl, hafter⟩

theorem scriptStep_finishes (room : Nat) (inBraces : Bool) {nested : Parse Unit}
    [Advances nested] (hnested : ∀ {n s t}, S.agree n s t →
      S.Ends n (fun _ _ => S.done n) (nested S.left s) (nested S.right t))
    (h : S.rested inBraces n s t) :
    S.Finishes n
      (fun again again' => Round (S.rested inBraces n) (S.rested inBraces n) again again')
      (scriptStep room inBraces nested S.left s) (scriptStep room inBraces nested S.right t) := by
  rcases h with hdone | ⟨hcovered, hends⟩
  · rcases done_cases hdone with hagree | ⟨hstrict, hnil⟩
    · exact .inr (scriptStep_ends room inBraces hnested hagree)
    · left
      have hends : endsText inBraces (S.left.head s) = true := by
        rw [endsText, head_of_nil (S := S) hnil]
        rfl
      rw [scriptStep_still room nested hends]
      exact ⟨hstrict, ⟨false, rfl⟩, hnil⟩
  · right
    have hends' : endsText inBraces (S.right.head t) = true := by
      rw [endsText_congr (head_kind hcovered), hends]
    rw [scriptStep_still room nested hends, scriptStep_still room nested hends']
    exact .ok ⟨rfl, .inr ⟨hcovered, hends⟩⟩

/-! ## Namespaces -/

theorem scriptBody_finishes (room : Nat) (inBraces : Bool) {nested : Parse Unit}
    [Advances nested] [Consumes nested] (hnested : ∀ {n s t}, S.agree n s t →
      S.Ends n (fun _ _ => S.done n) (nested S.left s) (nested S.right t)) (h : S.agree n s t) :
    S.Finishes n (fun _ _ => S.rested inBraces n) (scriptBody room inBraces nested S.left s)
      (scriptBody room inBraces nested S.right t) := by
  refine node_finishes h fun hopened => ?_
  exact repeatRule_finishes (scriptStep_finishes room inBraces hnested) rested_related
    (.inl (S.done_of_agree hopened))

/-- A path and the body behind it, with enough rounds for all its names. -/
theorem namespacePath_finishes {body : Parse Unit} [Advances body]
    (hbody : ∀ {n s t}, S.agree n s t →
      S.Finishes n (fun _ _ => S.rested true n) (body S.left s) (body S.right t))
    (count count' : Nat) (h : S.agree n s t) (hcount : s.ahead.length < count)
    (hcount' : t.ahead.length < count') :
    S.Finishes n (fun _ _ => S.rested true n) (namespacePath body count S.left s)
      (namespacePath body count' S.right t) := by
  induction count generalizing n s t count' with
  | zero => exact absurd hcount (Nat.not_lt_zero _)
  | succ count ih =>
      obtain ⟨fewer, rfl⟩ : ∃ fewer, count' = fewer + 1 := ⟨count' - 1, by omega⟩
      unfold namespacePath
      have hname : S.Finishes n (fun _ _ after after' => S.agree n after after' ∧
          after.ahead.length < count ∧ after'.ahead.length < fewer)
          (identifier S.left s) (identifier S.right t) := by
        refine .inr ((reads_identifier.ends h).recall.recallRight.mono ?_)
        rintro _ _ after after' ⟨⟨hagree, hrun⟩, hrun'⟩
        have hshorter {setting : Setting} {session last : Session} {value : Unit} {count : Nat}
            (hne : session.ahead ≠ []) (hrun : identifier setting session = (.ok value, last))
            (hcount : session.ahead.length < count + 1) : last.ahead.length < count := by
          rw [(identifier_ok hrun).2, List.length_tail]
          have hpos := List.length_pos_iff.mpr hne
          omega
        have hne : s.ahead ≠ [] := by
          intro hnil
          have hkind := (identifier_ok hrun).1
          rw [head_of_nil hnil] at hkind
          cases hkind
        have hne' : t.ahead ≠ [] := fun hnil => hne ((S.empty_iff h).mp hnil)
        exact ⟨hagree, hshorter hne hrun hcount, hshorter hne' hrun' hcount'⟩
      refine hname.bind ?_
      rintro _ _ named named' ⟨hnamed, hless, hless'⟩
      rw [nextIs_bind, nextIs_bind, head_kind hnamed]
      by_cases hscope : (S.left.head named).kind = .scope
      · simp only [hscope, decide_true, ↓reduceIte]
        refine Finishes.bind (.inr (cover_ends hnamed (hscope ▸ plain rfl)).recall.recallRight) ?_
        rintro _ _ covered covered' ⟨⟨hcovered, hrun⟩, hrun'⟩
        refine node_finishes hcovered fun houter => node_finishes houter fun hinner => ?_
        refine ih fewer hinner ?_ ?_
        · cases hrun
          exact Nat.lt_of_le_of_lt (List.tail_suffix _).length_le hless
        · cases hrun'
          exact Nat.lt_of_le_of_lt (List.tail_suffix _).length_le hless'
      · simp only [hscope, decide_false, Bool.false_eq_true, ↓reduceIte]
        refine Finishes.bind (.inr (require_ends hnamed
          (S.inner (by simp) (by simp) (by simp)))) ?_
        intro _ _ opened opened' hopened
        exact hbody hopened

theorem namespaceClosing_lost {opening : List Token} (hstrict : ¬S.lenient)
    (hhead : (S.left.head s).kind ≠ .closeBrace) :
    S.lost (namespaceClosing opening S.left s).2 := by
  refine lost_of_expected hstrict ?_
  unfold namespaceClosing
  rw [nextIs_bind]
  simp only [hhead, decide_false, Bool.false_eq_true, ↓reduceIte]
  rw [peek_bind]
  split <;> rfl

theorem namespaceClosing_ends {opening opening' : List Token} (hplaces : S.places n opening opening')
    (hheads : S.Heads s opening) (h : S.rested true n s t) :
    S.Ends (S.abandoned n) (fun _ _ => S.done n) (namespaceClosing opening S.left s)
      (namespaceClosing opening' S.right t) := by
  have hclosing {p : Phase} (h : S.relate p n s t) :
      S.Ends (S.abandoned n) (fun _ _ => S.done n) (namespaceClosing opening S.left s)
        (namespaceClosing opening' S.right t) := by
    by_cases hhead : (S.left.head s).kind = .closeBrace
    · apply ifNext_ends h
      · intro hhead
        exact (cover_done h (by simp [hhead])).abandon
      · intro hne
        exact absurd hhead hne
    by_cases hlenient : S.lenient
    · apply ifNext_ends h
      · intro heq
        exact absurd heq hhead
      · intro hne
        rw [peek_bind, peek_bind, head_kind h]
        split
        · rename_i hend
          have hkind : (S.left.head s).kind = .endOfSource := by simpa [TokenKind.isEnd] using hend
          exact failInside_ends .namespaceBody hplaces hheads
            (S.report .unexpectedEndOfFile .unexpectedEndOfFile hlenient h rfl fun _ => hkind)
            (S.left.blamed_reports _ _)
        · rw [reportExpected_bind, reportExpected_bind]
          exact failInside_ends .namespaceBody hplaces hheads
            (expected_related hlenient h _ (by simp [Message.expectedKind]))
            (S.left.blamed_reports _ _)
    · exact .of_lost (namespaceClosing_lost hlenient hhead)
  rcases h with hdone | ⟨hcovered, -⟩
  · rcases done_cases hdone with hagree | ⟨hstrict, hnil⟩
    · exact hclosing hagree
    · refine .of_lost (namespaceClosing_lost hstrict ?_)
      rw [head_of_nil (S := S) hnil]
      simp
  · exact hclosing hcovered

theorem namespaceKeyword_ends (h : S.agree n s t) :
    S.Ends n (fun _ _ => S.agree n) (namespaceKeyword S.left s) (namespaceKeyword S.right t) := by
  by_cases hstrict : ¬S.lenient ∧ (S.left.head s).kind ≠ .keyword .namespace_
  · refine .of_lost (lost_of_expected hstrict.1 ?_)
    unfold namespaceKeyword
    rw [nextIs_bind]
    simp only [hstrict.2, decide_false, Bool.false_eq_true, ↓reduceIte]
    rw [reportExpected_bind, bind_run]
    split <;> rfl
  apply ifNext_ends h
  · intro hhead
    exact cover_ends h (hhead ▸ passes_keyword _)
  · intro hhead
    have hlenient : S.lenient := Classical.not_not.mp fun hnot => hstrict ⟨hnot, hhead⟩
    rw [reportExpected_bind, reportExpected_bind, bind_run, bind_run]
    have hends := reads_identifier.ends (expected_related hlenient h
      (.expectedKind (.keyword .namespace_)) (by simp [Message.expectedKind]))
    generalize identifier S.left _ = result at hends ⊢
    generalize identifier S.right _ = other at hends ⊢
    cases hends with
    | @lost result _ after _ hlost =>
        apply Ends.of_lost
        cases result <;> exact hlost
    | ok hagree => exact .error hlenient (S.broken_of_covered (S.loosest hagree))
    | error _ hbroken => exact .error hlenient hbroken

/-- The keyword is the first token of its node. -/
theorem span_isSome_of_namespaceKeyword {value : Unit} {after : Session} (h : S.agree n s t)
    (hrun : namespaceKeyword S.left s = (.ok value, after)) : after.building.span.isSome := by
  unfold namespaceKeyword at hrun
  rw [nextIs_bind] at hrun
  by_cases hhead : (S.left.head s).kind = .keyword .namespace_
  · simp only [hhead, decide_true, ↓reduceIte] at hrun
    exact span_isSome_of_cover h (by simp [hhead]) hrun (.refl S.left after)
  · simp only [hhead, decide_false, Bool.false_eq_true, ↓reduceIte] at hrun
    rw [reportExpected_bind, bind_run] at hrun
    split at hrun <;> cases hrun

/-- Both nodes cover one more brace that has been passed. -/
theorem ends_covering {s₀ t₀ : Session} {brace brace' : Token}
    {rest rest' : List Token} {result : Except Interruption α × Session}
    {other : Except Interruption β × Session} (h₀ : S.agree n s₀ t₀)
    (hopening : namespaceOpening s₀.ahead = brace :: rest)
    (hopening' : namespaceOpening t₀.ahead = brace' :: rest')
    (hleads : S.left.Leads (brace :: rest) result.2.ahead)
    (hpasses : ∀ value, result.1 = .ok value → S.left.Passes (brace :: rest) result.2.ahead)
    (h : S.Ends (S.abandoned n) (fun _ _ => S.done n) result other) :
    S.Ends (S.abandoned n) (fun _ _ => S.done n) (result.1, covering brace.span result.2)
      (other.1, covering brace'.span other.2) := by
  cases h with
  | @lost result _ after _ hlost =>
      have hsame : after.diagnostics.reported <+:
          (covering brace.span after).diagnostics.reported := List.prefix_rfl
      exact .of_lost (S.lost_reported hsame hlost)
  | ok hdone => exact .ok (S.back h₀ hopening hopening' (hpasses _ rfl) hdone)
  | error hlenient hbroken =>
      exact .error hlenient (S.backBroken h₀ hopening hopening' hleads hbroken)

theorem behindKeyword_ends {body : Parse Unit} [Advances body]
    (hbody : ∀ {n s t}, S.agree n s t →
      S.Finishes n (fun _ _ => S.rested true n) (body S.left s) (body S.right t))
    {opening opening' : List Token} (hplaces : S.places n opening opening')
    (hheads : S.Heads s opening) (hspan : s.building.span.isSome) (h : S.agree n s t) :
    S.Ends (S.abandoned n) (fun _ _ => S.done n)
      (behindKeyword body opening (s.ahead.length + 1) S.left s)
      (behindKeyword body opening' (t.ahead.length + 1) S.right t) := by
  have hpath := namespacePath_finishes hbody _ _ h (Nat.lt_succ_self _) (Nat.lt_succ_self _)
  refine hpath.recall.abandon.then ?_ ?_
  · intro _ after hstrict hnil
    refine namespaceClosing_lost hstrict ?_
    rw [head_of_nil (S := S) hnil]
    simp
  · rintro _ _ after after' ⟨hrested, hrun⟩
    have hgrows := (advance_of_run hrun).building
    exact namespaceClosing_ends hplaces (hheads.grows hspan hgrows) hrested

theorem namespaceBody_ends {body : Parse Unit} [Advances body] [Widens body]
    (hbody : ∀ {n s t}, S.agree n s t →
      S.Finishes n (fun _ _ => S.rested true n) (body S.left s) (body S.right t))
    (h : S.agree n s t) :
    S.Ends n (fun _ _ => S.done n) (namespaceBody body S.left s)
      (namespaceBody body S.right t) := by
  refine node_doneLeaving h fun hopened => ?_
  refine .bind (namespaceKeyword_ends hopened).recall.abandon ?_
  rintro _ _ named named' ⟨hnamed, hrun⟩
  obtain ⟨hplaces, hheads, hempty⟩ := S.opening hnamed
  rw [ahead_bind, ahead_bind]
  have hrest := behindKeyword_ends hbody hplaces hheads
    (span_isSome_of_namespaceKeyword hopened hrun) hnamed
  cases hopening : namespaceOpening named.ahead with
  | nil =>
      rw [hempty.mpr hopening]
      rw [hempty.mpr hopening, hopening] at hrest
      exact hrest
  | cons brace rest =>
      obtain ⟨brace', rest', hopening'⟩ : ∃ brace' rest',
          namespaceOpening named'.ahead = brace' :: rest' := by
        cases hopening' : namespaceOpening named'.ahead with
        | nil => exact absurd (hempty.mp hopening') (by simp [hopening])
        | cons brace' rest' => exact ⟨brace', rest', rfl⟩
      obtain ⟨hleads, hpasses⟩ :=
        @behindKeyword_leads body S.left _ _ _ _ _ hopening (Nat.lt_succ_self _)
      rw [hopening, hopening'] at hrest
      have hcovering := ends_covering hnamed hopening hopening' hleads hpasses hrest
      rw [hopening']
      have hrun (setting : Setting) (session : Session) (brace : Token) (opening : List Token) :
          (do
            widen brace.span
            namespacePath body ((← ahead).length + 1)
            namespaceClosing opening : Parse Unit) setting session =
            ((behindKeyword body opening (session.ahead.length + 1) setting session).1,
              covering brace.span
                (behindKeyword body opening (session.ahead.length + 1) setting session).2) :=
        (inferInstance : Widens (behindKeyword body opening
          (session.ahead.length + 1))).covering_run brace.span setting session
      change S.Ends (S.abandoned _) _ ((widen brace.span >>= fun _ => do
          namespacePath body ((← ahead).length + 1)
          namespaceClosing (brace :: rest)) S.left named)
        ((widen brace'.span >>= fun _ => do
          namespacePath body ((← ahead).length + 1)
          namespaceClosing (brace' :: rest')) S.right named')
      rw [hrun, hrun]
      exact hcovering

theorem namespaceDeclaration_ends (room : Nat) (h : S.agree n s t) :
    S.Ends n (fun _ _ => S.done n) (namespaceDeclaration room S.left s)
      (namespaceDeclaration room S.right t) := by
  induction room generalizing n s t with
  | zero => exact ((tooDeep_keeps _).ends h).mono fun _ _ _ _ => S.done_of_agree
  | succ room ih => exact namespaceBody_ends (scriptBody_finishes room true ih) h

/-- A whole script. -/
theorem script_finishes (room : Nat) (h : S.agree n s t) :
    S.Finishes n (fun _ _ => S.rested false n) (script room S.left s) (script room S.right t) :=
  scriptBody_finishes room false (namespaceDeclaration_ends room) h

end

end ScriptComparison

end Grammar

end ScriptSyntax
