import ScriptSyntax.Proofs.Comparison

/-!
# Types side by side

A type passes names, type words and the marks that belong to types, and it asks two scans.
-/

namespace ScriptSyntax

/-- The kinds that stand in types, except the operators that close template lists. -/
def TokenKind.isTypePart : TokenKind → Bool
  | identifier | less | comma | scope | question | openBracket | closeBracket | handle | ampersand
  | plus => true
  | keyword word => word.isPrimitiveType || word = .const || word = .auto || word = .in_ ||
      word = .out || word = .inout
  | _ => false

namespace Grammar

theorem TypeForms.isTypePart_of_allows {forms : TypeForms} {token : Token}
    (h : forms.allows token = true) : token.kind.isTypePart = true := by
  unfold TypeForms.allows Token.isTypeName at h
  generalize token.kind = kind at h
  cases kind with
  | keyword word =>
      simp only [TokenKind.isIdentifier, TokenKind.isPrimitiveType] at h
      simp only [TokenKind.isTypePart]
      by_cases hword : word = .auto
      · simp [hword]
      · simp_all
  | punctuation mark =>
      simp [TokenKind.isIdentifier, TokenKind.isPrimitiveType] at h
      rw [h.2]
      rfl
  | identifier => rfl
  | _ => simp [TokenKind.isIdentifier, TokenKind.isPrimitiveType] at h

theorem TypeForms.allows_congr (forms : TypeForms) {token other : Token}
    (h : other.kind = token.kind) : forms.allows other = forms.allows token := by
  unfold TypeForms.allows Token.isTypeName
  rw [h]

namespace Comparison

section

set_option synthInstance.maxSize 2000

variable {α β : Type} {S : Comparison} {n m : S.Frame} {p : Phase} {s t : Session}

/-- The scan succeeds from both of two sessions that agree or from none. -/
def SeesAlike (S : Comparison) (scan : Scan Unit) : Prop :=
  ∀ {n s t}, S.agree n s t →
    ((scan S.right).run t.ahead).isSome = ((scan S.left).run s.ahead).isSome

/-- What reading types asks of a comparison. -/
class ReadsTypes (S : Comparison) : Prop where
  passes : ∀ {kind}, kind.isTypePart = true → S.passes kind
  sees_scope : ∀ room, S.SeesAlike (scopeAhead room)
  sees_templateScope : ∀ room, S.SeesAlike (templateScopeAhead room)
  /-- The mark behind a template instance that is used as a scope. -/
  scopeMark : ∀ {n s t named listed} (room : Nat), S.agree n s t →
    ((templateScopeAhead room S.left).run s.ahead).isSome = true →
    Parse.identifier S.left s = (.ok (), named) →
    Parse.templateArguments (Parse.dataType room {}) S.left named = (.ok (), listed) →
    S.passes (S.left.head listed).kind

open Parse

theorem ifSeen_ends {post : α → β → Session → Session → Prop} {scan : Scan Unit}
    {yes no : Parse α} {yes' no' : Parse β}
    (hscan : ((scan S.right).run t.ahead).isSome = ((scan S.left).run s.ahead).isSome)
    (hyes : ((scan S.left).run s.ahead).isSome = true →
      S.Ends n post (yes S.left s) (yes' S.right t))
    (hno : ((scan S.left).run s.ahead).isSome = false →
      S.Ends n post (no S.left s) (no' S.right t)) :
    S.Ends n post ((do if ← sees scan then yes else no) S.left s)
      ((do if ← sees scan then yes' else no') S.right t) := by
  rw [sees_bind, sees_bind, hscan]
  cases hsees : ((scan S.left).run s.ahead).isSome with
  | true => exact hyes hsees
  | false => exact hno hsees

theorem ifSees_ends {post : α → β → Session → Session → Prop} {scan : Scan Unit}
    {yes no : Parse α} {yes' no' : Parse β} (hscan : S.SeesAlike scan) (h : S.agree n s t)
    (hyes : ((scan S.left).run s.ahead).isSome = true →
      S.Ends n post (yes S.left s) (yes' S.right t))
    (hno : ((scan S.left).run s.ahead).isSome = false →
      S.Ends n post (no S.left s) (no' S.right t)) :
    S.Ends n post ((do if ← sees scan then yes else no) S.left s)
      ((do if ← sees scan then yes' else no') S.right t) :=
  ifSeen_ends (hscan h) hyes hno

variable [S.ReadsTypes]

theorem reads_identifier : S.Keeps identifier :=
  identifier_keeps (ReadsTypes.passes rfl)

theorem typeName_keeps (forms : TypeForms) : S.Keeps (typeName forms) := by
  apply Keeps.node
  constructor
  intro n s t h
  rw [peek_bind, peek_bind, forms.allows_congr (head_kind h), head_kind h]
  by_cases hallows : forms.allows (S.left.head s) = true
  · simp only [hallows, ↓reduceIte]
    exact anchorNext_ends h (ReadsTypes.passes (forms.isTypePart_of_allows hallows))
  · simp only [hallows, Bool.false_eq_true, ↓reduceIte]
    split
    · exact fail_ends h _ _ rfl (by simp)
    · exact failExpected_ends h _ (by simp)

theorem templateArguments_keeps {argument : Parse Unit} [Advances argument]
    (hargument : S.Keeps argument) : S.Keeps (templateArguments argument) := by
  constructor
  intro n s t h
  refine .bind (require_ends h (ReadsTypes.passes rfl)) ?_
  intro _ _ opened opened' hopened
  refine (commaSeparated_keeps hargument (ReadsTypes.passes rfl)).bind hopened ?_
  intro after after' hafter
  rw [read_bind, read_bind, ahead_bind, ahead_bind]
  cases hgreater : S.left.afterGreater? after.ahead with
  | none =>
      rw [S.noGreater hafter hgreater]
      exact failExpected_ends hafter _ (by simp [Message.expectedKind])
  | some tokens =>
      obtain ⟨others, hothers, hshortened⟩ := S.greater hafter hgreater
      rw [hothers]
      rcases hshortened with hlost | hagree
      · exact .lost hlost
      · exact .ok hagree

theorem scopeOver_keeps (room : Nat) (hargument : S.Keeps (dataType room {})) :
    S.Keeps (scopeOver room (dataType room {})) := by
  constructor
  intro n s t h
  apply ifSees_ends (ReadsTypes.sees_scope room) h
  · intro hsees
    refine (Keeps.node _ ⟨?_⟩).ends h
    intro n s t h
    refine (markIf_keeps (ReadsTypes.passes rfl)).bind h ?_
    intro marked marked' hmarked
    refine .bind (Q := fun _ _ => S.agree n) (repeat_ends ?_ hmarked) ?_
    · intro s t h
      rw [peek_bind, peek_bind, peekSecond_bind, peekSecond_bind, head_kind h]
      by_cases hname : (S.left.head s).kind.isIdentifier = true
      · have hkind : (S.left.head s).kind = .identifier := by
          simpa [TokenKind.isIdentifier] using hname
        rw [S.alike_kind (S.second h (hkind ▸ ReadsTypes.passes rfl))]
        by_cases hscope : (S.left.second s).kind = .scope
        · simp only [hname, hscope, decide_true, Bool.and_self, ↓reduceIte]
          refine .bind (reads_identifier.ends h).recall ?_
          rintro _ _ named named' ⟨hnamed, hrun⟩
          have hhead : (S.left.head named).kind = .scope := by
            rw [Setting.head_of_tail (identifier_ok hrun).2]
            exact hscope
          refine .bind (leaf_ends hnamed (hhead ▸ ReadsTypes.passes rfl)) ?_
          intro _ _ last last' hlast
          exact .ok ⟨rfl, hlast⟩
        · simp only [hscope, decide_false, Bool.and_false, Bool.false_eq_true, ↓reduceIte]
          exact .ok ⟨rfl, h⟩
      · simp only [hname, Bool.false_and, Bool.false_eq_true, ↓reduceIte]
        exact .ok ⟨rfl, h⟩
    intro _ _ named named' hnamed
    apply ifSees_ends (ReadsTypes.sees_templateScope room) hnamed
    · intro htemplate
      refine .bind (reads_identifier.ends hnamed).recall ?_
      rintro _ _ last last' ⟨hlast, hname⟩
      refine .bind ((templateArguments_keeps hargument).ends hlast).recall ?_
      rintro _ _ listed listed' ⟨hlisted, hlist⟩
      exact leaf_ends hlisted (ReadsTypes.scopeMark room hnamed htemplate hname hlist)
    · intro hplain
      exact .ok hnamed
  · intro hsees
    exact .ok h

theorem typeSuffixes_keeps : S.Keeps typeSuffixes := by
  constructor
  intro n s t h
  refine repeat_ends ?_ h
  intro s t h
  rw [peek_bind, peek_bind, head_kind h]
  generalize hkind : (S.left.head s).kind = kind
  split
  · refine .bind (leaf_ends h (ReadsTypes.passes (by rw [hkind]; rfl))) ?_
    intro _ _ marked marked' hmarked
    refine .bind (coverRequired_ends hmarked (ReadsTypes.passes rfl)) ?_
    intro _ _ closed closed' hclosed
    exact .ok ⟨rfl, hclosed⟩
  · refine .bind (leaf_ends h (ReadsTypes.passes (by rw [hkind]; rfl))) ?_
    intro _ _ marked marked' hmarked
    refine (markIf_keeps (ReadsTypes.passes rfl)).bind hmarked ?_
    intro closed closed' hclosed
    exact .ok ⟨rfl, hclosed⟩
  · exact .ok ⟨rfl, h⟩

theorem typeBody_from (room : Nat) (forms : TypeForms) (hargument : S.Keeps (dataType room {}))
    (hphase : p ≠ .covered) (h : S.relate p n s t) :
    S.Ends n (fun _ _ => S.relate (p.closing .settled) n)
      (typeBody room (dataType room {}) forms S.left s)
      (typeBody room (dataType room {}) forms S.right t) := by
  refine Keeps.nodeFrom ⟨?_⟩ hphase h
  intro n s t h
  apply (markIf_keeps (ReadsTypes.passes rfl)).optional h
  intro after after' hagree
  refine (scopeOver_keeps room hargument).bind hagree ?_
  intro behind behind' hbehind
  rw [peek_bind, peek_bind]
  refine (typeName_keeps forms).bind hbehind ?_
  intro named named' hnamed
  rw [read_bind, read_bind, nextIs_bind, nextIs_bind, head_kind hnamed]
  have htemplate : S.right.isTemplateName (S.right.head behind') =
      S.left.isTemplateName (S.left.head behind) := by
    unfold Setting.isTemplateName
    rw [S.options_eq, head_kind hbehind, head_text hbehind]
  rw [htemplate]
  exact (templateArguments_keeps hargument).optional hnamed fun hlisted =>
    typeSuffixes_keeps.ends hlisted

theorem dataType_keeps (room : Nat) (forms : TypeForms) : S.Keeps (dataType room forms) := by
  induction room generalizing forms with
  | zero => exact tooDeep_keeps _
  | succ room ih => exact ⟨typeBody_from room forms (ih {}) (by simp)⟩

theorem dataType_from (room : Nat) (forms : TypeForms) (hphase : p ≠ .covered)
    (h : S.relate p n s t) :
    S.Ends n (fun _ _ => S.relate (p.closing .settled) n) (dataType room forms S.left s)
      (dataType room forms S.right t) := by
  cases room with
  | zero => exact tooDeep_from _ hphase h
  | succ room => exact typeBody_from room forms (dataType_keeps room {}) hphase h

theorem scope_keeps (room : Nat) : S.Keeps (scope room) :=
  scopeOver_keeps room (dataType_keeps room {})

theorem typeModifier_keeps (ofParameter : Bool) : S.Keeps (typeModifier ofParameter) := by
  apply Keeps.node
  constructor
  intro n s t h
  have hrest {s t : Session} (h : S.agree n s t) :
      S.Ends n (fun _ _ => S.agree n)
        ((do
          markIf .plus
          if (← peek).isWord .ifHandleThenConst then mark) S.left s)
        ((do
          markIf .plus
          if (← peek).isWord .ifHandleThenConst then mark) S.right t) := by
    refine (markIf_keeps (ReadsTypes.passes rfl)).bind h ?_
    intro marked marked' hmarked
    rw [peek_bind, peek_bind, isWord_congr (S.head hmarked)]
    by_cases hword : (S.left.head marked).isWord .ifHandleThenConst = true
    · simp only [hword, ↓reduceIte]
      exact leaf_ends hmarked (kind_of_isWord hword ▸ ReadsTypes.passes rfl)
    · simp only [hword, Bool.false_eq_true, ↓reduceIte]
      exact .ok hmarked
  apply ifNext_ends h
  · intro hhead
    refine .bind (leaf_ends h (hhead ▸ ReadsTypes.passes rfl)) ?_
    intro _ _ marked marked' hmarked
    rw [peek_bind, peek_bind, head_kind hmarked]
    by_cases hdirection : (ofParameter && isDirection (S.left.head marked).kind) = true
    · simp only [hdirection, ↓reduceIte]
      have hkind : (S.left.head marked).kind.isTypePart = true := by
        simp only [isDirection, Bool.and_eq_true, Bool.or_eq_true, decide_eq_true_eq]
          at hdirection
        rcases hdirection with ⟨-, (hkind | hkind) | hkind⟩ <;> rw [hkind] <;> rfl
      refine .bind (leaf_ends hmarked (ReadsTypes.passes hkind)) ?_
      intro _ _ after after' hafter
      exact hrest hafter
    · simp only [hdirection, Bool.false_eq_true, ↓reduceIte]
      exact hrest hmarked
  · intro hhead
    exact hrest h

/-! ## Names with initializers -/

theorem variableNames_ends {post : Session → Session → Prop} {initializer : Parse Unit}
    [Advances initializer] (hinitializer : S.Keeps initializer)
    (hsemicolon : ∀ {s t}, S.agree n s t → (S.left.head s).kind = .semicolon →
      S.Ends n (fun _ _ => post) (cover S.left s) (cover S.right t)) (h : S.agree n s t) :
    S.Ends n (fun _ _ => post) (variableNames initializer S.left s)
      (variableNames initializer S.right t) := by
  have hname : S.Keeps (do identifier; initializer) := by
    constructor
    intro n s t h
    refine reads_identifier.bind h ?_
    intro named named' hnamed
    exact hinitializer.ends hnamed
  refine (commaSeparated_keeps hname (ReadsTypes.passes rfl)).bind h ?_
  intro listed listed' hlisted
  apply ifNext_ends hlisted
  · intro hhead
    exact hsemicolon hlisted hhead
  · intro hhead
    exact failExpected_ends hlisted _ (by simp [Message.expectedEitherKind])

end

end Comparison

end ScriptSyntax.Grammar
