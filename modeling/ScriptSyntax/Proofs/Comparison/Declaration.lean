import ScriptSyntax.Proofs.Comparison.Text

/-!
# Declarations side by side

A declaration ends with a semicolon or a closing brace, where the left tokens may run out.  Where
they do so inside of a declaration, the left run reports an error.
-/

namespace ScriptSyntax.Grammar

/-! ## What a scan finds first -/

theorem isTypePart_of_isTypeName {token : Token} (h : token.isTypeName = true) :
    token.kind.isTypePart = true := by
  have hallows : ({} : TypeForms).allows token = true := by simp [TypeForms.allows, h]
  exact TypeForms.isTypePart_of_allows hallows

theorem scopedName_head {setting : Setting} {room count : Nat} {tokens behind : List Token}
    {name : Token} (hname : name.kind.isTypePart = true)
    (h : (scopedName room count setting).run tokens = some (name, behind)) :
    (tokens.headD setting.finish).kind.isTypePart = true := by
  cases count with
  | zero =>
      cases h
      exact hname
  | succ count =>
      unfold scopedName at h
      rw [Scan.next_bind] at h
      generalize tokens.headD setting.finish = first at h ⊢
      cases hidentifier : first.kind.isIdentifier with
      | true => exact isTypePart_of_isTypeName (by simp [Token.isTypeName, hidentifier])
      | false =>
          simp only [hidentifier, Bool.not_false, ↓reduceIte] at h
          cases h
          exact hname

theorem typeAhead_head {setting : Setting} {room : Nat} {tokens : List Token}
    (h : ((typeAhead room setting).run tokens).isSome = true) :
    (tokens.headD setting.finish).kind.isTypePart = true := by
  by_cases hconst : (tokens.headD setting.finish).kind = .const
  · rw [hconst]
    rfl
  by_cases hauto : (tokens.headD setting.finish).kind = .keyword .auto
  · rw [hauto]
    rfl
  by_cases hscope : (tokens.headD setting.finish).kind = .scope
  · rw [hscope]
    rfl
  unfold typeAhead at h
  rw [Scan.bind_run, Scan.skipKind_run, if_neg hconst, Option.bind_some, Scan.peek_bind] at h
  simp only [hauto, ↓reduceIte] at h
  rw [Scan.bind_run, Scan.skipKind_run, if_neg hscope, Option.bind_some, Scan.get_bind,
    Scan.bind_run] at h
  cases hname : (scopedName room (byteCount tokens + 1) setting).run tokens with
  | none =>
      rw [hname] at h
      cases h
  | some seen =>
      obtain ⟨name, behind⟩ := seen
      rw [hname, Option.bind_some] at h
      refine scopedName_head ?_ hname
      by_cases htype : (name.isTypeName || decide (name.kind = .keyword .auto)) = true
      · simp only [Bool.or_eq_true, decide_eq_true_eq] at htype
        rcases htype with htype | htype
        · exact isTypePart_of_isTypeName htype
        · rw [htype]
          rfl
      · simp only [htype, Bool.not_false, ↓reduceIte] at h
        cases h

theorem constructorAhead_head {setting : Setting} {tokens : List Token}
    (h : ((constructorAhead setting).run tokens).isSome = true) :
    (tokens.headD setting.finish).kind = .tilde ∨
      (tokens.headD setting.finish).kind.isTypePart = true := by
  unfold constructorAhead at h
  rw [Scan.next_bind, Scan.peek_bind] at h
  generalize tokens.headD setting.finish = first at h ⊢
  by_cases htilde : first.kind = .tilde
  · exact .inl htilde
  cases hname : first.kind.isIdentifier with
  | true => exact .inr (isTypePart_of_isTypeName (by simp [Token.isTypeName, hname]))
  | false =>
      simp only [htilde, hname, decide_false, Bool.false_and, Bool.or_self, Bool.not_false,
        ↓reduceIte] at h
      cases h

/-- The first token of a constructor, a destructor or a method, behind its access modifier. -/
theorem methodAhead_head {setting : Setting} {room : Nat} {tokens behind : List Token}
    (hbehind : behind = if (tokens.headD setting.finish).isAccessModifier then tokens.tail else tokens)
    (h : ((methodAhead room setting).run tokens).isSome = true) :
    (behind.headD setting.finish).kind = .tilde ∨
      (behind.headD setting.finish).kind.isTypePart = true := by
  unfold methodAhead at h
  rw [Scan.bind_run, Scan.skipIf_run, Option.bind_some] at h
  dsimp only at h
  rw [← hbehind, Scan.bind_run, Scan.passes_run, Option.bind_some] at h
  cases hconstructor : (constructorAhead setting).run behind with
  | some seen =>
      exact constructorAhead_head (by rw [hconstructor]; rfl)
  | none =>
      rw [hconstructor] at h
      simp only [Bool.false_eq_true, ↓reduceIte] at h
      rw [Scan.bind_run] at h
      refine .inr (@typeAhead_head _ room _ ?_)
      cases htype : (typeAhead room setting).run behind with
      | none =>
          rw [htype] at h
          cases h
      | some seen => rfl

namespace Comparison

open Parse

section

set_option synthInstance.maxSize 2000

variable {S : Comparison} [S.ReadsTypes]

theorem names_keeps {test : Token → Bool}
    (htest : ∀ {token other}, S.alike token other → test other = test token) :
    S.Keeps (whileNext test identifier) :=
  whileNext_keeps inferInstance (fun h => htest (S.head h)) fun h _ => reads_identifier.ends h

theorem returnType_keeps (room : Nat) : S.Keeps (returnType room) := by
  constructor
  intro n s t h
  refine (dataType_keeps room {}).bind h ?_
  intro typed typed' htyped
  exact (typeModifier_keeps false).ends htyped

theorem parameter_keeps (room : Nat) (hassign : S.passes .assign)
    (hargument : S.Keeps defaultArgument) : S.Keeps (parameter room) := by
  constructor
  intro n s t h
  have hdefault {m : S.Frame} {s t : Session} (h : S.agree m s t) :
      S.Ends m (fun _ _ => S.agree m)
        ((do
          if ← nextIs .assign then
            skip
            defaultArgument) S.left s)
        ((do
          if ← nextIs .assign then
            skip
            defaultArgument) S.right t) := by
    apply ifNext_ends h
    · intro hhead
      refine .bind (skip_ends h (hhead ▸ hassign)) ?_
      intro _ _ after after' hafter
      exact hargument.ends hafter
    · intro hhead
      exact .ok h
  unfold parameter
  rw [read_bind, read_bind, S.application_eq]
  refine (dataType_keeps room _).bind h ?_
  intro typed typed' htyped
  refine (typeModifier_keeps true).bind htyped ?_
  intro modified modified' hmodified
  rw [peek_bind, peek_bind, head_kind hmodified]
  exact reads_identifier.optional hmodified hdefault

end

end Comparison

namespace ScriptComparison

open Parse Comparison

section

set_option synthInstance.maxSize 2000

set_option linter.unusedSectionVars false

variable {α β : Type} {S : ScriptComparison} {n m : S.Frame} {p : Phase} {s t : Session}

theorem passes_keyword (word : Keyword) : S.passes (.keyword word) :=
  S.inner (by simp) (by simp) (by simp)

/-! ## Signatures -/

theorem methodAttributes_keeps : S.Keeps methodAttributes :=
  names_keeps fun h => hasRole_congr h _

theorem sharedModifiers_keeps : S.Keeps sharedModifiers :=
  names_keeps fun h => by rw [isWord_congr h, isWord_congr h]

theorem parameterList_keeps (room : Nat) : S.Keeps (parameterList room) := by
  apply Keeps.node
  constructor
  intro n s t h
  have hclose : S.passes .closeParen := S.inner (by simp) (by simp) (by simp)
  have hparameter : S.Keeps (parameter room) :=
    parameter_keeps room (S.inner (by simp) (by simp) (by simp)) defaultArgument_keeps
  have hlist {s t : Session} (h : S.agree n s t) :
      S.Ends n (fun _ _ => S.agree n)
        ((do
          commaSeparated (parameter room)
          if ← nextIs .closeParen then cover
          else failExpected (.expectedEitherKind .closeParen .comma)) S.left s)
        ((do
          commaSeparated (parameter room)
          if ← nextIs .closeParen then cover
          else failExpected (.expectedEitherKind .closeParen .comma)) S.right t) := by
    refine (commaSeparated_keeps hparameter (plain rfl)).bind h ?_
    intro listed listed' hlisted
    apply ifNext_ends hlisted
    · intro hhead
      exact cover_ends hlisted (hhead ▸ hclose)
    · intro hhead
      exact failExpected_ends hlisted _ (by simp [Message.expectedEitherKind])
  refine .bind (coverRequired_ends h (S.inner (by simp) (by simp) (by simp))) ?_
  intro _ _ opened opened' hopened
  apply ifNext_ends hopened
  · intro hhead
    exact cover_ends hopened (hhead ▸ hclose)
  · intro hhead
    rw [nextIs_bind, nextIs_bind, peekSecond_bind, peekSecond_bind, head_kind hopened]
    by_cases hvoid : (S.left.head opened).kind = .keyword .void
    · have hsecond := S.second hopened (hvoid ▸ passes_keyword .void)
      rw [S.alike_kind hsecond]
      by_cases hnone : (S.left.second opened).kind = .closeParen
      · simp only [hvoid, hnone, decide_true, Bool.and_self, ↓reduceIte]
        refine .bind (skip_ends hopened (hvoid ▸ passes_keyword .void)).recall ?_
        rintro _ _ skipped skipped' ⟨hskipped, hrun⟩
        have hparen : (S.left.head skipped).kind = .closeParen := by
          cases hrun
          exact hnone
        exact cover_ends hskipped (hparen ▸ hclose)
      · simp only [hnone, decide_false, Bool.and_false, Bool.false_eq_true, ↓reduceIte]
        exact hlist hopened
    · simp only [hvoid, decide_false, Bool.false_and, Bool.false_eq_true, ↓reduceIte]
      exact hlist hopened

theorem signature_keeps (room : Nat) : S.Keeps (signature room) := by
  constructor
  intro n s t h
  refine (returnType_keeps room).bind h ?_
  intro typed typed' htyped
  refine (scope_keeps room).bind htyped ?_
  intro inner inner' hinner
  refine reads_identifier.bind hinner ?_
  intro named named' hnamed
  refine (parameterList_keeps room).bind hnamed ?_
  intro listed listed' hlisted
  refine (markIf_keeps (plain rfl)).bind hlisted ?_
  intro marked marked' hmarked
  exact methodAttributes_keeps.ends hmarked

theorem functionSignature_keeps (room : Nat) : S.Keeps (functionSignature room) :=
  .node _ (signature_keeps room)

/-! ## Variables -/

theorem laterInitializer_keeps : S.Keeps laterInitializer := by
  constructor
  intro n s t h
  unfold laterInitializer
  rw [nextIs_bind, nextIs_bind, nextIs_bind, nextIs_bind, head_kind h]
  by_cases hhead : (S.left.head s).kind = .assign ∨ (S.left.head s).kind = .openParen
  · have htest : (decide ((S.left.head s).kind = .assign) ||
        decide ((S.left.head s).kind = .openParen)) = true := by
      simpa using hhead
    simp only [htest, ↓reduceIte]
    exact capturedInitializer_ends h hhead
  · have htest : (decide ((S.left.head s).kind = .assign) ||
        decide ((S.left.head s).kind = .openParen)) = false := by
      simpa using hhead
    simp only [htest, Bool.false_eq_true, ↓reduceIte]
    exact .ok h

theorem isAccessModifier_congr {token other : Token} (h : S.alike token other) :
    other.isAccessModifier = token.isAccessModifier := by
  unfold Token.isAccessModifier
  rw [S.alike_kind h]

theorem accessModifier_keeps : S.Keeps accessModifier := by
  constructor
  intro n s t h
  unfold accessModifier
  rw [peek_bind, peek_bind, isAccessModifier_congr (S.head h)]
  by_cases hmodifier : (S.left.head s).isAccessModifier = true
  · simp only [hmodifier, ↓reduceIte]
    simp only [Token.isAccessModifier, Bool.or_eq_true, decide_eq_true_eq] at hmodifier
    refine leaf_ends h ?_
    rcases hmodifier with hkind | hkind <;> exact hkind ▸ passes_keyword _
  · simp only [hmodifier, Bool.false_eq_true, ↓reduceIte]
    exact .ok h

theorem laterNames_ends (h : S.agree n s t) :
    S.Ends n (fun _ _ => S.done n) (variableNames laterInitializer S.left s)
      (variableNames laterInitializer S.right t) :=
  variableNames_ends laterInitializer_keeps
    (fun h hhead => cover_done h (by simp [hhead])) h

theorem globalVariable_ends (room : Nat) (h : S.agree n s t) :
    S.Ends n (fun _ _ => S.done n) (globalVariable room S.left s)
      (globalVariable room S.right t) := by
  refine node_done h fun hopened => ?_
  refine (dataType_keeps room _).bind hopened ?_
  intro typed typed' htyped
  exact laterNames_ends htyped

theorem memberVariable_ends (room : Nat) (h : S.agree n s t) :
    S.Ends n (fun _ _ => S.done n) (memberVariable room S.left s)
      (memberVariable room S.right t) := by
  refine node_done h fun hopened => ?_
  refine accessModifier_keeps.bind hopened ?_
  intro marked marked' hmarked
  refine (dataType_keeps room _).bind hmarked ?_
  intro typed typed' htyped
  exact laterNames_ends htyped

/-! ## Imports, enumerations and aliases -/

theorem anchorRequired_eq (keyword : Keyword) :
    anchorRequired keyword =
      (do
        if ← nextIs (.keyword keyword) then anchor (← next)
        else failExpected (.expectedKind (.keyword keyword))) := by
  funext setting session
  unfold anchorRequired require
  rw [bind_run, nextIs_bind, nextIs_bind]
  by_cases hkind : (setting.head session).kind = .keyword keyword
  · simp only [hkind, decide_true, ↓reduceIte]
    rfl
  · simp only [hkind, decide_false, Bool.false_eq_true, ↓reduceIte]
    rfl

theorem anchorRequired_ends (keyword : Keyword) (h : S.agree n s t) :
    S.Ends n (fun _ _ => S.agree n) (anchorRequired keyword S.left s)
      (anchorRequired keyword S.right t) := by
  rw [anchorRequired_eq]
  apply ifNext_ends h
  · intro hhead
    exact anchorNext_ends h (hhead ▸ passes_keyword keyword)
  · intro hhead
    exact failExpected_ends h _ (by simp [Message.expectedKind])

theorem expectIdentifier_keeps : S.Keeps expectIdentifier := by
  constructor
  intro n s t h
  unfold expectIdentifier
  rw [peek_bind, peek_bind, head_kind h]
  split
  · exact .ok h
  · exact failExpected_ends h _ (by simp)

theorem importDeclaration_ends (room : Nat) (h : S.agree n s t) :
    S.Ends n (fun _ _ => S.done n) (importDeclaration room S.left s)
      (importDeclaration room S.right t) := by
  refine node_done h fun hopened => ?_
  refine .bind (anchorRequired_ends _ hopened) ?_
  intro _ _ anchored anchored' hanchored
  refine (functionSignature_keeps room).bind hanchored ?_
  intro signed signed' hsigned
  have hpath {m : S.Frame} {s t : Session} (h : S.agree m s t) :
      S.Ends m (fun _ _ => S.done m)
        ((do
          if (← peek).kind.isString then leaf .constant else failExpected .expectedString
          coverRequired .semicolon) S.left s)
        ((do
          if (← peek).kind.isString then leaf .constant else failExpected .expectedString
          coverRequired .semicolon) S.right t) := by
    rw [peek_bind, peek_bind, head_kind h]
    by_cases hstring : (S.left.head s).kind.isString = true
    · simp only [hstring, ↓reduceIte]
      have hkind : S.passes (S.left.head s).kind := by
        apply S.inner <;> rintro hkind <;> rw [hkind] at hstring <;> cases hstring
      refine .bind (leaf_ends h hkind) ?_
      intro _ _ named named' hnamed
      exact coverRequired_done hnamed (by simp)
    · simp only [hstring, Bool.false_eq_true, ↓reduceIte]
      exact .never (failExpected_ends h _ (by simp))
  rw [peek_bind, peek_bind, isWord_congr (S.head hsigned)]
  by_cases hword : (S.left.head signed).isWord .from_ = true
  · simp only [hword, ↓reduceIte]
    refine .bind (cover_ends hsigned (kind_of_isWord hword ▸ plain rfl)) ?_
    intro _ _ named named' hnamed
    exact hpath hnamed
  · simp only [hword, Bool.false_eq_true, ↓reduceIte]
    exact .never (failExpected_ends hsigned _ (by simp))

/-- One enumerator, where no brace closes the enumeration. -/
theorem enumerator_ends (h : S.agree n s t) :
    S.Ends n (fun again again' => Round (S.agree n) (S.agree n) again again')
      (enumerator S.left s) (enumerator S.right t) := by
  apply ifNext_ends h
  · intro hhead
    exact .ok ⟨rfl, h⟩
  intro hhead
  have hcomma {s t : Session} (h : S.agree n s t) :
      S.Ends n (fun again again' => Round (S.agree n) (S.agree n) again again')
        ((do
          if ← nextIs .comma then
            skip
            return true
          else return false) S.left s)
        ((do
          if ← nextIs .comma then
            skip
            return true
          else return false) S.right t) := by
    apply ifNext_ends h
    · intro hhead
      refine .bind (skip_ends h (hhead ▸ plain rfl)) ?_
      intro _ _ after after' hafter
      exact .ok ⟨rfl, hafter⟩
    · intro hhead
      exact .ok ⟨rfl, h⟩
  refine expectIdentifier_keeps.bind h ?_
  intro checked checked' hchecked
  refine reads_identifier.bind hchecked ?_
  intro named named' hnamed
  apply ifNext_ends hnamed
  · intro hassign
    refine .bind (capturedInitializer_ends hnamed (.inl hassign)) ?_
    intro _ _ assigned assigned' hassigned
    exact hcomma hassigned
  · intro hassign
    exact hcomma hnamed

theorem enumDeclaration_ends (h : S.agree n s t) :
    S.Ends n (fun _ _ => S.done n) (enumDeclaration S.left s) (enumDeclaration S.right t) := by
  refine node_done h fun hopened => ?_
  refine sharedModifiers_keeps.bind hopened ?_
  intro shared shared' hshared
  refine .bind (anchorRequired_ends _ hshared) ?_
  intro _ _ anchored anchored' hanchored
  refine expectIdentifier_keeps.bind hanchored ?_
  intro checked checked' hchecked
  refine (Keeps.node .dataType reads_identifier).bind hchecked ?_
  intro named named' hnamed
  rw [peek_bind, peek_bind, head_kind hnamed]
  generalize hkind : (S.left.head named).kind = kind
  split
  · exact leaf_done hnamed (by simp [hkind])
  · refine .bind (skip_ends hnamed (hkind ▸ S.inner (by simp) (by simp) (by simp))) ?_
    intro _ _ opened opened' hbraces
    refine .bind (repeat_ends enumerator_ends hbraces) ?_
    intro _ _ listed listed' hlisted
    exact coverRequired_done hlisted (by simp)
  · exact failExpected_ends hnamed _ (by simp [Message.expectedOneOfKinds])

theorem isTypePart_of_isPrimitiveType {kind : TokenKind} (h : kind.isPrimitiveType = true) :
    kind.isTypePart = true := by
  cases kind with
  | keyword word =>
      simp only [TokenKind.isTypePart, Bool.or_eq_true]
      exact .inl (.inl (.inl (.inl (.inl h))))
  | _ => cases h

theorem typedefDeclaration_ends (h : S.agree n s t) :
    S.Ends n (fun _ _ => S.done n) (typedefDeclaration S.left s)
      (typedefDeclaration S.right t) := by
  refine node_done h fun hopened => ?_
  refine .bind (anchorRequired_ends _ hopened) ?_
  intro _ _ anchored anchored' hanchored
  rw [peek_bind, peek_bind, head_kind hanchored]
  by_cases htype : (!(S.left.head anchored).kind.isPrimitiveType ||
      decide ((S.left.head anchored).kind = .keyword .void)) = true
  · simp only [htype, ↓reduceIte]
    exact .never (fail_ends hanchored _ _ rfl (by simp [Message.unexpectedKind]))
  · simp only [htype, Bool.false_eq_true, ↓reduceIte]
    have hkind : (S.left.head anchored).kind.isTypePart = true := by
      simp only [Bool.or_eq_true, Bool.not_eq_true', decide_eq_true_eq, not_or,
        Bool.not_eq_false] at htype
      exact isTypePart_of_isPrimitiveType htype.1
    refine .bind (leaf_ends hanchored (plain hkind)) ?_
    intro _ _ typed typed' htyped
    refine reads_identifier.bind htyped ?_
    intro named named' hnamed
    exact coverRequired_done hnamed (by simp)

theorem funcdefDeclaration_ends (room : Nat) (h : S.agree n s t) :
    S.Ends n (fun _ _ => S.done n) (funcdefDeclaration room S.left s)
      (funcdefDeclaration room S.right t) := by
  refine node_done h fun hopened => ?_
  refine sharedModifiers_keeps.bind hopened ?_
  intro shared shared' hshared
  refine .bind (anchorRequired_ends _ hshared) ?_
  intro _ _ anchored anchored' hanchored
  refine (returnType_keeps room).bind hanchored ?_
  intro typed typed' htyped
  refine reads_identifier.bind htyped ?_
  intro named named' hnamed
  refine (parameterList_keeps room).bind hnamed ?_
  intro listed listed' hlisted
  exact coverRequired_done hlisted (by simp)

/-! ## Functions -/

theorem functionBody_ends (h : S.agree n s t) :
    S.Ends n (fun _ _ => S.done n) (functionBody S.left s) (functionBody S.right t) := by
  apply ifNext_ends h
  · intro hhead
    exact leaf_done h (by simp [hhead])
  · intro hhead
    exact capturedBlock_ends h

theorem globalFunction_ends (room : Nat) (h : S.agree n s t) :
    S.Ends n (fun _ _ => S.done n) (globalFunction room S.left s)
      (globalFunction room S.right t) := by
  refine node_done h fun hopened => ?_
  refine sharedModifiers_keeps.bind hopened ?_
  intro shared shared' hshared
  refine (returnType_keeps room).bind hshared ?_
  intro typed typed' htyped
  refine reads_identifier.bind htyped ?_
  intro named named' hnamed
  refine (parameterList_keeps room).bind hnamed ?_
  intro listed listed' hlisted
  refine methodAttributes_keeps.bind hlisted ?_
  intro attributed attributed' hattributed
  exact functionBody_ends hattributed

theorem interfaceMethod_ends (room : Nat) (h : S.agree n s t) :
    S.Ends n (fun _ _ => S.done n) (interfaceMethod room S.left s)
      (interfaceMethod room S.right t) := by
  refine node_done h fun hopened => ?_
  refine (returnType_keeps room).bind hopened ?_
  intro typed typed' htyped
  refine reads_identifier.bind htyped ?_
  intro named named' hnamed
  refine (parameterList_keeps room).bind hnamed ?_
  intro listed listed' hlisted
  refine (markIf_keeps (plain rfl)).bind hlisted ?_
  intro marked marked' hmarked
  exact coverRequired_done hmarked (by simp)

theorem accessModifier_ok {setting : Setting} {session after : Session} {value : Unit}
    (hrun : accessModifier setting session = (.ok value, after)) :
    after.ahead =
      if (setting.head session).isAccessModifier then session.ahead.tail else session.ahead := by
  unfold accessModifier at hrun
  rw [peek_bind] at hrun
  split at hrun
  · rename_i hmodifier
    rw [if_pos hmodifier]
    exact leaf_ok hrun
  · rename_i hmodifier
    rw [if_neg hmodifier]
    cases hrun
    rfl

theorem method_ends (room : Nat) (h : S.agree n s t)
    (hsees : ((methodAhead room S.left).run s.ahead).isSome = true) :
    S.Ends n (fun _ _ => S.done n) (method room S.left s) (method room S.right t) := by
  have hrest {m : S.Frame} {s t : Session} (h : S.agree m s t) :
      S.Ends m (fun _ _ => S.done m)
        ((do
          identifier
          parameterList room
          markIf .const
          methodAttributes
          functionBody) S.left s)
        ((do
          identifier
          parameterList room
          markIf .const
          methodAttributes
          functionBody) S.right t) := by
    refine reads_identifier.bind h ?_
    intro named named' hnamed
    refine (parameterList_keeps room).bind hnamed ?_
    intro listed listed' hlisted
    refine (markIf_keeps (plain rfl)).bind hlisted ?_
    intro marked marked' hmarked
    refine methodAttributes_keeps.bind hmarked ?_
    intro attributed attributed' hattributed
    exact functionBody_ends hattributed
  refine node_done h fun hopened => ?_
  refine .bind (accessModifier_keeps.ends hopened).recall ?_
  rintro _ _ modified modified' ⟨hmodified, hrun⟩
  apply ifNext_ends hmodified
  · intro htilde
    refine .bind (leaf_ends hmodified (htilde ▸ S.inner (by simp) (by simp) (by simp))) ?_
    intro _ _ marked marked' hmarked
    exact hrest hmarked
  · intro htilde
    have hbehind : modified.ahead =
        if (s.ahead.headD S.left.finish).isAccessModifier then s.ahead.tail else s.ahead := by
      have hok := accessModifier_ok hrun
      exact hok
    have hhead : S.passes (S.left.head modified).kind :=
      plain ((methodAhead_head hbehind hsees).resolve_left htilde)
    rw [peekSecond_bind, peekSecond_bind, S.alike_kind (S.second hmodified hhead)]
    split
    · exact hrest hmodified
    · refine (returnType_keeps room).bind hmodified ?_
      intro typed typed' htyped
      exact hrest htyped

/-! ## Running out of tokens -/

/-- The left run comes to its end where its tokens have run out. -/
def Exhausts (S : ScriptComparison) (result : Except Interruption α × Session) : Prop :=
  ¬S.lenient ∧ (∃ value, result.1 = .ok value) ∧ result.2.ahead = []

theorem Exhausts.bind {rule : Parse α} {next : α → Parse β} [hnext : ∀ value, Forwards (next value)]
    (h : S.Exhausts (rule S.left s)) :
    S.Exhausts ((rule >>= next) S.left s) ∨ S.lost ((rule >>= next) S.left s).2 := by
  obtain ⟨hstrict, ⟨value, hvalue⟩, hnil⟩ := h
  have hrun : (rule >>= next) S.left s = next value S.left (rule S.left s).2 := by
    rw [bind_run]
    generalize rule S.left s = result at hvalue
    obtain ⟨_, after⟩ := result
    cases hvalue
    rfl
  rw [hrun]
  generalize (rule S.left s).2 = after at hnil
  rcases hresult : next value S.left after with ⟨_ | last, final⟩
  · refine .inr (S.lenient_or.resolve_left hstrict _ ?_)
    have hfaulty := (hnext value).faulty _ _ _ _ hresult
    intro hfaults
    rw [hfaults] at hfaulty
    exact absurd hfaulty (Nat.not_lt_zero _)
  · refine .inl ⟨hstrict, ⟨last, rfl⟩, ?_⟩
    have hleads := (hnext value).leads _ _ _ _ hresult
    rw [hnil] at hleads
    exact Setting.eq_nil_of_leads hleads

/-- How two runs end together, unless the left tokens run out. -/
def Finishes (S : ScriptComparison) (n : S.Frame) (post : α → β → Session → Session → Prop)
    (result : Except Interruption α × Session) (other : Except Interruption β × Session) : Prop :=
  S.Exhausts result ∨ S.Ends n post result other

theorem Finishes.abandon {post : α → β → Session → Session → Prop}
    {result : Except Interruption α × Session} {other : Except Interruption β × Session}
    (h : S.Finishes n post result other) : S.Finishes (S.abandoned n) post result other :=
  Or.imp_right Ends.abandon h

/-- What the left run did, beside how the two end. -/
theorem Finishes.recall {post : α → β → Session → Session → Prop}
    {result : Except Interruption α × Session} {other : Except Interruption β × Session}
    (h : S.Finishes n post result other) :
    S.Finishes n (fun value value' after after' =>
      post value value' after after' ∧ result = (.ok value, after)) result other :=
  Or.imp_right Ends.recall h

theorem Finishes.bind {γ δ : Type} {rule : Parse α} {rule' : Parse β} {next : α → Parse γ}
    {next' : β → Parse δ} {Q : α → β → Session → Session → Prop}
    {post : γ → δ → Session → Session → Prop} [hforwards : ∀ value, Forwards (next value)]
    (h : S.Finishes n Q (rule S.left s) (rule' S.right t))
    (hnext : ∀ value value' after after', Q value value' after after' →
      S.Finishes n post (next value S.left after) (next' value' S.right after')) :
    S.Finishes n post ((rule >>= next) S.left s) ((rule' >>= next') S.right t) := by
  rcases h with hexhausts | hends
  · exact hexhausts.bind.imp id Ends.of_lost
  rw [bind_run, bind_run]
  generalize rule S.left s = result at hends
  generalize rule' S.right t = other at hends
  cases hends with
  | @lost result _ after _ hlost =>
      refine .inr (.of_lost ?_)
      cases result with
      | ok value => exact S.lost_reported ((hforwards value).reported S.left after) hlost
      | error interruption => exact hlost
  | ok hpost => exact hnext _ _ _ _ hpost
  | error hlenient hbroken => exact .inr (.error hlenient hbroken)

/-- What follows where the left tokens have run out reports an error. -/
theorem Finishes.then {γ δ : Type} {rule : Parse α} {rule' : Parse β} {next : α → Parse γ}
    {next' : β → Parse δ} {Q : α → β → Session → Session → Prop}
    {post : γ → δ → Session → Session → Prop} [hforwards : ∀ value, Forwards (next value)]
    (h : S.Finishes n Q (rule S.left s) (rule' S.right t))
    (hnil : ∀ {value after}, ¬S.lenient → after.ahead = [] →
      S.lost (next value S.left after).2)
    (hnext : ∀ value value' after after', Q value value' after after' →
      S.Ends n post (next value S.left after) (next' value' S.right after')) :
    S.Ends n post ((rule >>= next) S.left s) ((rule' >>= next') S.right t) := by
  rcases h with ⟨hstrict, ⟨value, hvalue⟩, hahead⟩ | hends
  · refine .of_lost ?_
    rw [bind_run]
    generalize rule S.left s = result at hvalue hahead
    obtain ⟨_, after⟩ := result
    cases hvalue
    exact hnil hstrict hahead
  · exact .bind hends hnext

/-- A loop whose rounds may run out of left tokens. -/
theorem repeatRule_finishes {inv post : Session → Session → Prop} {body body' : Parse Bool}
    [Forwards body] [Rounds body]
    (hbody : ∀ {s t}, inv s t → S.Finishes n (fun again again' => Round inv post again again')
      (body S.left s) (body' S.right t))
    (hrelated : ∀ {s t}, inv s t → s.ahead = [] ∨ ∃ p n, S.relate p n s t) (h : inv s t) :
    S.Finishes n (fun _ _ => post) (repeatRule body S.left s) (repeatRule body' S.right t) := by
  have hshorter {s t : Session} {tokens : List Token} (hinv : inv s t)
      (hpasses : S.left.Passes s.ahead tokens) : byteCount tokens < byteCount s.ahead := by
    rcases hrelated hinv with hnil | ⟨p, m, hrelate⟩
    · rw [hnil] at hpasses
      exact absurd hpasses (S.left.not_passes_nil tokens)
    · exact S.shorter hrelate hpasses
  have hfuel : byteCount s.ahead ≤ byteCount t.ahead := by
    rcases hrelated h with hnil | ⟨p, m, hrelate⟩
    · rw [hnil]
      exact Nat.zero_le _
    · exact S.fuel hrelate
  unfold repeatRule
  rw [ahead_bind, ahead_bind]
  generalize hcount : byteCount s.ahead + 1 = count
  generalize hcount' : byteCount t.ahead + 1 = count'
  have hless : byteCount s.ahead < count := by omega
  have hle : count ≤ count' := by omega
  clear hcount hcount' hfuel
  induction count generalizing s t count' with
  | zero => exact absurd hless (Nat.not_lt_zero _)
  | succ count ih =>
      obtain ⟨smaller, rfl⟩ : ∃ smaller, count' = smaller + 1 := ⟨count' - 1, by omega⟩
      unfold repeatUpTo
      have hround : S.Finishes n (fun again again' after after' =>
          Round inv post again again' after after' ∧
            (again = true → byteCount after.ahead < byteCount s.ahead))
          (body S.left s) (body' S.right t) := by
        refine (hbody h).imp id fun hends => hends.recall.mono ?_
        rintro again again' after after' ⟨hround, hrun⟩
        refine ⟨hround, ?_⟩
        rintro rfl
        exact hshorter h (Rounds.passes S.left s after S.ended hrun)
      refine hround.bind ?_
      rintro _ again after after' ⟨⟨rfl, hinv⟩, hsmaller⟩
      cases again with
      | false => exact .inr (.ok hinv)
      | true =>
          have hless' := hsmaller rfl
          exact ih hinv smaller (by omega) (by omega)

/-! ## Properties -/

theorem lost_of_faults (hstrict : ¬S.lenient) {before after : Session}
    (h : before.faults.length < after.faults.length) : S.lost after := by
  refine S.lenient_or.resolve_left hstrict after ?_
  intro hnil
  rw [hnil] at h
  exact absurd h (Nat.not_lt_zero _)

/-- Where the left tokens have run out, what is expected there is missing. -/
theorem lost_of_expected {rule : Parse α} [hforwards : Forwards rule] (hstrict : ¬S.lenient)
    (hrun : (rule S.left s).1 = .error .syntaxError) : S.lost (rule S.left s).2 :=
  lost_of_faults hstrict (hforwards.faulty S.left s _ _ (Prod.ext hrun rfl))

theorem head_of_nil (hnil : s.ahead = []) : (S.left.head s).kind = .endOfSource :=
  Setting.Ended.head_nil S.ended hnil

theorem coverRequired_lost {kind : TokenKind} (hkind : kind ≠ .endOfSource)
    (hstrict : ¬S.lenient) (hnil : s.ahead = []) : S.lost (coverRequired kind S.left s).2 := by
  refine lost_of_expected hstrict ?_
  have hhead : (S.left.head s).kind ≠ kind := by
    rw [head_of_nil hnil]
    exact hkind.symm
  rw [coverRequired_eq, nextIs_bind]
  simp only [hhead, decide_false, Bool.false_eq_true, ↓reduceIte]
  rfl

theorem done_related (h : S.done n s t) : s.ahead = [] ∨ ∃ p n, S.relate p n s t := by
  rcases done_cases h with hagree | ⟨-, hnil⟩
  · exact .inr ⟨_, _, hagree⟩
  · exact .inl hnil

theorem accessor_ends (place : PropertyPlace) (h : S.agree n s t) :
    S.Ends n (fun _ _ => S.done n) (accessor place S.left s) (accessor place S.right t) := by
  refine node_done h fun hopened => ?_
  refine reads_identifier.bind hopened ?_
  intro named named' hnamed
  have hbody {m : S.Frame} {s t : Session} (h : S.agree m s t) :
      S.Ends m (fun _ _ => S.done m)
        ((do
          if ← nextIs .semicolon then cover
          else if place = PropertyPlace.interface then failExpected (.expectedKind .semicolon)
          else if ← nextIs .openBrace then capturedBlock
          else failExpected (.expectedEitherKind .semicolon .openBrace)) S.left s)
        ((do
          if ← nextIs .semicolon then cover
          else if place = PropertyPlace.interface then failExpected (.expectedKind .semicolon)
          else if ← nextIs .openBrace then capturedBlock
          else failExpected (.expectedEitherKind .semicolon .openBrace)) S.right t) := by
    apply ifNext_ends h
    · intro hhead
      exact cover_done h (by simp [hhead])
    · intro hhead
      split
      · exact failExpected_ends h _ (by simp [Message.expectedKind])
      · apply ifNext_ends h
        · intro hopen
          exact capturedBlock_ends h
        · intro hopen
          exact failExpected_ends h _ (by simp [Message.expectedEitherKind])
  apply (markIf_keeps (plain rfl)).optional hnamed
  intro marked marked' hmarked
  exact methodAttributes_keeps.optional hmarked hbody

theorem property_ends (room : Nat) (place : PropertyPlace) (h : S.agree n s t) :
    S.Ends n (fun _ _ => S.done n) (property room place S.left s)
      (property room place S.right t) := by
  refine node_done h fun hopened => ?_
  apply accessModifier_keeps.optional hopened
  intro modified modified' hmodified
  refine (returnType_keeps room).bind hmodified ?_
  intro typed typed' htyped
  refine reads_identifier.bind htyped ?_
  intro named named' hnamed
  refine .bind (require_ends hnamed (S.inner (by simp) (by simp) (by simp))) ?_
  intro _ _ opened opened' hbraces
  refine repeatRule_ends ?_ done_related (S.done_of_agree hbraces)
  intro s t h
  rcases done_cases h with hagree | ⟨hstrict, hnil⟩
  · rw [peek_bind, peek_bind, head_kind hagree, hasRole_congr (S.head hagree)]
    by_cases hclose : (S.left.head s).kind = .closeBrace
    · simp only [hclose, ↓reduceIte]
      refine .bind (cover_done hagree (by simp [hclose])) ?_
      intro _ _ closed closed' hclosed
      exact .ok ⟨rfl, hclosed⟩
    · simp only [hclose, ↓reduceIte]
      by_cases hrole : (S.left.head s).hasRole .accessor = true
      · simp only [hrole, Bool.not_true, Bool.false_eq_true, ↓reduceIte]
        refine .bind (accessor_ends place hagree) ?_
        intro _ _ accessed accessed' haccessed
        exact .ok ⟨rfl, haccessed⟩
      · simp only [hrole, Bool.not_false, ↓reduceIte]
        exact .never (failExpected_ends hagree _ (by simp))
  · have hend := head_of_nil (S := S) hnil
    have hrole : (S.left.head s).hasRole .accessor = false := by
      unfold Token.hasRole
      rw [hend]
      rfl
    refine .of_lost (lost_of_expected hstrict ?_)
    rw [peek_bind]
    simp only [hend, hrole, reduceCtorEq, Bool.not_false, ↓reduceIte]
    rfl

/-! ## Interfaces and classes -/

/-- The two sessions are done with a construct, or they come behind an error to the end of the
text. -/
def rested (S : ScriptComparison) (inBraces : Bool) (n : S.Frame) (s t : Session) : Prop :=
  S.done n s t ∨ S.relate .covered n s t ∧ endsText inBraces (S.left.head s) = true

theorem rested_related {inBraces : Bool} (h : S.rested inBraces n s t) :
    s.ahead = [] ∨ ∃ p n, S.relate p n s t := by
  rcases h with hdone | ⟨hcovered, -⟩
  · exact done_related hdone
  · exact .inr ⟨_, _, hcovered⟩

theorem recovering_ends [S.Resumes] {inBraces : Bool} {rule rule' : Parse Unit}
    (h : S.agree n s t)
    (hrule : S.Ends n (fun _ _ => S.done n) (rule S.left s) (rule' S.right t)) :
    S.Ends n (fun _ _ => S.rested inBraces n) (recovering inBraces rule S.left s)
      (recovering inBraces rule' S.right t) := by
  refine .bind (attempt_ends hrule) ?_
  rintro result other after after' ⟨rfl, ⟨rfl, hdone⟩ | ⟨rfl, hlenient, hbroken⟩⟩
  · exact .ok (.inl hdone)
  · exact .ok ((Resumes.resumed inBraces hlenient h hbroken).imp S.done_of_agree id)

theorem endsText_congr {inBraces : Bool} {token other : Token} (h : other.kind = token.kind) :
    endsText inBraces other = endsText inBraces token := by
  unfold endsText
  rw [h]

theorem endsMembers_eq (token : Token) : endsMembers token = endsText true token := by
  unfold endsMembers endsText
  rw [Bool.true_and, Bool.or_comm]

theorem goesOn_of_not_endsMembers (token : Token) (h : (!endsMembers token) = true) :
    token.kind ≠ .endOfSource ∧ token.kind ≠ .closeBrace := by
  simp only [endsMembers, Bool.not_eq_true', Bool.or_eq_false_iff, decide_eq_false_iff_not] at h
  refine ⟨?_, h.1⟩
  intro hend
  rw [hend] at h
  cases h.2

theorem baseName_keeps (room : Nat) : S.Keeps (baseName room) := by
  apply Keeps.node
  constructor
  intro n s t h
  refine (scope_keeps room).bind h ?_
  intro inner inner' hinner
  exact reads_identifier.ends hinner

/-- The members of a class or an interface, up to what ends them. -/
theorem members_finishes {member : Parse Unit} [Advances member]
    (hrounds : Rounds (do
      if !endsMembers (← peek) then
        member
        return true
      else return false))
    (hmember : ∀ {s t}, S.agree n s t → S.Ends n (fun _ _ => S.rested true n) (member S.left s)
      (member S.right t)) (h : S.rested true n s t) :
    S.Finishes n (fun _ _ => S.rested true n)
      (whileNext (fun token => !endsMembers token) member S.left s)
      (whileNext (fun token => !endsMembers token) member S.right t) := by
  refine repeatRule_finishes ?_ rested_related h
  intro s t h
  have hending {p : Phase} (hrelate : S.relate p n s t)
      (hends : endsText true (S.left.head s) = true) :
      S.Finishes n (fun again again' => Round (S.rested true n) (S.rested true n) again again')
        ((do
          if !endsMembers (← peek) then
            member
            return true
          else return false) S.left s)
        ((do
          if !endsMembers (← peek) then
            member
            return true
          else return false) S.right t) := by
    have hleft : endsMembers (S.left.head s) = true := by rw [endsMembers_eq, hends]
    have hright : endsMembers (S.right.head t) = true := by
      rw [endsMembers_eq, endsText_congr (head_kind hrelate), hends]
    rw [peek_bind, peek_bind]
    simp only [hleft, hright, Bool.not_true, Bool.false_eq_true, ↓reduceIte]
    exact .inr (.ok ⟨rfl, h⟩)
  rcases h with hdone | ⟨hcovered, hends⟩
  · rcases done_cases hdone with hagree | ⟨hstrict, hnil⟩
    · cases hends : endsText true (S.left.head s) with
      | true => exact hending hagree hends
      | false =>
          have hleft : endsMembers (S.left.head s) = false := by rw [endsMembers_eq, hends]
          have hright : endsMembers (S.right.head t) = false := by
            rw [endsMembers_eq, endsText_congr (head_kind hagree), hends]
          rw [peek_bind, peek_bind]
          simp only [hleft, hright, Bool.not_false, ↓reduceIte]
          refine .inr (.bind (hmember hagree) ?_)
          intro _ _ after after' hafter
          exact .ok ⟨rfl, hafter⟩
    · left
      have hends : endsMembers (S.left.head s) = true := by
        unfold endsMembers
        rw [head_of_nil (S := S) hnil]
        rfl
      rw [peek_bind]
      simp only [hends, Bool.not_true, Bool.false_eq_true, ↓reduceIte]
      exact ⟨hstrict, ⟨false, rfl⟩, hnil⟩
  · exact hending hcovered hends

/-- The brace that closes a body is missing where the left tokens have run out. -/
theorem closing_ends (h : S.rested true n s t) :
    S.Ends n (fun _ _ => S.done n) (coverRequired .closeBrace S.left s)
      (coverRequired .closeBrace S.right t) := by
  rcases h with hdone | ⟨hcovered, -⟩
  · rcases done_cases hdone with hagree | ⟨hstrict, hnil⟩
    · exact coverRequired_done hagree (by simp)
    · exact .of_lost (coverRequired_lost (by simp) hstrict hnil)
  · exact coverRequired_done hcovered (by simp)

theorem namedMembers_ends (room : Nat) {member : Parse Unit} [Advances member]
    (hrounds : Rounds (do
      if !endsMembers (← peek) then
        member
        return true
      else return false))
    (hmember : ∀ {n s t}, S.agree n s t → S.Ends n (fun _ _ => S.rested true n) (member S.left s)
      (member S.right t)) (h : S.agree n s t) :
    S.Ends n (fun _ _ => S.done n) (namedMembers room member S.left s)
      (namedMembers room member S.right t) := by
  have hbraces {s t : Session} (h : S.agree n s t) :
      S.Ends n (fun _ _ => S.done n)
        ((do
          let _ ← require .openBrace
          whileNext (fun token => !endsMembers token) member
          coverRequired .closeBrace) S.left s)
        ((do
          let _ ← require .openBrace
          whileNext (fun token => !endsMembers token) member
          coverRequired .closeBrace) S.right t) := by
    refine .bind (require_ends h (S.inner (by simp) (by simp) (by simp))) ?_
    intro _ _ opened opened' hopened
    refine (members_finishes hrounds hmember (.inl (S.done_of_agree hopened))).then ?_ ?_
    · intro _ after hstrict hnil
      exact coverRequired_lost (by simp) hstrict hnil
    · intro _ _ listed listed' hlisted
      exact closing_ends hlisted
  refine reads_identifier.bind h ?_
  intro named named' hnamed
  apply ifNext_ends hnamed
  · intro hhead
    exact leaf_done hnamed (by simp [hhead])
  · intro hhead
    apply ifNext_ends hnamed
    · intro hcolon
      refine .bind (skip_ends hnamed (hcolon ▸ S.inner (by simp) (by simp) (by simp))) ?_
      intro _ _ marked marked' hmarked
      refine (commaSeparated_keeps (baseName_keeps room) (plain rfl)).bind hmarked ?_
      intro listed listed' hlisted
      exact hbraces hlisted
    · intro hcolon
      exact hbraces hnamed

theorem interfaceMember_ends (room : Nat) (h : S.agree n s t) :
    S.Ends n (fun _ _ => S.rested true n) (interfaceMember room S.left s)
      (interfaceMember room S.right t) := by
  suffices hdone : S.Ends n (fun _ _ => S.done n) (interfaceMember room S.left s)
      (interfaceMember room S.right t) from hdone.mono fun _ _ _ _ => .inl
  apply ifSees_ends (S.sees_property room) h
  · intro hsees
    exact property_ends room _ h
  · intro hsees
    apply ifNext_ends h
    · intro hhead
      exact skip_done h (by simp [hhead])
    · intro hhead
      exact interfaceMethod_ends room h

theorem interfaceDeclaration_ends (room : Nat) (h : S.agree n s t) :
    S.Ends n (fun _ _ => S.done n) (interfaceDeclaration room S.left s)
      (interfaceDeclaration room S.right t) := by
  refine node_done h fun hopened => ?_
  refine sharedModifiers_keeps.bind hopened ?_
  intro shared shared' hshared
  refine .bind (anchorRequired_ends _ hshared) ?_
  intro _ _ anchored anchored' hanchored
  exact namedMembers_ends room inferInstance (interfaceMember_ends room) hanchored

theorem classMember_ends (room : Nat) (h : S.agree n s t) :
    S.Ends n (fun _ _ => S.done n) (classMember room S.left s) (classMember room S.right t) := by
  rcases S.sees_member room h with hlost | ⟨hmethod, hvariable⟩
  · exact .of_lost hlost
  apply ifNext_ends h
  · intro hhead
    exact funcdefDeclaration_ends room h
  · intro hhead
    apply ifSeen_ends hmethod
    · intro hsees
      exact method_ends room h hsees
    · intro hsees
      apply ifSees_ends (S.sees_property room) h
      · intro hsees
        exact property_ends room _ h
      · intro hsees
        apply ifSeen_ends hvariable
        · intro hsees
          exact memberVariable_ends room h
        · intro hsees
          apply ifNext_ends h
          · intro hhead
            exact skip_done h (by simp [hhead])
          · intro hhead
            exact failExpected_ends h _ (by simp)

theorem classDeclaration_ends [S.Resumes] (room : Nat) (h : S.agree n s t) :
    S.Ends n (fun _ _ => S.done n) (classDeclaration room S.left s)
      (classDeclaration room S.right t) := by
  refine node_done h fun hopened => ?_
  refine (names_keeps fun h => hasRole_congr h _).bind hopened ?_
  intro modified modified' hmodified
  refine .bind (anchorRequired_ends _ hmodified) ?_
  intro _ _ anchored anchored' hanchored
  have hmembers {m : S.Frame} {s t : Session} (h : S.agree m s t) :
      S.Ends m (fun _ _ => S.done m)
        (namedMembers room (recovering true (classMember room)) S.left s)
        (namedMembers room (recovering true (classMember room)) S.right t) :=
    namedMembers_ends room (rounds_recovering goesOn_of_not_endsMembers)
      (fun h => recovering_ends h (classMember_ends room h)) h
  rw [read_bind, read_bind, nextIs_bind, nextIs_bind, head_kind hanchored, S.options_eq]
  by_cases hhandle : (S.left.options.implicitHandles &&
      decide ((S.left.head anchored).kind = .handle)) = true
  · simp only [hhandle, ↓reduceIte]
    simp only [Bool.and_eq_true, decide_eq_true_eq] at hhandle
    rw [← bind_assoc]
    refine .bind (anchorNext_ends hanchored (hhandle.2 ▸ plain rfl)) ?_
    intro _ _ marked marked' hmarked
    exact hmembers hmarked
  · simp only [hhandle, Bool.false_eq_true, ↓reduceIte]
    exact hmembers hanchored

theorem mixinDeclaration_ends [S.Resumes] (room : Nat) (h : S.agree n s t) :
    S.Ends n (fun _ _ => S.done n) (mixinDeclaration room S.left s)
      (mixinDeclaration room S.right t) := by
  refine node_done h fun hopened => ?_
  refine .bind (anchorRequired_ends _ hopened) ?_
  intro _ _ anchored anchored' hanchored
  exact classDeclaration_ends room hanchored

theorem globalMember_ends (room : Nat) (h : S.agree n s t) :
    S.Ends n (fun _ _ => S.done n) (globalMember room S.left s) (globalMember room S.right t) := by
  rcases S.sees_global room h with hlost | hvariable
  · exact .of_lost hlost
  apply ifSees_ends (S.sees_property room) h
  · intro hsees
    exact property_ends room _ h
  · intro hsees
    apply ifSeen_ends hvariable
    · intro hsees
      exact globalVariable_ends room h
    · intro hsees
      exact globalFunction_ends room h

end

end ScriptComparison

end ScriptSyntax.Grammar
