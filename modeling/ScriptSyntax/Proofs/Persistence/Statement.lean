import ScriptSyntax.Proofs.Persistence.Expression

/-!
# Statements with more room

A declaration that is only seen with more room is read as an expression, and that ends in an error
behind the type.
-/

namespace ScriptSyntax.Grammar.Parse

section

set_option synthInstance.maxSize 2000

variable {setting : Setting} {session after : Session} {result : Unit} {room more : Nat}

/-! ## Declarations that are only seen with more room -/

/-- Without more room what starts with a type is only left unseen for that. -/
theorem overlooks_of_typed {behind : Scan Unit} {tokens : List Token}
    (hlow : (((typeAhead room >>= fun _ => behind) setting).run tokens).isSome = false)
    (hhigh : (((typeAhead more >>= fun _ => behind) setting).run tokens).isSome = true)
    (hle : room ≤ more) : setting.Overlooks room more tokens := by
  have hroom : Fact (room ≤ more) := ⟨hle⟩
  rw [Scan.bind_run] at hlow hhigh
  cases hmore : (typeAhead more setting).run tokens with
  | none =>
      rw [hmore] at hhigh
      cases hhigh
  | some seen =>
      refine ⟨?_, seen, hmore⟩
      cases hless : (typeAhead room setting).run tokens with
      | none => rfl
      | some other =>
          have hextends : Scan.Extends setting (typeAhead room) (typeAhead more) :=
            Scan.Persists.extends_
          have hsame := hextends _ _ hless
          cases hmore.symm.trans hsame
          rw [hmore] at hhigh
          rw [hless] at hlow
          exact absurd (hlow.symm.trans hhigh) (by simp)

/-- The tokens behind an access modifier, if there is one. -/
def behindModifier (setting : Setting) (tokens : List Token) : List Token :=
  if (tokens.headD setting.finish).isAccessModifier then tokens.tail else tokens

/-- The type of a declaration is seen ahead with more room, but not with so little. -/
def Undeclared (setting : Setting) (room more : Nat) (tokens : List Token) : Prop :=
  setting.Overlooks room more (behindModifier setting tokens)

/-- Past an access modifier, a type and what declares something of it. -/
def declarationAhead (room : Nat) (behind : Scan Unit) : Scan Unit := do
  Scan.skipIf Token.isAccessModifier
  typeAhead room
  behind

theorem declarationAhead_run (behind : Scan Unit) (tokens : List Token) :
    (declarationAhead room behind setting).run tokens =
      ((typeAhead room >>= fun _ => behind) setting).run (behindModifier setting tokens) := by
  unfold declarationAhead
  rw [Scan.bind_run, Scan.skipIf_run]
  rfl

theorem undeclared_of_declaration (behind : Scan Unit) {tokens : List Token}
    (hlow : ((declarationAhead room behind setting).run tokens).isSome = false)
    (hhigh : ((declarationAhead more behind setting).run tokens).isSome = true)
    (hle : room ≤ more) : Undeclared setting room more tokens := by
  rw [declarationAhead_run] at hlow hhigh
  exact overlooks_of_typed hlow hhigh hle

theorem undeclared_of_variable {tokens : List Token}
    (hlow : ((variableAhead room setting).run tokens).isSome = false)
    (hhigh : ((variableAhead more setting).run tokens).isSome = true)
    (hle : room ≤ more) : Undeclared setting room more tokens :=
  undeclared_of_declaration Look.variableNameAhead hlow hhigh hle

namespace Undeclared

variable {tokens : List Token}

/-- What a declaration starts with that is only seen with more room. -/
theorem kind (hended : setting.Ended) (hreads : setting.Reads tokens)
    (h : Undeclared setting room more tokens) :
    (tokens.headD setting.finish).isAccessModifier = true ∨
      (tokens.headD setting.finish).kind = .const ∨ (tokens.headD setting.finish).kind = .scope ∨
        (tokens.headD setting.finish).kind = .identifier := by
  unfold Undeclared behindModifier at h
  split at h
  · rename_i hmodifier
    exact .inl hmodifier
  · exact .inr ((h.starts hended hreads).imp_right (.imp_right And.left))

theorem ne_semicolon (hended : setting.Ended) (hreads : setting.Reads tokens)
    (h : Undeclared setting room more tokens) :
    (tokens.headD setting.finish).kind ≠ .semicolon := by
  intro hsemicolon
  rcases h.kind hended hreads with hkind | hkind | hkind | hkind
  · simp only [Token.isAccessModifier, hsemicolon, Bool.or_eq_true, decide_eq_true_eq] at hkind
    rcases hkind with hkind | hkind <;> cases hkind
  all_goals exact absurd (hkind.symm.trans hsemicolon) (by simp)

/-- Nothing is declared there with so little room. -/
theorem unseen (h : Undeclared setting room more tokens) (behind : Scan Unit) :
    ((declarationAhead room behind setting).run tokens).isSome = false := by
  rw [declarationAhead_run, Scan.bind_run, Setting.Overlooks.unseen h]
  rfl

end Undeclared

/-! ## Values in the place of types -/

/-- No value starts with a qualifier or an access modifier. -/
theorem not_value_of_qualifier {rules : ValueRules}
    (hkind : (setting.head session).isAccessModifier = true ∨ (setting.head session).kind = .const) :
    value rules setting session ≠ (.ok result, after) := by
  intro h
  obtain ⟨_, hinside, -⟩ := node_ok h
  rw [peek_bind] at hinside
  simp only [Token.isAccessModifier, Bool.or_eq_true, decide_eq_true_eq] at hkind
  rw [show setting.head { session with building := .empty .exprValue } = setting.head session
    from rfl] at hinside
  rcases hkind with (hkind | hkind) | hkind <;>
  · rw [hkind] at hinside
    cases hinside

/-- An assignment that is read to its end has a level of room. -/
theorem assignment_succ_of_ok (h : (valueRules room).assignment setting session = (.ok result, after)) :
    ∃ smaller, room = smaller + 1 ∧
      assignmentBody (valueRules smaller) setting session = (.ok result, after) := by
  cases room with
  | zero =>
      obtain ⟨_, hdeep, -⟩ := node_ok (show tooDeep .assignment setting session = _ from h)
      cases hdeep
  | succ room => exact ⟨room, rfl, h⟩

/-- An assignment starts with the type of a list, or else with what any other term starts with. -/
theorem term_of_assignment_ok {rules : ValueRules}
    (h : assignmentBody rules setting session = (.ok result, after)) :
    ∃ start, start.ahead = session.ahead ∧
      (((typedListAhead rules.room setting).run start.ahead).isSome = true ∧
          (∃ typed, dataType rules.room { const := false } setting start = (.ok (), typed)) ∨
        ∃ termed, plainTerm rules setting start = (.ok (), termed)) := by
  obtain ⟨_, hassignment, -⟩ := node_ok h
  obtain ⟨_, _, hcondition, -⟩ := bind_ok hassignment
  obtain ⟨_, hcondition, -⟩ := node_ok hcondition
  obtain ⟨_, _, hexpression, -⟩ := bind_ok hcondition
  obtain ⟨_, hexpression, -⟩ := node_ok hexpression
  obtain ⟨_, _, hterm, -⟩ := bind_ok hexpression
  obtain ⟨termed, hterm, -⟩ := node_ok hterm
  refine ⟨{ session with building := .empty .exprTerm }, rfl, ?_⟩
  rw [sees_bind] at hterm
  split at hterm
  · rename_i hlist
    obtain ⟨_, typed, htyped, -⟩ := bind_ok hterm
    exact .inl ⟨hlist, typed, htyped⟩
  · exact .inr ⟨termed, hterm⟩

/-- A qualifier or an access modifier starts no assignment. -/
theorem not_assignment_of_qualifier
    (hkind : (setting.head session).isAccessModifier = true ∨ (setting.head session).kind = .const) :
    (valueRules room).assignment setting session ≠ (.ok result, after) := by
  intro h
  obtain ⟨smaller, rfl, h⟩ := assignment_succ_of_ok h
  have hword : ∃ word, (setting.head session).kind = .keyword word ∧
      word.isPrimitiveType = false := by
    simp only [Token.isAccessModifier, Bool.or_eq_true, decide_eq_true_eq] at hkind
    rcases hkind with (hkind | hkind) | hkind <;> exact ⟨_, hkind, rfl⟩
  obtain ⟨word, hword, hprimitive⟩ := hword
  obtain ⟨start, hstart, hterm⟩ := term_of_assignment_ok h
  have hhead : setting.head start = setting.head session := congrArg (List.headD · _) hstart
  rw [← hhead] at hword hkind
  rcases hterm with ⟨hlist, -⟩ | ⟨_, hplain⟩
  · obtain ⟨hname, -⟩ := typedListAhead_some hlist
    change (setting.head start).isTypeName = true at hname
    rw [Token.isTypeName, hword, TokenKind.isPrimitiveType, hprimitive] at hname
    cases hname
  · obtain ⟨_, hvalue⟩ := value_of_plainTerm_ok (by rw [hword]; simp) (by rw [hword]; rfl) hplain
    exact not_value_of_qualifier hkind hvalue

/-- Behind a scope mark or with a name, a type that is only seen with more room is constructed. -/
theorem constructed_of_overlooked {tokens : List Token} (hended : setting.Ended)
    (hreads : setting.Reads tokens) (h : setting.Overlooks room more tokens)
    (hconst : (tokens.headD setting.finish).kind ≠ .const) : Constructed setting tokens := by
  refine ⟨?_, h.constructs hended hreads hconst⟩
  rcases h.starts hended hreads with hkind | hkind | ⟨hkind, hsecond⟩
  · exact absurd hkind hconst
  · exact .inl hkind
  · refine .inr ⟨hkind, ?_⟩
    rcases hsecond with hsecond | hsecond <;> rw [hsecond] <;> simp

/-- A type that is only seen with more room starts no assignment. -/
theorem not_assignment_of_overlooked {inner : Nat} (hended : setting.Ended)
    (hreads : setting.Reads session.ahead) (hle : room ≤ more) (hinner : inner ≤ room)
    (h : setting.Overlooks room more session.ahead) :
    (valueRules inner).assignment setting session ≠ (.ok result, after) := by
  intro hassignment
  by_cases hconst : (setting.head session).kind = .const
  · exact not_assignment_of_qualifier (.inr hconst) hassignment
  obtain ⟨smaller, rfl, hbody⟩ := assignment_succ_of_ok hassignment
  obtain ⟨start, hstart, hterm⟩ := term_of_assignment_ok hbody
  rw [← hstart] at hreads h
  rw [valueRules_room] at hterm
  have hmark {start' typed : Session} (hsame : start'.ahead = start.ahead)
      (htyped : dataType smaller { const := false } setting start' = (.ok (), typed)) :
      (setting.head typed).kind = .scope := by
    rw [← hsame] at hreads h
    refine dataType_mark hended hreads hle h (by omega) (.inr ?_) htyped
    rw [Setting.head, hsame, hstart]
    exact hconst
  rcases hterm with ⟨hlist, typed, htyped⟩ | ⟨_, hplain⟩
  · have hassign := typedList_mark hended hreads.orderly hlist htyped
    exact absurd (hassign.symm.trans (hmark rfl htyped)) (by simp)
  · have hconstructed : Constructed setting start.ahead :=
      constructed_of_overlooked hended hreads h (by rw [hstart]; exact hconst)
    obtain ⟨_, typed, hsame, htyped, hparen⟩ := construct_of_plainTerm_ok hconstructed hplain
    rw [valueRules_room] at htyped
    exact absurd (hparen.symm.trans (hmark hsame htyped)) (by simp)

/-- A declaration that is only seen with more room is no assignment. -/
theorem not_assignment_of_undeclared {inner : Nat} (hended : setting.Ended)
    (hreads : setting.Reads session.ahead) (hle : room ≤ more) (hinner : inner ≤ room)
    (h : Undeclared setting room more session.ahead) :
    (valueRules inner).assignment setting session ≠ (.ok result, after) := by
  unfold Undeclared behindModifier at h
  split at h
  · rename_i hmodifier
    exact not_assignment_of_qualifier (.inl hmodifier)
  · exact not_assignment_of_overlooked hended hreads hle hinner h

/-! ## Statements -/

instance (initializer initializer' : Parse Unit) [Persists initializer initializer'] :
    Persists (variableNames initializer) (variableNames initializer') := by
  unfold variableNames
  infer_instance

/-- The rules of the second level do what those of the first do, with no less room.  What would be a
declaration with more room is neither an assignment nor a statement. -/
class BlocksPersist (low high : BlockRules) : Prop extends
    ValuesPersist low.toValueRules high.toValueRules where
  statement : Persists low.statement high.statement
  not_assignment : ∀ {setting : Setting} {session after : Session} {result : Unit}, setting.Ended →
    setting.Reads session.ahead → Undeclared setting low.room high.room session.ahead →
    low.assignment setting session ≠ (.ok result, after)
  not_statement : ∀ {setting : Setting} {session after : Session} {result : Unit}, setting.Ended →
    setting.Reads session.ahead → Undeclared setting low.room high.room session.ahead →
    low.statement setting session ≠ (.ok result, after)

section Rules

variable (low high : BlockRules) [hrules : BlocksPersist low high]

instance : Persists low.statement high.statement :=
  hrules.statement

instance : Persists (localVariable low.toValueRules) (localVariable high.toValueRules) := by
  have hinitializer (kind : TokenKind) : Persists
      (match kind with
        | .openParen => argumentList low.toValueRules true
        | .assign => do
            skip
            assignedValue low.toValueRules
        | _ => return)
      (match kind with
        | .openParen => argumentList high.toValueRules true
        | .assign => do
            skip
            assignedValue high.toValueRules
        | _ => return) := by
    split <;> infer_instance
  unfold localVariable
  infer_instance

instance : Persists (blockItem low) (blockItem high) := by
  constructor
  intro setting session
  refine .sees (fun _ => ?_) (fun _ => hrules.statement.always setting session) ?_
  · exact (inferInstance : Persists (localVariable low.toValueRules) (localVariable _)).always _ _
  · intro _ after hended hreads hlow hhigh _ hrun
    exact hrules.not_statement hended hreads (undeclared_of_variable hlow hhigh hrules.room) hrun

instance (start : List Token) : Persists (blockStep low start) (blockStep high start) := by
  unfold blockStep
  infer_instance

instance : Persists (block low) (block high) := by
  unfold block
  infer_instance

instance : Persists (expressionStatement low) (expressionStatement high) := by
  unfold expressionStatement
  infer_instance

instance (keyword : Keyword) : Persists (keywordCondition low keyword)
    (keywordCondition high keyword) := by
  unfold keywordCondition
  infer_instance

instance (kind : NodeKind) : Persists (jump kind) (jump kind) := by
  unfold jump
  infer_instance

instance : Persists (caseLabel low) (caseLabel high) := by
  unfold caseLabel
  infer_instance

instance : Persists (switchStatement low) (switchStatement high) := by
  have hround (kind : TokenKind) : Persists
      (match kind with
        | .closeBrace => do
            cover
            return false
        | .keyword .case_ | .keyword .default_ => do
            caseLabel low
            return true
        | _ => failExpected (.expectedOneOfKinds [.keyword .case_, .keyword .default_]))
      (match kind with
        | .closeBrace => do
            cover
            return false
        | .keyword .case_ | .keyword .default_ => do
            caseLabel high
            return true
        | _ => failExpected (.expectedOneOfKinds [.keyword .case_, .keyword .default_])) := by
    split <;> infer_instance
  unfold switchStatement
  infer_instance

instance : Persists (ifStatement low) (ifStatement high) := by
  unfold ifStatement
  infer_instance

instance : Persists (whileStatement low) (whileStatement high) := by
  unfold whileStatement
  infer_instance

instance : Persists (doStatement low) (doStatement high) := by
  unfold doStatement
  infer_instance

/-- An assignment is all that a statement can be there. -/
theorem assignment_of_expressionStatement_ok {rules : BlockRules}
    (hkind : (setting.head session).kind ≠ .semicolon)
    (h : expressionStatement rules setting session = (.ok result, after)) :
    ∃ start valued, start.ahead = session.ahead ∧
      rules.assignment setting start = (.ok (), valued) := by
  obtain ⟨_, hstatement, -⟩ := node_ok h
  rw [nextIs_bind] at hstatement
  change (if decide ((setting.head session).kind = .semicolon) = true then _ else _ : Parse Unit)
    setting _ = _ at hstatement
  rw [if_neg (by simpa using hkind)] at hstatement
  obtain ⟨_, valued, hvalued, -⟩ := bind_ok hstatement
  exact ⟨{ session with building := .empty .expressionStatement }, valued, rfl, hvalued⟩

/-- The start of a declaration that is only seen with more room is no statement of its own. -/
theorem not_expressionStatement (hended : setting.Ended) (hreads : setting.Reads session.ahead)
    (h : Undeclared setting low.room high.room session.ahead) :
    expressionStatement low setting session ≠ (.ok result, after) := by
  intro hrun
  have hkind := h.ne_semicolon hended hreads
  obtain ⟨start, _, hstart, hassignment⟩ := assignment_of_expressionStatement_ok hkind hrun
  rw [← hstart] at hreads h
  exact hrules.not_assignment hended hreads h hassignment

/-- What starts a loop is a declaration or a statement. -/
theorem persists_opening {rest rest' : Unit → Parse Unit} (hrest : ∀ done, Persists (rest done) (rest' done)) :
    Persists
      (do
        if ← sees (variableAhead low.room) then
          let done ← localVariable low.toValueRules
          rest done
        else
          let done ← expressionStatement low
          rest done)
      (do
        if ← sees (variableAhead high.room) then
          let done ← localVariable high.toValueRules
          rest' done
        else
          let done ← expressionStatement high
          rest' done) := by
  have hdeclaration : Persists (localVariable low.toValueRules >>= rest)
      (localVariable high.toValueRules >>= rest') := inferInstance
  have hstatement : Persists (expressionStatement low >>= rest)
      (expressionStatement high >>= rest') := inferInstance
  constructor
  intro setting session
  refine .sees (fun _ => hdeclaration.always _ _) (fun _ => hstatement.always _ _) ?_
  intro _ after hended hreads hlow hhigh _ hrun
  obtain ⟨_, _, hstatement, -⟩ := bind_ok (show (expressionStatement low >>= rest) _ _ = _ from hrun)
  exact not_expressionStatement low high hended hreads
    (undeclared_of_variable hlow hhigh hrules.room) hstatement

instance : Persists (forStatement low) (forStatement high) := by
  unfold forStatement
  refine ⟨.node _ (.behind fun _ => .behind fun _ => (persists_opening low high fun _ => ?_).always)⟩
  infer_instance

instance : Persists (returnStatement low) (returnStatement high) := by
  unfold returnStatement
  infer_instance

instance : Persists (tryStatement low) (tryStatement high) := by
  unfold tryStatement
  infer_instance

instance : Persists (statementBody low) (statementBody high) := by
  have hkind (kind : TokenKind) : Persists
      (match kind with
        | .openBrace => block low
        | .keyword .if_ => ifStatement low
        | .keyword .for_ => forStatement low
        | .keyword .while_ => whileStatement low
        | .keyword .do_ => doStatement low
        | .keyword .switch => switchStatement low
        | .keyword .return_ => returnStatement low
        | .keyword .break_ => jump .break_
        | .keyword .continue_ => jump .continue_
        | .keyword .try_ => tryStatement low
        | _ => do
            if ← sees (variableAhead low.room) then fail .unexpectedVariableDeclaration
            else expressionStatement low)
      (match kind with
        | .openBrace => block high
        | .keyword .if_ => ifStatement high
        | .keyword .for_ => forStatement high
        | .keyword .while_ => whileStatement high
        | .keyword .do_ => doStatement high
        | .keyword .switch => switchStatement high
        | .keyword .return_ => returnStatement high
        | .keyword .break_ => jump .break_
        | .keyword .continue_ => jump .continue_
        | .keyword .try_ => tryStatement high
        | _ => do
            if ← sees (variableAhead high.room) then fail .unexpectedVariableDeclaration
            else expressionStatement high) := by
    split
    case h_11 =>
      constructor
      intro setting session
      refine .sees (fun _ => ?_) (fun _ => ?_) ?_
      · exact (inferInstance : Persists (fail .unexpectedVariableDeclaration : Parse Unit)
          (fail .unexpectedVariableDeclaration)).always setting session
      · exact (inferInstance : Persists (expressionStatement low) (expressionStatement high)).always
          setting session
      · intro _ after hended hreads hlow hhigh _
        exact not_expressionStatement low high hended hreads
          (undeclared_of_variable hlow hhigh hrules.room)
    all_goals infer_instance
  unfold statementBody
  infer_instance

end Rules

/-- A statement that is read where no keyword or brace opens one is an expression. -/
theorem expressionStatement_of_ok {rules : BlockRules}
    (hkind : (setting.head session).isAccessModifier = true ∨
      (setting.head session).kind = .const ∨ (setting.head session).kind = .scope ∨
        (setting.head session).kind = .identifier)
    (h : statementBody rules setting session = (.ok result, after)) :
    expressionStatement rules setting session = (.ok result, after) := by
  have hplain : (do
      if ← sees (variableAhead rules.room) then fail .unexpectedVariableDeclaration
      else expressionStatement rules : Parse Unit) setting session = (.ok result, after) := by
    unfold statementBody at h
    rw [peek_bind] at h
    simp only [Token.isAccessModifier, Bool.or_eq_true, decide_eq_true_eq] at hkind
    rcases hkind with (hkind | hkind) | hkind | hkind | hkind <;>
    · rw [hkind] at h
      exact h
  rw [sees_bind] at hplain
  split at hplain
  · cases hplain
  · exact hplain

theorem not_statement_of_undeclared {inner : Nat} (hended : setting.Ended)
    (hreads : setting.Reads session.ahead) (hle : room ≤ more) (hinner : inner ≤ room)
    (h : Undeclared setting room more session.ahead) :
    (blockRules inner).statement setting session ≠ (.ok result, after) := by
  intro hrun
  cases inner with
  | zero => cases hrun
  | succ inner =>
      have hkind := h.kind hended hreads
      have hstatement := expressionStatement_of_ok hkind
        (show statementBody (blockRules inner) setting session = _ from hrun)
      have hsemicolon := h.ne_semicolon hended hreads
      obtain ⟨start, _, hstart, hassignment⟩ :=
        assignment_of_expressionStatement_ok hsemicolon hstatement
      rw [blockRules_toValueRules] at hassignment
      rw [← hstart] at hreads h
      exact not_assignment_of_undeclared hended hreads hle (Nat.le_of_succ_le hinner) h hassignment

theorem blocksPersist_of_statement {room more : Nat} [hroom : Fact (room ≤ more)]
    (hstatement : Persists (blockRules room).statement (blockRules more).statement) :
    BlocksPersist (blockRules room) (blockRules more) := by
  have hvalues : ValuesPersist (blockRules room).toValueRules (blockRules more).toValueRules := by
    rw [blockRules_toValueRules, blockRules_toValueRules]
    infer_instance
  refine { hvalues with statement := hstatement, not_assignment := ?_, not_statement := ?_ }
  all_goals
    intro setting session after result hended hreads hundeclared
    rw [blockRules_toValueRules, blockRules_toValueRules, valueRules_room, valueRules_room]
      at hundeclared
  · rw [blockRules_toValueRules]
    exact not_assignment_of_undeclared hended hreads hroom.out (Nat.le_refl room) hundeclared
  · exact not_statement_of_undeclared hended hreads hroom.out (Nat.le_refl room) hundeclared

instance (room more : Nat) [hroom : Fact (room ≤ more)] :
    BlocksPersist (blockRules room) (blockRules more) := by
  obtain ⟨hle⟩ := hroom
  induction room generalizing more with
  | zero =>
      have hroom : Fact (0 ≤ more) := ⟨hle⟩
      refine blocksPersist_of_statement (persists_of_fault fun setting session => ?_)
      exact not_clean_reported setting .maximumNestingDepth (setting.head session) session
  | succ room ih =>
      obtain ⟨more, rfl⟩ : ∃ smaller, more = smaller + 1 := ⟨more - 1, by omega⟩
      have hinner : BlocksPersist (blockRules room) (blockRules more) :=
        ih more (Nat.le_of_succ_le_succ hle)
      have hroom : Fact (room + 1 ≤ more + 1) := ⟨hle⟩
      exact blocksPersist_of_statement (inferInstanceAs
        (Persists (deferred fun _ => statementBody (blockRules room))
          (deferred fun _ => statementBody (blockRules more))))

end

end ScriptSyntax.Grammar.Parse
