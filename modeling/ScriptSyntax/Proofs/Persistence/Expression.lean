import ScriptSyntax.Proofs.Persistence.TypeAhead

/-!
# Expressions with more room

A value that is taken for the name of a type with little room, but for a typed list, a declaration or
a parameter of a lambda with more, is read as a call that constructs it.  What follows its type is no
parenthesis, so an error is reported there.
-/

namespace ScriptSyntax.Grammar.Parse

section

set_option synthInstance.maxSize 2000

variable {setting : Setting} {session after : Session} {result : Unit} {room more : Nat}

/-! ## Scopes in front of names -/

section Names

variable [Fact (room ≤ more)]

/-- A name with arguments behind it is passed up to the bracket that opens them. -/
theorem less_of_crowded {named : Session} (hcrowded : setting.Crowded room session.ahead)
    (h : identifier setting session = (.ok result, named)) : (setting.head named).kind = .less := by
  rw [Setting.head, (identifier_ok h).2]
  exact (kinds_of_listsArguments hcrowded.lists).2

theorem head_of_argumentList_ok {rules : ValueRules}
    (h : argumentList rules true setting session = (.ok result, after)) :
    (setting.head session).kind = .openParen := by
  obtain ⟨inner, hinner, -⟩ := node_ok h
  simp only [↓reduceIte] at hinner
  obtain ⟨_, _, hopened, -⟩ := bind_ok hinner
  exact (coverRequired_ok hopened).1

/-- A scope that does not end before a list of arguments is passed alike. -/
theorem scope_persistsAt
    (hplain : setting.Ended → setting.listsArguments
      ((skipScopes (setting.dropKind .scope session.ahead)).headD setting.finish)
      (skipScopes (setting.dropKind .scope session.ahead)).tail = false) :
    PersistsAt never (scope room) (scope more) setting session := by
  have hunless : PersistsUnless (Cramped room) (scope room) (scope more) := scopeOver_persists
  refine (hunless setting session).free ?_
  intro hended hreads _ after hrun hcrowded
  have hsees : ((templateScopeAhead room setting).run
      (skipScopes (setting.dropKind .scope session.ahead))).isSome = false := by
    refine Bool.eq_false_iff.mpr fun hsees => ?_
    obtain ⟨_, hlists, -⟩ := templateScopeAhead_some hsees
    exact Bool.false_ne_true ((hplain hended).symm.trans hlists)
  have hahead := scopeOver_ok hended hreads.orderly hsees hrun
  have hlists := Setting.Crowded.lists hcrowded
  rw [hahead, hplain hended] at hlists
  cases hlists

/-- A variable is not constructed. -/
theorem variableAccess_persistsAt (hplain : setting.constructs session.ahead = false) :
    PersistsAt never (variableAccess room) (variableAccess more) setting session := by
  refine PersistsAt.node (.bind (scope_persistsAt ?_) (fun _ => Persists.always) ?_)
  · refine fun hended => Bool.eq_false_iff.mpr fun hlists => ?_
    have hconstructs : setting.constructs session.ahead = true :=
      constructs_of_lists hended hlists
    exact Bool.false_ne_true (hplain.symm.trans hconstructs)
  · exact fun _ _ _ _ _ _ hnever => hnever.elim

end Names

/-! ## Lambdas -/

section Lambdas

/-- The type of a parameter is only seen with more room. -/
def Overlooked (room more : Nat) (_ : Unit) (setting : Setting) (tokens : List Token) : Prop :=
  setting.Overlooks room more tokens

/-- Neither a comma nor the end of the parameters comes next. -/
def Hung (setting : Setting) (tokens : List Token) : Prop :=
  (tokens.headD setting.finish).kind = .scope ∨ (tokens.headD setting.finish).kind = .less

theorem Hung.kind_ne {tokens : List Token} (h : Hung setting tokens) (kind : TokenKind)
    (hscope : kind ≠ .scope) (hless : kind ≠ .less) : (tokens.headD setting.finish).kind ≠ kind := by
  rintro rfl
  rcases h with h | h
  · exact hscope h
  · exact hless h

theorem hung_of_overlooked {named : Session} (hended : setting.Ended)
    (hreads : setting.Reads session.ahead) (h : setting.Overlooks room more session.ahead)
    (hname : identifier setting session = (.ok result, named)) : Hung setting named.ahead := by
  obtain ⟨hkind, hahead⟩ := identifier_ok hname
  have hstarts := h.starts hended hreads
  change (setting.head session).kind = _ ∨ (setting.head session).kind = _ ∨
    (setting.head session).kind = _ ∧ _ at hstarts
  rw [hkind] at hstarts
  rw [Hung, hahead]
  simpa using hstarts

variable [Fact (room ≤ more)]

theorem lambdaParameterType_persists :
    PersistsUnless (Overlooked room more) (lambdaParameterType room) (lambdaParameterType more) := by
  intro setting session
  refine .tokensBehind ?_ ?_
  · split
    · rename_i name _ _
      have hname : Persists
          (if name.kind.isIdentifier = true then do
            dataType room {}
            typeModifier true
          else pure ())
          (if name.kind.isIdentifier = true then do
            dataType more {}
            typeModifier true
          else pure ()) := by
        unfold typeModifier
        infer_instance
      exact hname.unless setting session
    · exact Persists.unless setting session
  · rintro value after hended hreads hlow hhigh hclean ⟨⟩
    exact ⟨hlow, Option.isSome_iff_exists.mp hhigh⟩

/-- What ends the parameters of a lambda. -/
def lambdaBody : Parse Unit := do
  if ← nextIs .closeParen then skip else fail (.expectedKind .closeParen)
  capturedBlock

instance : Persists lambdaBody lambdaBody := by
  unfold lambdaBody
  infer_instance

theorem head_of_lambdaBody_ok (h : lambdaBody setting session = (.ok result, after)) :
    (setting.head session).kind = .closeParen := by
  unfold lambdaBody at h
  rw [nextIs_bind] at h
  by_contra hkind
  simp only [hkind, decide_false, Bool.false_eq_true, ↓reduceIte] at h
  cases h

/-- The parameters of a lambda behind the name of the first one. -/
def laterParameters (room : Nat) : Parse Unit :=
  whileNext (·.kind = .comma) do
    skip
    lambdaParameterType room
    identifier

theorem laterParameters_persists :
    PersistsUnless (fun _ => Hung) (laterParameters room) (laterParameters more) := by
  refine .whileNext ?_ fun setting tokens hhung => ?_
  · refine .behind fun _ => lambdaParameterType_persists.bind (fun _ => Persists.unless) ?_
    exact fun _ setting middle after _ hended hreads hunseen _ hname =>
      hung_of_overlooked hended hreads hunseen hname
  · simpa using hhung.kind_ne .comma (by simp) (by simp)

instance : Persists (lambda room) (lambda more) := by
  have hnames : Persists (do laterParameters room; lambdaBody)
      (do laterParameters more; lambdaBody) := by
    refine laterParameters_persists.before (fun _ => inferInstance) ?_
    intro _ setting middle after _ _ _ hhung _ hrun
    exact hhung.kind_ne _ (by simp) (by simp) (head_of_lambdaBody_ok hrun)
  have hparameters : Persists
      (do
        lambdaParameterType room
        if (← peek).kind.isIdentifier then
          identifier
          laterParameters room
          lambdaBody
        else lambdaBody)
      (do
        lambdaParameterType more
        if (← peek).kind.isIdentifier then
          identifier
          laterParameters more
          lambdaBody
        else lambdaBody) := by
    refine lambdaParameterType_persists.before (fun _ => inferInstance) ?_
    intro _ setting middle after _ hended hreads hunseen _ hrun
    rw [peek_bind] at hrun
    split at hrun
    · -- What follows the name of the type is no parameter.
      obtain ⟨_, named, hname, hrun⟩ := bind_ok hrun
      obtain ⟨_, ended, hlater, hbody⟩ := bind_ok hrun
      have hhung := hung_of_overlooked hended hreads hunseen hname
      have hstill : laterParameters room setting named = (.ok (), named) := by
        refine whileNext_still ?_
        simpa [Setting.head] using hhung.kind_ne .comma (by simp) (by simp)
      cases hstill.symm.trans hlater
      exact hhung.kind_ne _ (by simp) (by simp) (head_of_lambdaBody_ok hbody)
    · rename_i hname
      have hclosing : (middle.ahead.headD setting.finish).kind = .closeParen :=
        head_of_lambdaBody_ok hrun
      have hstarts := hunseen.starts hended hreads
      rw [hclosing] at hstarts
      simp at hstarts
  have hlambda : Persists
      (node .function do
        cover
        skip
        lambdaParameterType room
        if (← peek).kind.isIdentifier then
          identifier
          laterParameters room
          lambdaBody
        else lambdaBody)
      (node .function do
        cover
        skip
        lambdaParameterType more
        if (← peek).kind.isIdentifier then
          identifier
          laterParameters more
          lambdaBody
        else lambdaBody) :=
    inferInstance
  exact hlambda

end Lambdas

/-! ## Values -/

/-- The rules of the second level do what those of the first do, with no less room. -/
class ValuesPersist (low high : ValueRules) : Prop where
  room : low.room ≤ high.room
  assignment : Persists low.assignment high.assignment
  initList : Persists low.initList high.initList

section Values

variable (low high : ValueRules) [hrules : ValuesPersist low high]

instance : Fact (low.room ≤ high.room) :=
  ⟨hrules.room⟩

instance : Persists low.assignment high.assignment :=
  hrules.assignment

instance : Persists low.initList high.initList :=
  hrules.initList

instance : Persists (argument low) (argument high) := by
  have hnamed (old : Bool) : Persists
      (node .namedArgument do
        identifier
        if old then diagnose .warning .oldNamedArgument (← peek)
        skip
        low.assignment)
      (node .namedArgument do
        identifier
        if old then diagnose .warning .oldNamedArgument (← peek)
        skip
        high.assignment) := inferInstance
  unfold argument
  exact .bind inferInstance fun _ => persists_read (fun _ => inferInstance) fun _ _ => rfl

instance (parenthesized : Bool) :
    Persists (argumentList low parenthesized) (argumentList high parenthesized) := by
  have harguments (kind : TokenKind) : Persists
      (match kind with
        | .closeParen => do if parenthesized then cover
        | .closeBracket => do if parenthesized then fail (.unexpectedKind .closeBracket)
        | _ => do
            commaSeparated (argument low)
            if parenthesized then
              if ← nextIs .closeParen then cover
              else failExpected (.expectedEitherKind .closeParen .comma))
      (match kind with
        | .closeParen => do if parenthesized then cover
        | .closeBracket => do if parenthesized then fail (.unexpectedKind .closeBracket)
        | _ => do
            commaSeparated (argument high)
            if parenthesized then
              if ← nextIs .closeParen then cover
              else failExpected (.expectedEitherKind .closeParen .comma)) := by
    split <;> infer_instance
  unfold argumentList
  infer_instance

instance : Persists emptySlot emptySlot := by
  unfold emptySlot
  infer_instance

instance : Persists (listElement low) (listElement high) := by
  have helement (kind : TokenKind) : Persists
      (match kind with
        | .comma | .closeBrace => emptySlot
        | .openBrace => low.initList
        | _ => low.assignment)
      (match kind with
        | .comma | .closeBrace => emptySlot
        | .openBrace => high.initList
        | _ => high.assignment) := by
    split <;> infer_instance
  unfold listElement
  infer_instance

instance : Persists (initListBody low) (initListBody high) := by
  unfold initListBody
  infer_instance

instance : Persists constant constant := by
  unfold constant
  infer_instance

instance : Persists (functionCall low) (functionCall high) := by
  have hscoped : Persists
      (do scope low.room; identifier; argumentList low true)
      (do scope high.room; identifier; argumentList high true) := by
    have hscope : PersistsUnless (Cramped low.room) (scope low.room) (scope high.room) :=
      scopeOver_persists
    refine hscope.before (fun _ => inferInstance) ?_
    intro _ setting middle after _ _ _ hcrowded _ hrun
    obtain ⟨_, named, hnamed, hlist⟩ := bind_ok hrun
    exact absurd ((less_of_crowded hcrowded hnamed).symm.trans (head_of_argumentList_ok hlist))
      (by simp)
  unfold functionCall
  infer_instance

instance : Persists (constructCall low) (constructCall high) := by
  unfold constructCall
  infer_instance

instance : Persists (cast low) (cast high) := by
  unfold cast
  infer_instance

instance : Persists (namedValue low) (namedValue high) := by
  constructor
  intro setting session
  have always (low high : Parse Unit) [h : Persists low high] :
      PersistsAt never low high setting session := h.always setting session
  unfold namedValue
  refine .sees (fun _ => always (lambda low.room) (lambda high.room)) (fun _ =>
    .sees (fun _ => always (constructCall low) (constructCall high)) (fun hplain =>
      .sees (fun _ => always (functionCall low) (functionCall high)) (fun _ => ?_) ?_) ?_) ?_
  · rw [constructionAhead_run] at hplain
    refine variableAccess_persistsAt ?_
    simpa using hplain
  all_goals
    intro _ _ _ _ hno hyes
    rw [hno] at hyes
    cases hyes

instance : Persists (value low) (value high) := by
  have hkind (kind : TokenKind) : Persists
      (match kind with
        | .keyword .void => mark
        | .keyword .cast => cast low
        | .openParen => do
            cover
            low.assignment
            widen (← peek).span
            let _ ← require .closeParen
        | .unterminatedString => fail .unterminatedString
        | kind =>
            if kind.isPrimitiveType then constructCall low
            else if kind.isIdentifier || kind = .scope then namedValue low
            else if kind.isConstant then constant
            else failExpected .expectedExpressionValue)
      (match kind with
        | .keyword .void => mark
        | .keyword .cast => cast high
        | .openParen => do
            cover
            high.assignment
            widen (← peek).span
            let _ ← require .closeParen
        | .unterminatedString => fail .unterminatedString
        | kind =>
            if kind.isPrimitiveType then constructCall high
            else if kind.isIdentifier || kind = .scope then namedValue high
            else if kind.isConstant then constant
            else failExpected .expectedExpressionValue) := by
    split <;> infer_instance
  unfold value
  infer_instance

instance : Persists (postOperator low) (postOperator high) := by
  have hkind (kind : TokenKind) : Persists
      (match kind with
        | .dot => do
            skip
            if (← peekSecond).kind = .openParen then functionCall low else identifier
        | .openBracket => do
            skip
            argumentList low false
            coverRequired .closeBracket
        | .openParen => argumentList low true
        | _ => skip)
      (match kind with
        | .dot => do
            skip
            if (← peekSecond).kind = .openParen then functionCall high else identifier
        | .openBracket => do
            skip
            argumentList high false
            coverRequired .closeBracket
        | .openParen => argumentList high true
        | _ => skip) := by
    split <;> infer_instance
  unfold postOperator
  infer_instance

/-! ## Terms -/

/-- A value that starts with a path of names and constructs something. -/
structure Constructed (setting : Setting) (tokens : List Token) : Prop where
  named : (tokens.headD setting.finish).kind = .scope ∨
    (tokens.headD setting.finish).kind = .identifier ∧
      (tokens.tail.headD setting.finish).kind ≠ .openParen
  constructs : setting.constructs tokens = true

section

variable {rules : ValueRules}

/-- The type of what is constructed is read, and a parenthesis follows it. -/
theorem construct_of_value_ok (hconstructed : Constructed setting session.ahead)
    (h : value rules setting session = (.ok result, after)) :
    ∃ start typed, start.ahead = session.ahead ∧
      dataType rules.room { const := false } setting start = (.ok (), typed) ∧
      (setting.head typed).kind = .openParen := by
  obtain ⟨hnamed, hconstructs⟩ := hconstructed
  obtain ⟨inside, hinside, -⟩ := node_ok h
  have hvalue : namedValue rules setting { session with building := .empty .exprValue } =
      (.ok result, inside) := by
    rw [peek_bind] at hinside
    rcases hnamed with hkind | ⟨hkind, -⟩ <;>
    · change (setting.head session).kind = _ at hkind
      rw [show setting.head { session with building := .empty .exprValue } = setting.head session
        from rfl, hkind] at hinside
      exact hinside
  unfold namedValue at hvalue
  rw [sees_bind] at hvalue
  have hlambda : ((lambdaAhead setting).run session.ahead).isSome = false := by
    refine Bool.eq_false_iff.mpr fun hsees => ?_
    obtain ⟨hkind, hparen⟩ := lambdaAhead_isSome hsees
    rcases hnamed with hscope | ⟨-, hplain⟩
    · exact absurd (hkind.symm.trans hscope) (by simp)
    · exact hplain hparen
  rw [hlambda, if_neg (by simp), sees_bind, constructionAhead_run, hconstructs] at hvalue
  obtain ⟨_, hinner, -⟩ := node_ok (show constructCall rules setting _ = _ from hvalue)
  obtain ⟨_, typed, htyped, hlist⟩ := bind_ok hinner
  refine ⟨{ session with building := .empty .constructCall }, typed, rfl, htyped, ?_⟩
  exact head_of_argumentList_ok hlist

/-- A term that is no list with its type. -/
def plainTerm (rules : ValueRules) : Parse Unit := do
  if ← nextIs .openBrace then rules.initList
  else
    whileNext (·.kind.isBeforeValue) (leaf .exprPreOp)
    value rules
    whileNext (·.kind.isAfterValue) (postOperator rules)

theorem value_of_plainTerm_ok (hbrace : (setting.head session).kind ≠ .openBrace)
    (hbefore : (setting.head session).kind.isBeforeValue = false)
    (h : plainTerm rules setting session = (.ok result, after)) :
    ∃ valued, value rules setting session = (.ok (), valued) := by
  unfold plainTerm at h
  rw [nextIs_bind, decide_eq_false hbrace, if_neg (by simp), bind_run, whileNext_still hbefore] at h
  obtain ⟨_, valued, hvalued, -⟩ := bind_ok h
  exact ⟨valued, hvalued⟩

/-- Where something is constructed, its type is all that a term without type starts with. -/
theorem construct_of_plainTerm_ok (hconstructed : Constructed setting session.ahead)
    (h : plainTerm rules setting session = (.ok result, after)) :
    ∃ start typed, start.ahead = session.ahead ∧
      dataType rules.room { const := false } setting start = (.ok (), typed) ∧
      (setting.head typed).kind = .openParen := by
  have hkind : (setting.head session).kind = .scope ∨ (setting.head session).kind = .identifier :=
    hconstructed.named.imp_right And.left
  obtain ⟨_, hvalued⟩ := value_of_plainTerm_ok (by rcases hkind with hkind | hkind <;> simp [hkind])
    (by rcases hkind with hkind | hkind <;> rw [hkind] <;> rfl) h
  exact construct_of_value_ok hconstructed hvalued

end

theorem crowded_of_typedList {tokens : List Token}
    (hlow : ((typedListAhead room setting).run tokens).isSome = false)
    (hhigh : ((typedListAhead more setting).run tokens).isSome = true) :
    setting.Crowded room tokens := by
  obtain ⟨hname, behind, hlisted, -⟩ := typedListAhead_some hhigh
  refine ⟨?_, more, ((), behind), hlisted⟩
  cases hlist : (templateList room (tokens.headD setting.finish) setting).run tokens.tail with
  | none => rfl
  | some seen =>
      unfold typedListAhead at hlow hhigh
      rw [Scan.next_bind] at hlow hhigh
      simp only [hname, Bool.not_true, Bool.false_eq_true, ↓reduceIte] at hlow hhigh
      rw [Scan.bind_run, hlist] at hlow
      rw [Scan.bind_run, hlisted, ← templateList_unique hlist hlisted] at hhigh
      exact absurd (hlow.symm.trans hhigh) (by simp)

theorem constructed_of_crowded {tokens : List Token} (hended : setting.Ended)
    (hcrowded : setting.Crowded room tokens) : Constructed setting tokens := by
  have hlists := hcrowded.lists
  obtain ⟨hname, hless⟩ := kinds_of_listsArguments hlists
  refine ⟨.inr ⟨hname, by rw [hless]; simp⟩, constructs_of_lists hended ?_⟩
  have hscope : setting.dropKind .scope tokens = tokens := if_neg (by rw [hname]; simp)
  have hnames : skipScopes tokens = tokens :=
    skipScopes_other fun hmark : _ ∧ (tokens.tail.headD setting.finish).kind = .scope =>
      absurd (hless.symm.trans hmark.2) (by simp)
  rw [hscope, hnames]
  exact hlists

instance : Persists (plainTerm low) (plainTerm high) := by
  unfold plainTerm
  infer_instance

instance : Persists (term low) (term high) := by
  have hterm : Persists
      (do
        if ← sees (typedListAhead low.room) then
          dataType low.room { const := false }
          skip
          low.initList
        else plainTerm low)
      (do
        if ← sees (typedListAhead high.room) then
          dataType high.room { const := false }
          skip
          high.initList
        else plainTerm high) := by
    have hlist : Persists
        (do
          dataType low.room { const := false }
          skip
          low.initList)
        (do
          dataType high.room { const := false }
          skip
          high.initList) := inferInstance
    constructor
    intro setting session
    refine .sees (fun _ => hlist.always setting session)
      (fun _ => (inferInstance : Persists (plainTerm low) (plainTerm high)).always setting session) ?_
    intro _ after hended hreads hlow hhigh _ hrun
    have hconstructed := constructed_of_crowded hended (crowded_of_typedList hlow hhigh)
    obtain ⟨start, typed, hstart, htyped, hparen⟩ := construct_of_plainTerm_ok hconstructed hrun
    rw [← hstart] at hreads hhigh
    exact absurd (hparen.symm.trans (typedList_mark hended hreads.orderly hhigh htyped)) (by simp)
  have hnode : Persists
      (node .exprTerm do
        if ← sees (typedListAhead low.room) then
          dataType low.room { const := false }
          skip
          low.initList
        else plainTerm low)
      (node .exprTerm do
        if ← sees (typedListAhead high.room) then
          dataType high.room { const := false }
          skip
          high.initList
        else plainTerm high) := inferInstance
  exact hnode

instance : Persists (expression low) (expression high) := by
  unfold expression
  infer_instance

instance : Persists (condition low) (condition high) := by
  unfold condition
  infer_instance

instance : Persists (assignmentBody low) (assignmentBody high) := by
  unfold assignmentBody
  infer_instance

instance : Persists (assignedValue low) (assignedValue high) := by
  unfold assignedValue
  infer_instance

end Values

instance (room more : Nat) [hroom : Fact (room ≤ more)] :
    ValuesPersist (valueRules room) (valueRules more) := by
  obtain ⟨hle⟩ := hroom
  induction room generalizing more with
  | zero =>
      refine ⟨by simp [valueRules_room], ?_, ?_⟩
      · exact inferInstanceAs (Persists (tooDeep .assignment) _)
      · exact inferInstanceAs (Persists (tooDeep .initList) _)
  | succ room ih =>
      obtain ⟨more, rfl⟩ : ∃ smaller, more = smaller + 1 := ⟨more - 1, by omega⟩
      have hinner : ValuesPersist (valueRules room) (valueRules more) :=
        ih more (Nat.le_of_succ_le_succ hle)
      refine ⟨hle, ?_, ?_⟩
      · exact inferInstanceAs (Persists (deferred fun _ => assignmentBody (valueRules room))
          (deferred fun _ => assignmentBody (valueRules more)))
      · exact inferInstanceAs (Persists (deferred fun _ => initListBody (valueRules room))
          (deferred fun _ => initListBody (valueRules more)))

/-! ## Initializers -/

instance (low high : ValueRules) [ValuesPersist low high] :
    Persists (initializer low) (initializer high) := by
  have hinitializer (kind : TokenKind) (rest rest' : Unit → Parse Unit)
      (hrest : ∀ done, Persists (rest done) (rest' done)) : Persists
      (match kind with
        | .assign => do
            skip
            let done ← assignedValue low
            rest done
        | .openParen => do
            let done ← argumentList low true
            rest done
        | _ => do
            let done ← failExpected (.expectedOneOfKinds [.assign, .openParen])
            rest done)
      (match kind with
        | .assign => do
            skip
            let done ← assignedValue high
            rest' done
        | .openParen => do
            let done ← argumentList high true
            rest' done
        | _ => do
            let done ← failExpected (.expectedOneOfKinds [.assign, .openParen])
            rest' done) := by
    split <;> infer_instance
  unfold initializer
  exact .bind inferInstance fun token => hinitializer token.kind _ _ fun _ => inferInstance


end

end ScriptSyntax.Grammar.Parse
