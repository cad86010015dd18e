import ScriptSyntax.Grammar.Script
import ScriptSyntax.Proofs.Persistence.Statement

/-!
# Declarations with more room

What declares a property, a variable or a method is told apart by the type that comes first.  If that
is only seen with more room, the declaration is read as a function, or as nothing at all, and that
ends in an error.
-/

namespace ScriptSyntax.Grammar.Parse

section

set_option synthInstance.maxSize 2000

variable {setting : Setting} {session after : Session} {result : Unit} {room more : Nat}

/-! ## Signatures -/

section Signatures

variable [Fact (room ≤ more)]

instance (ofParameter : Bool) : Persists (typeModifier ofParameter) (typeModifier ofParameter) := by
  unfold typeModifier
  infer_instance

instance : Persists (returnType room) (returnType more) := by
  unfold returnType
  infer_instance

instance : Persists (parameter room) (parameter more) := by
  unfold parameter
  exact persists_read (fun _ => inferInstance) fun _ _ => rfl

instance : Persists (parameterList room) (parameterList more) := by
  unfold parameterList
  infer_instance

instance : Persists methodAttributes methodAttributes := by
  unfold methodAttributes
  infer_instance

theorem head_of_parameterList_ok (h : parameterList room setting session = (.ok result, after)) :
    (setting.head session).kind = .openParen := by
  obtain ⟨_, hinner, -⟩ := node_ok h
  obtain ⟨_, _, hopened, -⟩ := bind_ok hinner
  exact (coverRequired_ok hopened).1

instance : Persists (signature room) (signature more) := by
  have hscoped : Persists
      (do
        scope room
        identifier
        parameterList room
        markIf .const
        methodAttributes)
      (do
        scope more
        identifier
        parameterList more
        markIf .const
        methodAttributes) := by
    refine scopeOver_persists.before (fun _ => inferInstance) ?_
    intro _ setting middle after _ _ _ hcrowded _ hrun
    obtain ⟨_, named, hnamed, hlist⟩ := bind_ok hrun
    obtain ⟨_, _, hparameters, -⟩ := bind_ok hlist
    exact absurd ((less_of_crowded hcrowded hnamed).symm.trans (head_of_parameterList_ok hparameters))
      (by simp)
  unfold signature
  infer_instance

instance : Persists (functionSignature room) (functionSignature more) := by
  unfold functionSignature
  infer_instance

/-! ## List patterns -/

instance (nested nested' : Parse Unit) [Persists nested nested'] (start : List Token) :
    Persists (patternElement room nested start) (patternElement more nested' start) := by
  have helement (token : Token) : Persists
      (match token.kind with
        | .closeBrace | .comma => failExpected .expectedDataType
        | .endOfSource => failAtEnd .statementBlock start
        | .openBrace => nested
        | _ =>
            if isPatternMarker token then fail (.unexpectedToken token.text)
            else dataType room { anyType := true })
      (match token.kind with
        | .closeBrace | .comma => failExpected .expectedDataType
        | .endOfSource => failAtEnd .statementBlock start
        | .openBrace => nested'
        | _ =>
            if isPatternMarker token then fail (.unexpectedToken token.text)
            else dataType more { anyType := true }) := by
    split <;> infer_instance
  unfold patternElement
  infer_instance

instance (start : List Token) : Persists (patternSeparator start) (patternSeparator start) := by
  have hseparator (token : Token) :
      let rule : Parse Bool := match token.kind with
        | .closeBrace => do
            skip
            return false
        | .comma => do
            skip
            return true
        | .endOfSource => failAtEnd .statementBlock start
        | _ =>
            if isPatternMarker token then fail (.unexpectedToken token.text)
            else failExpected (.expectedEitherKind .comma .closeBrace)
      Persists rule rule := by
    dsimp only
    split <;> infer_instance
  unfold patternSeparator
  infer_instance

instance (nested nested' : Parse Unit) [Persists nested nested'] :
    Persists (listPatternBody room nested) (listPatternBody more nested') := by
  unfold listPatternBody
  infer_instance

end Signatures

instance (room more : Nat) [hroom : Fact (room ≤ more)] :
    Persists (listPattern room) (listPattern more) := by
  obtain ⟨hle⟩ := hroom
  induction room generalizing more with
  | zero => exact inferInstanceAs (Persists (tooDeep .listPattern) (listPattern more))
  | succ room ih =>
      obtain ⟨more, rfl⟩ : ∃ smaller, more = smaller + 1 := ⟨more - 1, by omega⟩
      have hroom : Fact (room ≤ more) := ⟨Nat.le_of_succ_le_succ hle⟩
      have hinner := ih more hroom.out
      exact inferInstanceAs (Persists (deferred fun _ => listPatternBody room (listPattern room))
        (deferred fun _ => listPatternBody more (listPattern more)))

/-! ## Functions, aliases and enumerations -/

section Functions

variable [Fact (room ≤ more)]

instance (keyword : Keyword) : Persists (anchorRequired keyword) (anchorRequired keyword) := by
  unfold anchorRequired
  infer_instance

instance : Persists sharedModifiers sharedModifiers := by
  unfold sharedModifiers
  infer_instance

instance : Persists expectIdentifier expectIdentifier := by
  unfold expectIdentifier
  infer_instance

instance : Persists (importDeclaration room) (importDeclaration more) := by
  unfold importDeclaration
  infer_instance

instance : Persists enumerator enumerator := by
  unfold enumerator
  infer_instance

instance : Persists enumDeclaration enumDeclaration := by
  have hbody (kind : TokenKind) :
      let rule : Parse Unit := match kind with
        | .semicolon => mark
        | .openBrace => do
            skip
            repeatRule enumerator
            coverRequired .closeBrace
        | _ => failExpected (.expectedOneOfKinds [.openBrace, .semicolon])
      Persists rule rule := by
    dsimp only
    split <;> infer_instance
  unfold enumDeclaration
  infer_instance

instance : Persists typedefDeclaration typedefDeclaration := by
  unfold typedefDeclaration
  infer_instance

instance : Persists (funcdefDeclaration room) (funcdefDeclaration more) := by
  unfold funcdefDeclaration
  infer_instance

instance : Persists functionBody functionBody := by
  unfold functionBody
  infer_instance

instance : Persists (globalFunction room) (globalFunction more) := by
  unfold globalFunction
  infer_instance

instance : Persists accessModifier accessModifier := by
  unfold accessModifier
  infer_instance

instance : Persists (method room) (method more) := by
  unfold method
  infer_instance

instance : Persists (interfaceMethod room) (interfaceMethod more) := by
  unfold interfaceMethod
  infer_instance

instance (place : PropertyPlace) : Persists (accessor place) (accessor place) := by
  unfold accessor
  infer_instance

instance (place : PropertyPlace) : Persists (property room place) (property more place) := by
  unfold property
  infer_instance

instance : Persists laterInitializer laterInitializer := by
  unfold laterInitializer
  infer_instance

instance : Persists (globalVariable room) (globalVariable more) := by
  unfold globalVariable
  infer_instance

instance : Persists (memberVariable room) (memberVariable more) := by
  unfold memberVariable
  infer_instance

end Functions

/-! ## Types in the place of members -/

/-- A type that starts with no qualifier and no scope starts with its name. -/
theorem allows_of_dataType_ok {forms : TypeForms}
    (hconst : (setting.head session).kind ≠ .const) (hscope : (setting.head session).kind ≠ .scope)
    (hname : (setting.head session).kind ≠ .identifier)
    (h : dataType room forms setting session = (.ok result, after)) :
    forms.allows (setting.head session) = true := by
  obtain ⟨smaller, rfl, hbody⟩ := dataType_succ_of_ok h
  obtain ⟨last, hlast, -⟩ := node_ok hbody
  have hplain : ((scopeAhead smaller setting).run session.ahead).isSome = false := by
    rw [scopeAhead_isSome, Bool.or_eq_false_iff, Bool.or_eq_false_iff]
    refine ⟨⟨decide_eq_false hscope, ?_⟩, Bool.eq_false_iff.mpr fun htemplate => ?_⟩
    · exact Bool.and_eq_false_iff.mpr (.inl (decide_eq_false hname))
    · obtain ⟨_, hlists, -⟩ := templateScopeAhead_some htemplate
      exact hname (kinds_of_listsArguments hlists).1
  have hscoped : ∃ start, start.ahead = session.ahead ∧
      (do scopeOver smaller (dataType smaller {}); typeBehindScope (dataType smaller {}) forms :
        Parse Unit) setting start = (.ok result, last) := by
    cases hforms : forms.const with
    | true =>
        simp only [hforms, ↓reduceIte] at hlast
        obtain ⟨_, start, hstart, hlast⟩ := bind_ok hlast
        have hahead := markIf_ok hstart
        exact ⟨start, hahead.trans (if_neg hconst), hlast⟩
    | false =>
        simp only [hforms, Bool.false_eq_true, ↓reduceIte] at hlast
        exact ⟨{ session with building := .empty .dataType }, rfl, hlast⟩
  obtain ⟨start, hstart, hscoped⟩ := hscoped
  obtain ⟨_, inside, hinside, hnamed⟩ := bind_ok hscoped
  unfold scopeOver at hinside
  rw [sees_bind, hstart, hplain] at hinside
  cases hinside
  unfold typeBehindScope at hnamed
  rw [peek_bind] at hnamed
  obtain ⟨_, _, hallows, -⟩ := bind_ok hnamed
  rw [Setting.head, ← hstart]
  exact (typeName_ok hallows).1

/-- Where no modifier comes next, none is read. -/
theorem typeModifier_still {ofParameter : Bool} (hkind : (setting.head session).kind = .scope)
    (h : typeModifier ofParameter setting session = (.ok result, after)) :
    after.ahead = session.ahead := by
  obtain ⟨last, hlast, rfl⟩ := node_ok h
  rw [nextIs_bind] at hlast
  change (if decide ((setting.head session).kind = .ampersand) = true then _ else _ : Parse Unit)
    setting _ = _ at hlast
  rw [hkind, if_neg (by simp)] at hlast
  obtain ⟨_, held, hplus, hword⟩ := bind_ok hlast
  have hahead : held.ahead = session.ahead :=
    (markIf_ok hplus).trans (if_neg (by simp [show setting.head
      { session with building := .empty .dataType } = setting.head session from rfl, hkind]))
  have hplain : (setting.head held).isWord .ifHandleThenConst = false := by
    refine Bool.eq_false_iff.mpr fun hfound => ?_
    have hname := kind_of_isWord hfound
    rw [Setting.head, hahead] at hname
    exact absurd (hname.symm.trans hkind) (by simp)
  rw [peek_bind, hplain] at hword
  cases hword
  exact hahead

/-- A name follows a return type, but not a type that is only seen with more room. -/
theorem not_returnType_of_overlooked (hended : setting.Ended) (hreads : setting.Reads session.ahead)
    (hle : room ≤ more) (h : setting.Overlooks room more session.ahead) {rest : Unit → Parse Unit} :
    (returnType room >>= fun _ => identifier >>= rest) setting session ≠ (.ok result, after) := by
  intro hrun
  obtain ⟨_, typed, htype, hrun⟩ := bind_ok hrun
  obtain ⟨_, _, hnamed, -⟩ := bind_ok hrun
  obtain ⟨_, read, hread, hmodifier⟩ := bind_ok htype
  have hscope := dataType_mark hended hreads hle h (Nat.le_succ room) (.inl rfl) hread
  have hahead := typeModifier_still hscope hmodifier
  have hname := (identifier_ok hnamed).1
  rw [Setting.head, hahead] at hname
  exact absurd (hname.symm.trans hscope) (by simp)

/-- No return type starts with an access modifier or with the arguments of a type. -/
theorem not_returnType_of_kind (hkind : (setting.head session).isAccessModifier = true ∨
    (setting.head session).kind = .less) :
    returnType room setting session ≠ (.ok result, after) := by
  intro hrun
  obtain ⟨_, _, hread, -⟩ := bind_ok hrun
  have hkinds : (setting.head session).kind ≠ .const ∧ (setting.head session).kind ≠ .scope ∧
      (setting.head session).kind ≠ .identifier ∧ (setting.head session).isTypeName = false := by
    simp only [Token.isAccessModifier, Bool.or_eq_true, decide_eq_true_eq] at hkind
    unfold Token.isTypeName
    rcases hkind with (hkind | hkind) | hkind <;> rw [hkind] <;> decide
  obtain ⟨hconst, hscope, hname, hplain⟩ := hkinds
  have hallows := allows_of_dataType_ok hconst hscope hname hread
  rw [TypeForms.allows, hplain] at hallows
  cases hallows

section Members

variable [Fact (room ≤ more)]

/-- The bracket that opens a list of arguments comes next. -/
def AtArguments (setting : Setting) (tokens : List Token) : Prop :=
  (tokens.headD setting.finish).kind = .less

theorem baseName_persists :
    PersistsUnless (fun _ => AtArguments) (baseName room) (baseName more) := by
  refine .node _ (scopeOver_persists.bind (fun _ => Persists.unless) ?_)
  intro _ setting middle after _ _ _ hcrowded _ hnamed
  exact less_of_crowded hcrowded hnamed

/-- The members of a class or an interface. -/
def membersBody (member : Parse Unit) : Parse Unit := do
  let _ ← require .openBrace
  whileNext (fun token => !endsMembers token) member
  coverRequired .closeBrace

instance (member member' : Parse Unit) [Persists member member'] :
    Persists (namedMembers room member) (namedMembers more member') := by
  have hbody : Persists (membersBody member) (membersBody member') := by
    unfold membersBody
    infer_instance
  have hbases : Persists (do commaSeparated (baseName room); membersBody member)
      (do commaSeparated (baseName more); membersBody member') := by
    refine (baseName_persists.commaSeparated ?_).before (fun _ => hbody) ?_
    · intro setting tokens hless
      rw [show (tokens.headD setting.finish).kind = _ from hless]
      simp
    · intro _ setting middle after _ _ _ hless _ hrun
      obtain ⟨_, _, hopened, -⟩ := bind_ok hrun
      exact absurd (hless.symm.trans (require_ok hopened).1) (by simp)
  have hmembers : Persists
      (do
        identifier
        if ← nextIs .semicolon then mark
        else if ← nextIs .colon then
          skip
          commaSeparated (baseName room)
          membersBody member
        else membersBody member)
      (do
        identifier
        if ← nextIs .semicolon then mark
        else if ← nextIs .colon then
          skip
          commaSeparated (baseName more)
          membersBody member'
        else membersBody member') := inferInstance
  exact hmembers

end Members

/-! ## Members that are only seen with more room -/

/-- What shows behind a type that a property is declared. -/
def propertyNameAhead : Scan Unit := do
  Scan.requireIdentifier
  Scan.require .openBrace
  let token ← Scan.peek
  if !(token.kind = .closeBrace || token.isWord .get || token.isWord .set) then failure

theorem undeclared_of_property {tokens : List Token}
    (hlow : ((propertyAhead room setting).run tokens).isSome = false)
    (hhigh : ((propertyAhead more setting).run tokens).isSome = true) (hle : room ≤ more) :
    Undeclared setting room more tokens :=
  undeclared_of_declaration propertyNameAhead hlow hhigh hle

/-- What shows behind a type that a method is declared. -/
def methodNameAhead : Scan Unit := do
  Scan.requireIdentifier
  Scan.require .openParen
  Scan.update (skipGroup? 0)
  Scan.skipKind .const
  modify fun tokens => tokens.dropWhile (·.hasRole .methodAttribute)
  Scan.require .openBrace

/-- No type is needed to see a constructor. -/
theorem undeclared_of_method {tokens : List Token}
    (hlow : ((methodAhead room setting).run tokens).isSome = false)
    (hhigh : ((methodAhead more setting).run tokens).isSome = true) (hle : room ≤ more) :
    Undeclared setting room more tokens := by
  have hrun (room : Nat) : ((methodAhead room setting).run tokens).isSome =
      (((constructorAhead setting).run (behindModifier setting tokens)).isSome ||
        (((typeAhead room >>= fun _ => methodNameAhead) setting).run
          (behindModifier setting tokens)).isSome) := by
    unfold methodAhead
    rw [Scan.bind_run, Scan.skipIf_run, Option.bind_some, Scan.bind_run, Scan.passes_run]
    unfold behindModifier
    dsimp only
    cases (constructorAhead setting).run _ <;> rfl
  rw [hrun, Bool.or_eq_false_iff] at hlow
  rw [hrun, hlow.1, Bool.false_or] at hhigh
  exact overlooks_of_typed hlow.2 hhigh hle

/-- Behind a name that is followed by a scope mark the same type comes. -/
theorem overlooks_tail {tokens : List Token} (hended : setting.Ended) (hreads : setting.Reads tokens)
    (hname : (tokens.headD setting.finish).kind = .identifier)
    (hscope : (tokens.tail.headD setting.finish).kind = .scope)
    (h : setting.Overlooks room more tokens) : setting.Overlooks room more tokens.tail := by
  have htail (room : Nat) : (typeAhead room setting).run tokens.tail =
      (typeAhead room setting).run tokens := by
    have hround : (Scan.leadingScope room setting).run tokens = some (true, tokens.tail.tail) := by
      rw [Scan.leadingScope_run]
      simp only [hname, hscope, TokenKind.isIdentifier, decide_true, ↓reduceIte]
    have hconst : setting.dropKind .const tokens = tokens := if_neg (by rw [hname]; simp)
    have hmark : setting.dropKind .scope tokens = tokens := if_neg (by rw [hname]; simp)
    have hconst' : setting.dropKind .const tokens.tail = tokens.tail :=
      if_neg (by rw [hscope]; simp)
    have hmark' : setting.dropKind .scope tokens.tail = tokens.tail.tail := if_pos hscope
    rw [typeAhead_scoped (by rw [hconst', hscope]; simp), hconst', hmark',
      typeAhead_scoped (by rw [hconst, hname]; simp), hconst, hmark]
    exact (scopedType_scope hended hreads hround).symm
  exact ⟨by rw [htail]; exact h.unseen, by simpa only [htail] using h.seen⟩

theorem not_returnType_of_undeclared (hended : setting.Ended) (hreads : setting.Reads session.ahead)
    (hle : room ≤ more) (h : Undeclared setting room more session.ahead) {rest : Unit → Parse Unit} :
    (returnType room >>= fun _ => identifier >>= rest) setting session ≠ (.ok result, after) := by
  unfold Undeclared behindModifier at h
  split at h
  · rename_i hmodifier
    intro hrun
    obtain ⟨_, _, htype, -⟩ := bind_ok hrun
    exact not_returnType_of_kind (.inl hmodifier) htype
  · exact not_returnType_of_overlooked hended hreads hle h

/-- No return type with a name behind it comes next. -/
def Untyped (setting : Setting) (room more : Nat) (tokens : List Token) : Prop :=
  setting.Reads tokens ∧ Undeclared setting room more tokens ∨
    (tokens.headD setting.finish).kind = .less

theorem not_returnType_of_untyped (hended : setting.Ended) (hle : room ≤ more)
    (h : Untyped setting room more session.ahead) {rest : Unit → Parse Unit} :
    (returnType room >>= fun _ => identifier >>= rest) setting session ≠ (.ok result, after) := by
  rcases h with ⟨hreads, hundeclared⟩ | hless
  · exact not_returnType_of_undeclared hended hreads hle hundeclared
  · intro hrun
    obtain ⟨_, _, htype, -⟩ := bind_ok hrun
    exact not_returnType_of_kind (.inr hless) htype

/-- A name is passed only if it is the first scope of the type, or if it has arguments itself. -/
theorem Untyped.tail {tokens : List Token} (hended : setting.Ended)
    (hname : (tokens.headD setting.finish).kind = .identifier)
    (h : Untyped setting room more tokens) : Untyped setting room more tokens.tail := by
  rcases h with ⟨hreads, hundeclared⟩ | hless
  · have hoverlooks : setting.Overlooks room more tokens := by
      unfold Undeclared behindModifier at hundeclared
      rwa [Token.isAccessModifier, hname, if_neg (by simp)] at hundeclared
    rcases hoverlooks.starts hended hreads with hkind | hkind | ⟨-, hscope | hless⟩
    · exact absurd (hname.symm.trans hkind) (by simp)
    · exact absurd (hname.symm.trans hkind) (by simp)
    · refine .inl ⟨hreads.tail, ?_⟩
      unfold Undeclared behindModifier
      rw [Token.isAccessModifier, hscope, if_neg (by simp)]
      exact overlooks_tail hended hreads hname hscope hoverlooks
    · exact .inr hless
  · exact absurd (hname.symm.trans hless) (by simp)

theorem sharedModifiers_untyped (hended : setting.Ended)
    (hrun : sharedModifiers setting session = (.ok result, after))
    (horderly : setting.Orderly session.ahead) (h : Untyped setting room more session.ahead) :
    Untyped setting room more after.ahead := by
  refine repeatRule_ok (p := Untyped setting room more) (q := Untyped setting room more) hended ?_
    horderly h hrun
  intro middle last again huntyped hround
  rw [peek_bind] at hround
  split at hround
  · obtain ⟨_, named, hnamed, hend⟩ := bind_ok hround
    cases hend
    obtain ⟨hname, hahead⟩ := identifier_ok hnamed
    rw [if_pos rfl, hahead]
    exact huntyped.tail hended hname
  · cases hround
    exact huntyped

/-- Modifiers are names, so they may be taken for the first scope of the type. -/
theorem not_globalFunction_of_undeclared (hended : setting.Ended)
    (hreads : setting.Reads session.ahead) (hle : room ≤ more)
    (h : Undeclared setting room more session.ahead) :
    globalFunction room setting session ≠ (.ok result, after) := by
  intro hrun
  obtain ⟨_, hfunction, -⟩ := node_ok hrun
  obtain ⟨_, modified, hmodifiers, hfunction⟩ := bind_ok hfunction
  have huntyped : Untyped setting room more modified.ahead :=
    sharedModifiers_untyped hended hmodifiers hreads.orderly (.inl ⟨hreads, h⟩)
  exact not_returnType_of_untyped hended hle huntyped hfunction

/-- What follows in a class where neither an alias nor a method is declared. -/
def otherMember (room : Nat) : Parse Unit := do
  if ← sees (propertyAhead room) then property room .classBody
  else if ← sees (variableAhead room) then memberVariable room
  else if ← nextIs .semicolon then skip
  else failExpected .expectedMethodOrProperty

theorem not_otherMember_of_undeclared (hended : setting.Ended) (hreads : setting.Reads session.ahead)
    (h : Undeclared setting room more session.ahead) :
    otherMember room setting session ≠ (.ok result, after) := by
  intro hrun
  have hkind : (setting.head session).kind ≠ .semicolon := h.ne_semicolon hended hreads
  have hproperty : ((propertyAhead room setting).run session.ahead).isSome = false :=
    h.unseen propertyNameAhead
  have hvariable : ((variableAhead room setting).run session.ahead).isSome = false :=
    h.unseen Look.variableNameAhead
  unfold otherMember at hrun
  rw [sees_bind, hproperty, if_neg (by simp), sees_bind, hvariable, if_neg (by simp), nextIs_bind,
    decide_eq_false hkind] at hrun
  cases hrun

section Members

variable [hroom : Fact (room ≤ more)]

instance : Persists (interfaceMember room) (interfaceMember more) := by
  constructor
  intro setting session
  have hother : Persists (do if ← nextIs .semicolon then skip else interfaceMethod room)
      (do if ← nextIs .semicolon then skip else interfaceMethod more) := inferInstance
  refine .sees (fun _ => ?_) (fun _ => hother.always setting session) ?_
  · exact (inferInstance : Persists (property room .interface) (property more .interface)).always
      setting session
  · intro _ after hended hreads hlow hhigh _ hrun
    have hundeclared := undeclared_of_property hlow hhigh hroom.out
    have hkind : (setting.head session).kind ≠ .semicolon := hundeclared.ne_semicolon hended hreads
    change (nextIs .semicolon >>= fun found => if found = true then skip else interfaceMethod room)
      setting session = _ at hrun
    rw [nextIs_bind, decide_eq_false hkind, if_neg (by simp)] at hrun
    obtain ⟨_, hmethod, -⟩ := node_ok hrun
    exact absurd hmethod
      (not_returnType_of_undeclared hended (by exact hreads) hroom.out (by exact hundeclared))

instance : Persists (interfaceDeclaration room) (interfaceDeclaration more) := by
  unfold interfaceDeclaration
  infer_instance

instance : Persists (otherMember room) (otherMember more) := by
  have always (low high : Parse Unit) [h : Persists low high] {setting : Setting}
      {session : Session} : PersistsAt never low high setting session := h.always setting session
  have hlast : Persists
      (do if ← nextIs .semicolon then skip else failExpected .expectedMethodOrProperty)
      (do if ← nextIs .semicolon then skip else failExpected .expectedMethodOrProperty) :=
    inferInstance
  constructor
  intro setting session
  refine .sees (fun _ => always (property room .classBody) (property more .classBody)) (fun hno =>
    .sees (fun _ => always (memberVariable room) (memberVariable more))
      (fun _ => hlast.always setting session) ?_) ?_
  · intro result after hended hreads hlow hhigh _ hrun
    have hmember : otherMember room setting session = (.ok result, after) := by
      unfold otherMember
      rw [sees_bind, hno, if_neg (by simp), sees_bind, hlow]
      exact hrun
    exact not_otherMember_of_undeclared hended hreads
      (undeclared_of_variable hlow hhigh hroom.out) hmember
  · intro result after hended hreads hlow hhigh _ hrun
    have hmember : otherMember room setting session = (.ok result, after) := by
      unfold otherMember
      rw [sees_bind, hlow]
      exact hrun
    exact not_otherMember_of_undeclared hended hreads
      (undeclared_of_property hlow hhigh hroom.out) hmember

instance : Persists (classMember room) (classMember more) := by
  have hmember : Persists
      (do if ← sees (methodAhead room) then method room else otherMember room)
      (do if ← sees (methodAhead more) then method more else otherMember more) := by
    constructor
    intro setting session
    refine .sees (fun _ => ?_) (fun _ => ?_) ?_
    · exact (inferInstance : Persists (method room) (method more)).always setting session
    · exact (inferInstance : Persists (otherMember room) (otherMember more)).always setting session
    · intro _ after hended hreads hlow hhigh _ hrun
      exact not_otherMember_of_undeclared hended hreads
        (undeclared_of_method hlow hhigh hroom.out) hrun
  have hclass : Persists
      (do
        if ← nextIs (.keyword .funcdef) then funcdefDeclaration room
        else if ← sees (methodAhead room) then method room
        else otherMember room)
      (do
        if ← nextIs (.keyword .funcdef) then funcdefDeclaration more
        else if ← sees (methodAhead more) then method more
        else otherMember more) := inferInstance
  exact hclass

instance : Persists (classDeclaration room) (classDeclaration more) := by
  have hmembers : Persists
      (do
        if (← read).options.implicitHandles && (← nextIs .handle) then anchor (← next)
        namedMembers room (recovering true (classMember room)))
      (do
        if (← read).options.implicitHandles && (← nextIs .handle) then anchor (← next)
        namedMembers more (recovering true (classMember more))) :=
    persists_read (fun _ => inferInstance) fun _ _ => rfl
  unfold classDeclaration
  infer_instance

instance : Persists (mixinDeclaration room) (mixinDeclaration more) := by
  unfold mixinDeclaration
  infer_instance

instance : Persists (globalMember room) (globalMember more) := by
  have always (low high : Parse Unit) [h : Persists low high] {setting : Setting}
      {session : Session} : PersistsAt never low high setting session := h.always setting session
  constructor
  intro setting session
  refine .sees (fun _ => always (property room .script) (property more .script)) (fun hno =>
    .sees (fun _ => always (globalVariable room) (globalVariable more))
      (fun _ => always (globalFunction room) (globalFunction more)) ?_) ?_
  · intro _ after hended hreads hlow hhigh _ hrun
    exact not_globalFunction_of_undeclared hended hreads hroom.out
      (undeclared_of_variable hlow hhigh hroom.out) hrun
  · intro _ after hended hreads hlow hhigh _ hrun
    have hundeclared := undeclared_of_property hlow hhigh hroom.out
    have hvariable : ((variableAhead room setting).run session.ahead).isSome = false :=
      hundeclared.unseen Look.variableNameAhead
    change (sees (variableAhead room) >>= fun found =>
      if found = true then globalVariable room else globalFunction room) setting session = _ at hrun
    rw [sees_bind, hvariable] at hrun
    exact not_globalFunction_of_undeclared hended hreads hroom.out hundeclared hrun

end Members

end

end ScriptSyntax.Grammar.Parse
