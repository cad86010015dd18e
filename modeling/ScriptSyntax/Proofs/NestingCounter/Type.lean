import ScriptSyntax.Proofs.NestingCounter.Lookahead

/-!
# Types and signatures with counted levels

A type, a list of template arguments in it and a pattern for lists each go one level further in.
-/

namespace ScriptSyntax.Grammar.Counted

open Parse

/-! ## Types -/

def templateArguments (argument : Counted Unit) : Counted Unit := do
  let _ ← require .less
  commaSeparated argument
  match (← read).afterGreater? (← ahead) with
  | some rest =>
      widen (.ofLength (← peek).span.start 1)
      goTo rest
  | none => failExpected (.expectedKind .greater)

def scopeOver (fuel : Nat) (argument : Counted Unit) : Counted Unit := do
  if ← sees (CountedScan.scopeAhead fuel) then
    node .scope do
      markIf .scope
      repeatRule do
        if (← peek).kind.isIdentifier && (← peekSecond).kind = .scope then
          identifier
          mark
          return true
        else return false
      if ← sees (CountedScan.templateScopeAhead fuel) then
        identifier
        templateArguments argument
        mark

def typeBody (fuel : Nat) (argument : Counted Unit) (forms : TypeForms) : Counted Unit :=
  node .dataType do
    if forms.const then markIf .const
    scopeOver fuel argument
    let name ← peek
    typeName forms
    if (← read).isTemplateName name && (← nextIs .less) then templateArguments argument
    typeSuffixes

/-- Types nest no deeper than there is `fuel`. -/
def dataType : Nat → TypeForms → Counted Unit
  | 0, _ => tooDeep .dataType
  | fuel + 1, forms =>
      nested (tooDeep .dataType) (deferred fun _ => typeBody fuel (dataType fuel {}) forms)

def scope (fuel : Nat) : Counted Unit :=
  scopeOver fuel (dataType fuel {})

/-! ## Signatures -/

def returnType (fuel : Nat) : Counted Unit := do
  dataType fuel {}
  typeModifier false

def parameter (fuel : Nat) : Counted Unit := do
  dataType fuel { anyType := (← read).application }
  typeModifier true
  if (← peek).kind.isIdentifier then identifier
  if ← nextIs .assign then
    skip
    defaultArgument

def parameterList (fuel : Nat) : Counted Unit :=
  node .parameterList do
    coverRequired .openParen
    if ← nextIs .closeParen then cover
    else if (← nextIs (.keyword .void)) && (← peekSecond).kind = .closeParen then
      skip
      cover
    else
      commaSeparated (parameter fuel)
      if ← nextIs .closeParen then cover else failExpected (.expectedEitherKind .closeParen .comma)

def signature (fuel : Nat) : Counted Unit := do
  returnType fuel
  scope fuel
  identifier
  parameterList fuel
  markIf .const
  methodAttributes

def functionSignature (fuel : Nat) : Counted Unit :=
  node .function (signature fuel)

/-! ## List patterns -/

def patternElement (fuel : Nat) (inner : Counted Unit) (start : List Token) : Counted Unit := do
  let token ← peek
  widen token.span
  match token.kind with
  | .closeBrace | .comma => failExpected .expectedDataType
  | .endOfSource => failAtEnd .statementBlock start
  | .openBrace => inner
  | _ =>
      if isPatternMarker token then fail (.unexpectedToken token.text)
      else dataType fuel { anyType := true }

def listPatternBody (fuel : Nat) (inner : Counted Unit) : Counted Unit :=
  node .listPattern do
    let start ← ahead
    coverRequired .openBrace
    if isPatternMarker (← peek) then identifier
    repeatRule do
      patternElement fuel inner start
      patternSeparator start

def listPattern : Nat → Counted Unit
  | 0 => tooDeep .listPattern
  | fuel + 1 =>
      nested (tooDeep .listPattern) (deferred fun _ => listPatternBody fuel (listPattern fuel))

/-! ## What the counted rules do -/

section

set_option synthInstance.maxSize 2000

variable {depth room fuel : Nat} {counted : Counted Unit} {rule : Parse Unit}

instance [Counts depth room counted rule] :
    Counts depth room (templateArguments counted) (Parse.templateArguments rule) := by
  have hclosing (tokens : Option (List Token)) : Counts depth room
      (match tokens with
        | some rest => do
            widen (.ofLength (← peek).span.start 1)
            goTo rest
        | none => failExpected (.expectedKind .greater) : Counted Unit)
      (match tokens with
        | some rest => do
            widen (.ofLength (← peek).span.start 1)
            goTo rest
        | none => failExpected (.expectedKind .greater)) := by
    split <;> infer_instance
  unfold templateArguments Parse.templateArguments
  infer_instance

instance [Fact (room < fuel)] [Counts depth room counted rule] :
    Counts depth room (scopeOver fuel counted) (Parse.scopeOver room rule) := by
  unfold scopeOver Parse.scopeOver
  infer_instance

instance [Fact (room < fuel)] [Counts depth room counted rule] (forms : TypeForms) :
    Counts depth room (typeBody fuel counted forms) (Parse.typeBody room rule forms) := by
  unfold typeBody Parse.typeBody
  infer_instance

theorem counts_dataType (hfuel : room < fuel) (forms : TypeForms) :
    Counts depth room (dataType fuel forms) (Parse.dataType room forms) := by
  induction room generalizing depth fuel forms with
  | zero =>
      obtain ⟨fuel, rfl⟩ : ∃ less, fuel = less + 1 := ⟨fuel - 1, by omega⟩
      exact counts_nested_zero _ _
  | succ room ih =>
      obtain ⟨fuel, rfl⟩ : ∃ less, fuel = less + 1 := ⟨fuel - 1, by omega⟩
      have hless : room < fuel := by omega
      have hfuel : Fact (room < fuel) := ⟨hless⟩
      have hinner : Counts (depth + 1) room (dataType fuel {}) (Parse.dataType room {}) :=
        ih hless {}
      have hdeeper : Counts (depth + 1) room
        (deferred fun _ => typeBody fuel (dataType fuel {}) forms)
        (Parse.deferred fun _ => Parse.typeBody room (Parse.dataType room {}) forms) := inferInstance
      exact counts_nested_succ hdeeper

variable [hfuel : Fact (room < fuel)]

instance (forms : TypeForms) :
    Counts depth room (dataType fuel forms) (Parse.dataType room forms) :=
  counts_dataType hfuel.out forms

instance : Counts depth room (scope fuel) (Parse.scope room) := by
  unfold scope Parse.scope
  infer_instance

instance : Counts depth room (returnType fuel) (Parse.returnType room) := by
  unfold returnType Parse.returnType
  infer_instance

instance : Counts depth room (parameter fuel) (Parse.parameter room) := by
  unfold parameter Parse.parameter
  infer_instance

instance : Counts depth room (parameterList fuel) (Parse.parameterList room) := by
  unfold parameterList Parse.parameterList
  infer_instance

instance : Counts depth room (signature fuel) (Parse.signature room) := by
  unfold signature Parse.signature
  infer_instance

instance : Counts depth room (functionSignature fuel) (Parse.functionSignature room) := by
  unfold functionSignature Parse.functionSignature
  infer_instance

instance [Counts depth room counted rule] (start : List Token) :
    Counts depth room (patternElement fuel counted start) (Parse.patternElement room rule start) := by
  have hkind (token : Token) : Counts depth room
      (match token.kind with
        | .closeBrace | .comma => (failExpected .expectedDataType : Counted Unit)
        | .endOfSource => failAtEnd .statementBlock start
        | .openBrace => counted
        | _ =>
            if isPatternMarker token then fail (.unexpectedToken token.text)
            else dataType fuel { anyType := true })
      (match token.kind with
        | .closeBrace | .comma => failExpected .expectedDataType
        | .endOfSource => failAtEnd .statementBlock start
        | .openBrace => rule
        | _ =>
            if isPatternMarker token then fail (.unexpectedToken token.text)
            else Parse.dataType room { anyType := true }) := by
    split <;> infer_instance
  unfold patternElement Parse.patternElement
  infer_instance

instance [Counts depth room counted rule] :
    Counts depth room (listPatternBody fuel counted) (Parse.listPatternBody room rule) := by
  unfold listPatternBody Parse.listPatternBody
  infer_instance

theorem counts_listPattern (hfuel : room < fuel) :
    Counts depth room (listPattern fuel) (Parse.listPattern room) := by
  induction room generalizing depth fuel with
  | zero =>
      obtain ⟨fuel, rfl⟩ : ∃ less, fuel = less + 1 := ⟨fuel - 1, by omega⟩
      exact counts_nested_zero _ _
  | succ room ih =>
      obtain ⟨fuel, rfl⟩ : ∃ less, fuel = less + 1 := ⟨fuel - 1, by omega⟩
      have hless : room < fuel := by omega
      have hfuel : Fact (room < fuel) := ⟨hless⟩
      have hinner : Counts (depth + 1) room (listPattern fuel) (Parse.listPattern room) := ih hless
      have hdeeper : Counts (depth + 1) room
        (deferred fun _ => listPatternBody fuel (listPattern fuel))
        (Parse.deferred fun _ => Parse.listPatternBody room (Parse.listPattern room)) :=
        inferInstance
      exact counts_nested_succ hdeeper

instance : Counts depth room (listPattern fuel) (Parse.listPattern room) :=
  counts_listPattern hfuel.out

end

end ScriptSyntax.Grammar.Counted
