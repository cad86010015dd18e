import ScriptSyntax.Grammar.Lookahead

/-!
# Types

A type is a node over an optional `const`, an optional scope, the name, the template arguments and
the suffixes.  What says how a value is passed or held stands in a node of its own behind it, which
is there even if it is empty.
-/

namespace ScriptSyntax.Grammar

/-- What may stand in a type beside a plain name. -/
structure TypeForms where
  const : Bool := true
  /-- `?`, the type of any value. -/
  anyType : Bool := false
  auto : Bool := false

def TypeForms.allows (forms : TypeForms) (token : Token) : Bool :=
  token.isTypeName || forms.anyType && token.kind = .question ||
    forms.auto && token.kind = .keyword .auto

def isDirection (kind : TokenKind) : Bool :=
  kind = .keyword .in_ || kind = .keyword .out || kind = .keyword .inout

namespace Parse

def typeName (forms : TypeForms) : Parse Unit :=
  node .dataType do
    let name ← peek
    if forms.allows name then anchor (← next)
    else if name.kind = .keyword .auto then fail .autoNotAllowed
    else failExpected .expectedDataType

/-- Template arguments in angle brackets.  Of the closing token only the first byte belongs to the
list. -/
def templateArguments (argument : Parse Unit) : Parse Unit := do
  let _ ← require .less
  commaSeparated argument
  match (← read).afterGreater? (← ahead) with
  | some rest =>
      widen (.ofLength (← peek).span.start 1)
      goTo rest
  | none => failExpected (.expectedKind .greater)

/-- A scope if there is one: a leading `::`, names that are each followed by `::`, and at last
perhaps a template instance with its `::`. -/
def scopeOver (room : Nat) (argument : Parse Unit) : Parse Unit := do
  if ← sees (scopeAhead room) then
    node .scope do
      markIf .scope
      repeatRule do
        if (← peek).kind.isIdentifier && (← peekSecond).kind = .scope then
          identifier
          mark
          return true
        else return false
      if ← sees (templateScopeAhead room) then
        identifier
        templateArguments argument
        mark

/-- Brackets, and handle marks that may be followed by `const`. -/
def typeSuffixes : Parse Unit :=
  repeatRule do
    match (← peek).kind with
    | .openBracket =>
        mark
        coverRequired .closeBracket
        return true
    | .handle =>
        mark
        markIf .const
        return true
    | _ => return false

def typeBody (room : Nat) (argument : Parse Unit) (forms : TypeForms) : Parse Unit :=
  node .dataType do
    if forms.const then markIf .const
    scopeOver room argument
    let name ← peek
    typeName forms
    if (← read).isTemplateName name && (← nextIs .less) then templateArguments argument
    typeSuffixes

/-- A type; each level of template arguments in it takes one level of room. -/
def dataType : Nat → TypeForms → Parse Unit
  | 0, _ => tooDeep .dataType
  | room + 1, forms => deferred fun _ => typeBody room (dataType room {}) forms

def scope (room : Nat) : Parse Unit :=
  scopeOver room (dataType room {})

/-- How a value is passed or held; only parameters name a direction. -/
def typeModifier (ofParameter : Bool) : Parse Unit :=
  node .dataType do
    if ← nextIs .ampersand then
      mark
      if ofParameter && isDirection (← peek).kind then mark
    markIf .plus
    if (← peek).isWord .ifHandleThenConst then mark

end Parse

end ScriptSyntax.Grammar
