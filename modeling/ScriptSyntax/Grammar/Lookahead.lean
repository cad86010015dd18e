import ScriptSyntax.Grammar.Parse

/-!
# Looking ahead

Some constructs can only be told apart by reading on.  A scan reads tokens and succeeds or fails;
it reports nothing and consumes nothing, because a rule only asks whether it succeeds.
-/

namespace ScriptSyntax.Grammar

abbrev Scan := ReaderT Setting (StateT (List Token) Option)

/-! ## Flat scans -/

/-- Past a leading run of names that are each followed by a scope mark. -/
def skipScopes : List Token → List Token
  | name :: separator :: rest =>
      if name.kind = .identifier ∧ separator.kind = .scope then skipScopes rest
      else name :: separator :: rest
  | tokens => tokens

theorem skipScopes_suffix (tokens : List Token) : skipScopes tokens <:+ tokens := by
  fun_induction skipScopes tokens with
  | case1 name separator rest hscope ih =>
      exact ih.trans ((List.suffix_cons _ _).trans (List.suffix_cons _ _))
  | case2 => exact List.suffix_rfl
  | case3 => exact List.suffix_rfl

/-- Past the parenthesis that closes a group; `level` counts the groups open inside it. -/
def skipGroup? : Nat → List Token → Option (List Token)
  | _, [] => none
  | level, token :: rest =>
      match token.kind, level with
      | .openParen, level => skipGroup? (level + 1) rest
      | .closeParen, 0 => some rest
      | .closeParen, level + 1 => skipGroup? level rest
      | _, level => skipGroup? level rest

/-- Past handle marks, references and empty index brackets after a type. -/
def skipSuffixes? : List Token → Option (List Token)
  | [] => some []
  | token :: rest =>
      match token.kind, rest with
      | .handle, qualifier :: rest' =>
          if qualifier.kind = .const then skipSuffixes? rest' else skipSuffixes? (qualifier :: rest')
      | .handle, [] => some []
      | .ampersand, rest => skipSuffixes? rest
      | .openBracket, close :: rest' =>
          if close.kind = .closeBracket then skipSuffixes? rest' else none
      | .openBracket, [] => none
      | _, rest => some (token :: rest)

/-- Past handle marks and empty index brackets after a template argument. -/
def skipArgumentSuffixes? : List Token → Option (List Token)
  | [] => some []
  | token :: rest =>
      match token.kind, rest with
      | .handle, rest => skipArgumentSuffixes? rest
      | .openBracket, close :: rest' =>
          if close.kind = .closeBracket then skipArgumentSuffixes? rest' else none
      | .openBracket, [] => none
      | _, rest => some (token :: rest)

namespace Scan

variable {α : Type}

def peek : Scan Token :=
  return (← get).headD (← read).finish

def skip : Scan Unit :=
  modify List.tail

def next : Scan Token := do
  let token ← peek
  skip
  return token

def require (kind : TokenKind) : Scan Unit := do
  if (← peek).kind = kind then skip else failure

def requireIdentifier : Scan Unit := do
  if (← peek).kind.isIdentifier then skip else failure

def skipIf (test : Token → Bool) : Scan Unit := do
  if test (← peek) then skip

def skipKind (kind : TokenKind) : Scan Unit :=
  skipIf (·.kind = kind)

/-- Replace the tokens ahead, or fail. -/
def update (change : List Token → Option (List Token)) : Scan Unit := do
  match change (← get) with
  | some tokens => set tokens
  | none => failure

/-- Whether the scan succeeds; if it fails, the tokens ahead are as before. -/
def passes (scan : Scan Unit) : Scan Bool :=
  (do scan; return true) <|> return false

/-- Runs the body at most `count` times, as long as it asks to be run again. -/
def repeatUpTo : Nat → Scan Bool → Scan Unit
  | 0, _ => return
  | count + 1, body => do
      if ← body then repeatUpTo count body

def repeatScan (body : Scan Bool) : Scan Unit := do
  repeatUpTo (byteCount (← get) + 1) body

end Scan

open Scan

/-! ## Types -/

/-- One template argument; says whether another one follows. -/
def templateArgument (templateList : Token → Scan Unit) : Scan Bool := do
  skipKind .const
  skipKind .scope
  modify skipScopes
  let name ← next
  if !name.isTypeName then failure
  templateList name
  update skipArgumentSuffixes?
  if (← peek).kind = .comma then
    skip
    return true
  else return false

/-- Past the template arguments of a name.  A name that takes none, or is not followed by any, is
passed as it stands.  Each list needs one level of room. -/
def templateList : Nat → Token → Scan Unit
  | 0, name => do
      if (← read).isTemplateName name && (← peek).kind = .less then failure
  | room + 1, name => do
      if (← read).isTemplateName name && (← peek).kind = .less then
        skip
        repeatScan (templateArgument (templateList room))
        update (← read).afterGreater?

/-- The last name of a scoped name, whose scopes may take template arguments. -/
def scopedName (room : Nat) : Nat → Scan Token
  | 0 => next
  | count + 1 => do
      let name ← next
      if !name.kind.isIdentifier then return name
      if (← peek).kind = .scope then
        skip
        scopedName room count
      else if ← passes (do templateList room name; require .scope) then
        scopedName room count
      else return name

/-- Past a type, with whatever handle marks, references and brackets follow it. -/
def typeAhead (room : Nat) : Scan Unit := do
  skipKind .const
  let name ←
    if (← peek).kind = .keyword .auto then next
    else do
      skipKind .scope
      scopedName room (byteCount (← get) + 1)
  if !(name.isTypeName || name.kind = .keyword .auto) then failure
  templateList room name
  update skipSuffixes?

/-- A template instance that is used as a scope. -/
def templateScopeAhead (room : Nat) : Scan Unit := do
  let name ← next
  if !((← read).isTemplateName name && (← peek).kind = .less) then failure
  templateList room name
  require .scope

/-- Whether a scope comes first. -/
def scopeAhead (room : Nat) : Scan Unit := do
  let start ← get
  let first ← next
  if first.kind = .scope then return
  if first.kind.isIdentifier && (← peek).kind = .scope then return
  set start
  templateScopeAhead room

/-- A type with its template arguments, then `=` and an opening brace. -/
def typedListAhead (room : Nat) : Scan Unit := do
  let name ← next
  if !name.isTypeName then failure
  templateList room name
  require .assign
  require .openBrace

/-! ## Declarations -/

/-- A type and a name, then an initializer, the end of the declaration or another name.  With
parentheses after the name it is a variable unless a function body or an attribute follows. -/
def variableAhead (room : Nat) : Scan Unit := do
  skipIf Token.isAccessModifier
  typeAhead room
  requireIdentifier
  match (← next).kind with
  | .assign | .semicolon | .comma => return
  | .openParen =>
      update (skipGroup? 0)
      let after := (← peek).kind
      if after = .openBrace || after.isIdentifier || after.isEnd then failure
  | _ => failure

/-- A type, a name and a brace, then an accessor or the closing brace. -/
def propertyAhead (room : Nat) : Scan Unit := do
  skipIf Token.isAccessModifier
  typeAhead room
  requireIdentifier
  require .openBrace
  let token ← peek
  if !(token.kind = .closeBrace || token.isWord .get || token.isWord .set) then failure

/-- A constructor or a destructor. -/
def constructorAhead : Scan Unit := do
  let first ← next
  if !(first.kind = .tilde || first.kind.isIdentifier && (← peek).kind = .openParen) then failure

/-- A constructor, a destructor or a method with a body. -/
def methodAhead (room : Nat) : Scan Unit := do
  skipIf Token.isAccessModifier
  if ← passes constructorAhead then return
  typeAhead room
  requireIdentifier
  require .openParen
  update (skipGroup? 0)
  skipKind .const
  modify fun tokens => tokens.dropWhile (·.hasRole .methodAttribute)
  require .openBrace

/-! ## Expressions -/

/-- `function`, a parenthesized group and an opening brace. -/
def lambdaAhead : Scan Unit := do
  if !(← peek).isWord .function then failure
  skip
  require .openParen
  update (skipGroup? 0)
  require .openBrace

/-- A scoped name before a parenthesis. -/
def callAhead : Scan Unit := do
  skipKind .scope
  modify skipScopes
  requireIdentifier
  require .openParen

/-- The last name of a path that goes on from a name, and the tokens after it.  A path that breaks
off behind a scope mark ends with the name before the mark, and that mark is passed. -/
def pathEnd : Token → List Token → Token × List Token
  | last, separator :: name :: rest =>
      if separator.kind = .scope then
        if name.kind.isIdentifier then pathEnd name rest else (last, name :: rest)
      else (last, separator :: name :: rest)
  | last, [separator] => if separator.kind = .scope then (last, []) else (last, [separator])
  | last, [] => (last, [])

/-- A name with empty brackets, or a template name with an argument list: the type of a value that
is being constructed. -/
def constructionAhead : Scan Unit := do
  skipKind .scope
  let name ← next
  let setting ← read
  let rest ← get
  let (last, after) :=
    if name.kind.isIdentifier then pathEnd name rest else (name, name :: rest)
  let first := (after.headD setting.finish).kind
  let second := (after.tail.headD setting.finish).kind
  if !(last.isTypeName &&
      (first = .openBracket && second = .closeBracket ||
        setting.isTemplateName last && first = .less)) then
    failure

/-! ## Asking -/

namespace Parse

/-- Whether a scan from here succeeds. -/
def sees (scan : Scan Unit) : Parse Bool := do
  return ((scan (← read)).run (← ahead)).isSome

/-- The tokens behind what a scan from here passes. -/
def tokensBehind (scan : Scan Unit) : Parse (Option (List Token)) := do
  return ((scan (← read)).run (← ahead)).map (·.2)

end Parse

end ScriptSyntax.Grammar
