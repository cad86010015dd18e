import ScriptSyntax.Grammar.Declaration

/-!
# Scripts

A script is a row of declarations; a broken one is passed over.  A namespace holds a script in
braces and takes a level of room.  One that is named by a path is a namespace for each name of the
path, each of them alone in the script of the one before.
-/

namespace ScriptSyntax.Grammar

/-- From the brace behind the path of a namespace on; nothing if there is no such brace. -/
def namespaceOpening (tokens : List Token) : List Token :=
  match skipScopes tokens with
  | name :: brace :: rest =>
      if name.kind.isIdentifier && brace.kind = .openBrace then brace :: rest else []
  | _ => []

theorem namespaceOpening_suffix (tokens : List Token) : namespaceOpening tokens <:+ tokens := by
  unfold namespaceOpening
  split
  · rename_i name brace rest hskipped
    have hrest : brace :: rest <:+ tokens := by
      refine List.IsSuffix.trans ?_ (skipScopes_suffix tokens)
      rw [hskipped]
      exact List.suffix_cons _ _
    split
    · exact hrest
    · exact List.nil_suffix
  · exact List.nil_suffix

namespace Parse

/-! ## Namespaces -/

/-- The names of a path, and the body inside the namespace of the last one. -/
def namespacePath (body : Parse Unit) : Nat → Parse Unit
  | 0 => return
  | count + 1 => do
      identifier
      if ← nextIs .scope then
        cover
        node .script (node .namespace_ (namespacePath body count))
      else
        let _ ← require .openBrace
        body

/-- The keyword.  Where a modifier stands in its place, the modifier is kept in the tree. -/
def namespaceKeyword : Parse Unit := do
  if ← nextIs (.keyword .namespace_) then cover
  else
    reportExpected (.expectedKind (.keyword .namespace_))
    identifier
    interrupt

def namespaceClosing (opening : List Token) : Parse Unit := do
  if ← nextIs .closeBrace then cover
  else
    let token ← peek
    if token.kind.isEnd then diagnose .error .unexpectedEndOfFile token
    else reportExpected (.expectedKind .closeBrace)
    failInside .namespaceBody opening

/-- The braces belong to the namespace of the first name. -/
def namespaceBody (body : Parse Unit) : Parse Unit :=
  node .namespace_ do
    namespaceKeyword
    let opening := namespaceOpening (← ahead)
    if let some brace := opening.head? then widen brace.span
    namespacePath body ((← ahead).length + 1)
    namespaceClosing opening

/-! ## Scripts -/

/-- The declaration that starts here.  Its kind is told by the first token behind its modifiers,
where `behind` starts. -/
def scriptItem (room : Nat) (nested : Parse Unit) (behind : List Token) : Parse Unit := do
  let first := behind.headD (← read).finish
  match first.kind with
  | .keyword .import_ => importDeclaration room
  | .keyword .enum => enumDeclaration
  | .keyword .typedef => typedefDeclaration
  | .keyword .class_ => classDeclaration room
  | .keyword .mixin => mixinDeclaration room
  | .keyword .interface => interfaceDeclaration room
  | .keyword .funcdef => funcdefDeclaration room
  | .keyword .namespace_ => nested
  | .keyword .const | .keyword .auto | .scope => globalMember room
  | .semicolon => skip
  | kind =>
      if first.isTypeName then globalMember room
      else
        goTo behind
        fail (if kind = .unterminatedString then .unterminatedString else .unexpectedKind kind)

/-- One declaration; says whether the script goes on. -/
def scriptStep (room : Nat) (inBraces : Bool) (nested : Parse Unit) : Parse Bool := do
  let behind := (← ahead).dropWhile (·.hasRole .declarationModifier)
  let first := (behind.headD (← read).finish).kind
  if first.isEnd || inBraces && first = .closeBrace then return false
  recovering inBraces (scriptItem room nested behind)
  return true

def scriptBody (room : Nat) (inBraces : Bool) (nested : Parse Unit) : Parse Unit :=
  node .script (repeatRule (scriptStep room inBraces nested))

def namespaceDeclaration : Nat → Parse Unit
  | 0 => tooDeep .namespace_
  | room + 1 =>
      deferred fun _ => namespaceBody (scriptBody room true (namespaceDeclaration room))

def script (room : Nat) : Parse Unit :=
  scriptBody room false (namespaceDeclaration room)

end Parse

end ScriptSyntax.Grammar
