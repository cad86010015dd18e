import ScriptSyntax.Grammar.Recovery
import ScriptSyntax.Grammar.Signature
import ScriptSyntax.Grammar.Variable

/-!
# Declarations

What a script declares, except its namespaces.  The bodies of functions are captured.  A class goes
on behind a broken member; everything else ends at the first error.
-/

namespace ScriptSyntax.Grammar

/-- Where a property is declared. -/
inductive PropertyPlace
  | script | classBody | interface
  deriving DecidableEq

/-- The end of the members of a class or an interface. -/
def endsMembers (token : Token) : Bool :=
  token.kind = .closeBrace || token.kind.isEnd

namespace Parse

/-- A keyword, on which the node is anchored. -/
def anchorRequired (keyword : Keyword) : Parse Unit := do
  anchor (← require (.keyword keyword))

def sharedModifiers : Parse Unit :=
  whileNext (fun token => token.isWord .shared || token.isWord .external) identifier

/-- An identifier has to come next; it stays where it is. -/
def expectIdentifier : Parse Unit := do
  unless (← peek).kind.isIdentifier do failExpected .expectedIdentifier

/-! ## Imports, enumerations and aliases -/

def importDeclaration (room : Nat) : Parse Unit :=
  node .import_ do
    anchorRequired .import_
    functionSignature room
    if (← peek).isWord .from_ then cover
    else failExpected (.expected ContextualWord.from_.canonical)
    if (← peek).kind.isString then leaf .constant else failExpected .expectedString
    coverRequired .semicolon

/-- One enumerator; says whether a comma follows it. -/
def enumerator : Parse Bool := do
  if ← nextIs .closeBrace then return false
  expectIdentifier
  identifier
  if ← nextIs .assign then capturedInitializer
  if ← nextIs .comma then
    skip
    return true
  else return false

def enumDeclaration : Parse Unit :=
  node .enum do
    sharedModifiers
    anchorRequired .enum
    expectIdentifier
    node .dataType identifier
    match (← peek).kind with
    | .semicolon => mark
    | .openBrace =>
        skip
        repeatRule enumerator
        coverRequired .closeBrace
    | _ => failExpected (.expectedOneOfKinds [.openBrace, .semicolon])

/-- Only a primitive type can be given another name. -/
def typedefDeclaration : Parse Unit :=
  node .typedef do
    anchorRequired .typedef
    let type := (← peek).kind
    if !type.isPrimitiveType || type = .keyword .void then fail (.unexpectedKind type)
    leaf .dataType
    identifier
    coverRequired .semicolon

def funcdefDeclaration (room : Nat) : Parse Unit :=
  node .funcdef do
    sharedModifiers
    anchorRequired .funcdef
    returnType room
    identifier
    parameterList room
    coverRequired .semicolon

/-! ## Functions -/

/-- A body, or the semicolon of a function that is defined elsewhere. -/
def functionBody : Parse Unit := do
  if ← nextIs .semicolon then mark else capturedBlock

def globalFunction (room : Nat) : Parse Unit :=
  node .function do
    sharedModifiers
    returnType room
    identifier
    parameterList room
    methodAttributes
    functionBody

/-- Constructors and destructors have no return type. -/
def method (room : Nat) : Parse Unit :=
  node .function do
    accessModifier
    if ← nextIs .tilde then mark
    else unless (← peekSecond).kind = .openParen do returnType room
    identifier
    parameterList room
    markIf .const
    methodAttributes
    functionBody

def interfaceMethod (room : Nat) : Parse Unit :=
  node .function do
    returnType room
    identifier
    parameterList room
    markIf .const
    coverRequired .semicolon

/-! ## Properties -/

def accessor (place : PropertyPlace) : Parse Unit :=
  node .virtualProperty do
    identifier
    if place ≠ .script then markIf .const
    if place = .classBody then methodAttributes
    if ← nextIs .semicolon then cover
    else if place = .interface then failExpected (.expectedKind .semicolon)
    else if ← nextIs .openBrace then capturedBlock
    else failExpected (.expectedEitherKind .semicolon .openBrace)

def property (room : Nat) (place : PropertyPlace) : Parse Unit :=
  node .virtualProperty do
    if place ≠ .script then accessModifier
    returnType room
    identifier
    let _ ← require .openBrace
    repeatRule do
      let token ← peek
      if token.kind = .closeBrace then
        cover
        return false
      if !token.hasRole .accessor then
        failExpected (.expectedOneOf [ContextualWord.get.canonical, ContextualWord.set.canonical,
          TokenKind.closeBrace.describe])
      accessor place
      return true

/-! ## Interfaces and classes -/

def baseName (room : Nat) : Parse Unit :=
  node .identifier do
    scope room
    identifier

/-- A name and a semicolon, or a name, perhaps bases, and members in braces. -/
def namedMembers (room : Nat) (member : Parse Unit) : Parse Unit := do
  identifier
  if ← nextIs .semicolon then mark
  else
    if ← nextIs .colon then
      skip
      commaSeparated (baseName room)
    let _ ← require .openBrace
    whileNext (fun token => !endsMembers token) member
    coverRequired .closeBrace

def interfaceMember (room : Nat) : Parse Unit := do
  if ← sees (propertyAhead room) then property room .interface
  else if ← nextIs .semicolon then skip
  else interfaceMethod room

def interfaceDeclaration (room : Nat) : Parse Unit :=
  node .interface do
    sharedModifiers
    anchorRequired .interface
    namedMembers room (interfaceMember room)

def classMember (room : Nat) : Parse Unit := do
  if ← nextIs (.keyword .funcdef) then funcdefDeclaration room
  else if ← sees (methodAhead room) then method room
  else if ← sees (propertyAhead room) then property room .classBody
  else if ← sees (variableAhead room) then memberVariable room
  else if ← nextIs .semicolon then skip
  else failExpected .expectedMethodOrProperty

/-- A handle mark before the name makes every variable of the class a handle. -/
def classDeclaration (room : Nat) : Parse Unit :=
  node .class_ do
    whileNext (·.hasRole .declarationModifier) identifier
    anchorRequired .class_
    if (← read).options.implicitHandles && (← nextIs .handle) then anchor (← next)
    namedMembers room (recovering true (classMember room))

def mixinDeclaration (room : Nat) : Parse Unit :=
  node .mixin do
    anchorRequired .mixin
    classDeclaration room

/-- A property, a variable or a function. -/
def globalMember (room : Nat) : Parse Unit := do
  if ← sees (propertyAhead room) then property room .script
  else if ← sees (variableAhead room) then globalVariable room
  else globalFunction room

end Parse

end ScriptSyntax.Grammar
