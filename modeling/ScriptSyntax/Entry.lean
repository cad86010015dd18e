import ScriptSyntax.Grammar.Script
import ScriptSyntax.Grammar.Statement

/-!
# Entries

What a source can be parsed as.  Bodies and initializers that were captured while a script was
parsed are parsed on their own later, from where they start.
-/

namespace ScriptSyntax

open Grammar Grammar.Parse

inductive Entry
  | script
  /-- A function that an application registers. -/
  | functionSignature
  /-- A list factory that an application registers, with the pattern of its lists. -/
  | listFactorySignature
  | expression
  | statementBlock (start : Nat)
  | initializer (start : Nat)
  | dataType (ofReturn : Bool)
  /-- A template that an application registers. -/
  | template
  /-- A property that an application registers. -/
  | property
  deriving DecidableEq

/-- What a parse answers: a tree, which is partial if errors are reported, and the reports. -/
structure Outcome where
  root : Node
  diagnostics : Diagnostics

namespace Grammar.Parse

def expectEnd : Parse Unit := do
  unless (← peek).kind.isEnd do failExpected (.expectedKind .endOfSource)

/-- A name and the names of its parameters, each perhaps behind `class`. -/
def template : Parse Unit :=
  node .undefined do
    identifier
    let _ ← require .less
    commaSeparated do
      if ← nextIs (.keyword .class_) then skip
      identifier
    let _ ← require .greater

/-- A type and a name; `&` between them says that the property is held by reference. -/
def registeredProperty (room : Nat) : Parse Unit :=
  node .declaration do
    dataType room {}
    markIf .ampersand
    scope room
    identifier

end Grammar.Parse

namespace Entry

/-- Where parsing starts. -/
def start : Entry → Nat
  | statementBlock start | initializer start => start
  | _ => 0

/-- Whether an application is the one that declares. -/
def ofApplication (entry : Entry) : Bool :=
  entry = functionSignature || entry = listFactorySignature

def rule (room : Nat) : Entry → Parse Unit
  | script => Parse.script room
  | functionSignature => do
      Parse.functionSignature room
      expectEnd
  | listFactorySignature => do
      node .function do
        signature room
        listPattern room
      expectEnd
  | expression => Parse.expression (valueRules room)
  | statementBlock _ => block (blockRules room)
  | initializer _ => Parse.initializer (valueRules room)
  | dataType ofReturn => do
      node .dataType do
        Parse.dataType room { anyType := true, auto := true }
        if ofReturn then typeModifier false
      expectEnd
  | template => do
      Parse.template
      expectEnd
  | property => do
      registeredProperty room
      expectEnd

def setting (entry : Entry) (options : Options) (source : Source) : Setting :=
  ⟨source, options, .ofSource source, .endAt (max entry.start source.size), entry.ofApplication⟩

/-- The session after the rule of the entry has run. -/
def session (entry : Entry) (options : Options) (source : Source) : Session :=
  (entry.rule options.maxDepth (entry.setting options source)
    ⟨source.tokensFrom entry.start, {}, .empty .undefined⟩).2

def parse (entry : Entry) (options : Options) (source : Source) : Outcome :=
  let session := entry.session options source
  ⟨session.building.children.headD (.empty .undefined), session.diagnostics⟩

end Entry

end ScriptSyntax
