import ScriptSyntax.Vocabulary.Lexicon

/-!
# Contextual words

Words that are ordinary identifiers everywhere except in the few positions named by their roles.
-/

namespace ScriptSyntax

inductive ContextualWord
  | shared | external | final | abstract_ | override | explicit | property
  | get | set | function | from_ | ifHandleThenConst | repeat_ | repeatSame
  | this_ | super_
  deriving DecidableEq

inductive ContextualRole
  | declarationModifier | methodAttribute | accessor | fixedWord | receiver
  deriving DecidableEq

namespace ContextualRole

def entries : List ContextualRole :=
  [declarationModifier, methodAttribute, accessor, fixedWord, receiver]

def name : ContextualRole → String
  | declarationModifier => "DeclarationModifier"
  | methodAttribute => "MethodAttribute"
  | accessor => "Accessor"
  | fixedWord => "Syntax"
  | receiver => "Receiver"

end ContextualRole

namespace ContextualWord

def entries : List ContextualWord :=
  [shared, external, final, abstract_, override, explicit, property,
    get, set, function, from_, ifHandleThenConst, repeat_, repeatSame,
    this_, super_]

def name : ContextualWord → String
  | shared => "Shared"
  | external => "External"
  | final => "Final"
  | abstract_ => "Abstract"
  | override => "Override"
  | explicit => "Explicit"
  | property => "Property"
  | get => "Get"
  | set => "Set"
  | function => "Function"
  | from_ => "From"
  | ifHandleThenConst => "IfHandleThenConst"
  | repeat_ => "Repeat"
  | repeatSame => "RepeatSame"
  | this_ => "This"
  | super_ => "Super"

def canonical : ContextualWord → String
  | shared => "shared"
  | external => "external"
  | final => "final"
  | abstract_ => "abstract"
  | override => "override"
  | explicit => "explicit"
  | property => "property"
  | get => "get"
  | set => "set"
  | function => "function"
  | from_ => "from"
  | ifHandleThenConst => "if_handle_then_const"
  | repeat_ => "repeat"
  | repeatSame => "repeat_same"
  | this_ => "this"
  | super_ => "super"

def roles : ContextualWord → List ContextualRole
  | shared | external | abstract_ => [.declarationModifier]
  | final => [.declarationModifier, .methodAttribute]
  | override | explicit | property => [.methodAttribute]
  | get | set => [.accessor]
  | function | from_ | ifHandleThenConst | repeat_ | repeatSame => [.fixedWord]
  | this_ | super_ => [.receiver]

instance : Lexicon ContextualWord := ⟨entries, name, canonical, fun _ => []⟩

theorem mem_entries (word : ContextualWord) :
    word ∈ (Lexicon.entries : List ContextualWord) := by
  cases word <;> decide

def hasRole (word : ContextualWord) (role : ContextualRole) : Bool :=
  word.roles.contains role

end ContextualWord

end ScriptSyntax
