import ScriptSyntax.Vocabulary.Lexicon

/-!
# Keywords

The reserved words.  Word operators such as `and` are operators, and words that carry a meaning in
a few positions only are contextual words; neither is listed here.
-/

namespace ScriptSyntax

inductive Keyword
  | if_ | else_ | for_ | while_ | do_ | switch | case_ | default_ | break_ | continue_ | return_
  | try_ | catch_
  | class_ | interface | mixin | enum | typedef | funcdef | namespace_ | import_
  | const | auto
  | void | bool | int8 | int16 | int | int64 | uint8 | uint16 | uint | uint64 | float | double
  | true_ | false_ | null
  | cast
  | in_ | out | inout
  | private_ | protected_
  deriving DecidableEq

inductive KeywordCategory
  | controlFlow | declaration | typeQualifier | primitiveType | literal | expression
  | parameterModifier | accessModifier
  deriving DecidableEq

namespace KeywordCategory

def name : KeywordCategory → String
  | controlFlow => "ControlFlow"
  | declaration => "Declaration"
  | typeQualifier => "TypeQualifier"
  | primitiveType => "PrimitiveType"
  | literal => "Literal"
  | expression => "Expression"
  | parameterModifier => "ParameterModifier"
  | accessModifier => "AccessModifier"

end KeywordCategory

namespace Keyword

def entries : List Keyword :=
  [if_, else_, for_, while_, do_, switch, case_, default_, break_, continue_, return_,
    try_, catch_,
    class_, interface, mixin, enum, typedef, funcdef, namespace_, import_,
    const, auto,
    void, bool, int8, int16, int, int64, uint8, uint16, uint, uint64, float, double,
    true_, false_, null,
    cast,
    in_, out, inout,
    private_, protected_]

def name : Keyword → String
  | if_ => "If"
  | else_ => "Else"
  | for_ => "For"
  | while_ => "While"
  | do_ => "Do"
  | switch => "Switch"
  | case_ => "Case"
  | default_ => "Default"
  | break_ => "Break"
  | continue_ => "Continue"
  | return_ => "Return"
  | try_ => "Try"
  | catch_ => "Catch"
  | class_ => "Class"
  | interface => "Interface"
  | mixin => "Mixin"
  | enum => "Enum"
  | typedef => "Typedef"
  | funcdef => "FuncDef"
  | namespace_ => "Namespace"
  | import_ => "Import"
  | const => "Const"
  | auto => "Auto"
  | void => "Void"
  | bool => "Bool"
  | int8 => "Int8"
  | int16 => "Int16"
  | int => "Int"
  | int64 => "Int64"
  | uint8 => "UInt8"
  | uint16 => "UInt16"
  | uint => "UInt"
  | uint64 => "UInt64"
  | float => "Float"
  | double => "Double"
  | true_ => "True"
  | false_ => "False"
  | null => "Null"
  | cast => "Cast"
  | in_ => "In"
  | out => "Out"
  | inout => "InOut"
  | private_ => "Private"
  | protected_ => "Protected"

def canonical : Keyword → String
  | if_ => "if"
  | else_ => "else"
  | for_ => "for"
  | while_ => "while"
  | do_ => "do"
  | switch => "switch"
  | case_ => "case"
  | default_ => "default"
  | break_ => "break"
  | continue_ => "continue"
  | return_ => "return"
  | try_ => "try"
  | catch_ => "catch"
  | class_ => "class"
  | interface => "interface"
  | mixin => "mixin"
  | enum => "enum"
  | typedef => "typedef"
  | funcdef => "funcdef"
  | namespace_ => "namespace"
  | import_ => "import"
  | const => "const"
  | auto => "auto"
  | void => "void"
  | bool => "bool"
  | int8 => "int8"
  | int16 => "int16"
  | int => "int"
  | int64 => "int64"
  | uint8 => "uint8"
  | uint16 => "uint16"
  | uint => "uint"
  | uint64 => "uint64"
  | float => "float"
  | double => "double"
  | true_ => "true"
  | false_ => "false"
  | null => "null"
  | cast => "cast"
  | in_ => "in"
  | out => "out"
  | inout => "inout"
  | private_ => "private"
  | protected_ => "protected"

def aliases : Keyword → List String
  | int => ["int32"]
  | uint => ["uint32"]
  | _ => []

def category : Keyword → KeywordCategory
  | if_ | else_ | for_ | while_ | do_ | switch | case_ | default_ | break_ | continue_ | return_
  | try_ | catch_ => .controlFlow
  | class_ | interface | mixin | enum | typedef | funcdef | namespace_ | import_ => .declaration
  | const | auto => .typeQualifier
  | void | bool | int8 | int16 | int | int64 | uint8 | uint16 | uint | uint64 | float
  | double => .primitiveType
  | true_ | false_ | null => .literal
  | cast => .expression
  | in_ | out | inout => .parameterModifier
  | private_ | protected_ => .accessModifier

instance : Lexicon Keyword := ⟨entries, name, canonical, aliases⟩

theorem mem_entries (word : Keyword) : word ∈ (Lexicon.entries : List Keyword) := by
  cases word <;> decide

/-- The built-in value types, `void` among them. -/
def isPrimitiveType (word : Keyword) : Bool :=
  word.category = .primitiveType

end Keyword

end ScriptSyntax
