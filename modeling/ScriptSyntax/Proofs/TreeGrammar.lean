import Mathlib
import ScriptSyntax.Entry

/-!
# The grammar of trees

Which children a node has is told by a form: the node's kind together with the place it stands in,
since the children of a function, say, are others in a class than in an interface.  The children
of a node of one form are a row of forms, described by a regular expression, and a tree follows a
form if every node in it has such a row below it.
-/

namespace ScriptSyntax

inductive Form
  -- leaves.
  | mark | identifier | typeName | constantPart | capturedExpression | capturedAssignment
  | capturedBlock
  -- types and signatures.
  | type | modifier | scope | parameterList
  -- expressions.
  | expression | condition | assignment | term | preOperator | operator | value | postOperator
  | constant | constructCall | functionCall | variableAccess | argList | namedArgument | cast
  | initList | lambda
  -- statements.
  | localVariable | block | if_ | while_ | doWhile | for_ | switch | case_ | return_ | break_
  | continue_ | tryCatch | expressionStatement
  -- declarations.
  | script | namespace_ | import_ | importedFunction | enum | enumName | typedef | funcdef
  | globalFunction | method | interfaceMethod | property (place : Grammar.PropertyPlace)
  | accessor (place : Grammar.PropertyPlace) | interface | class_ | mixin | baseName
  | globalVariable | memberVariable
  deriving DecidableEq

/-- A row of nodes. -/
abbrev Row := RegularExpression Form

namespace Row

instance : Coe Form Row := ⟨.char⟩

def maybe (row : Row) : Row := row + 1

def many (row : Row) : Row := row.star

def atLeastOne (row : Row) : Row := row * row.star

/-- One node of any of the forms. -/
def oneOf : List Form → Row
  | [] => 0
  | form :: rest => form + oneOf rest

end Row

namespace Form

open Row

def kind : Form → NodeKind
  | mark => .undefined
  | identifier | baseName => .identifier
  | typeName | type | modifier | enumName => .dataType
  | constantPart | constant => .constant
  | capturedExpression | expression => .expression
  | capturedAssignment | assignment => .assignment
  | capturedBlock | block => .statementBlock
  | scope => .scope
  | parameterList => .parameterList
  | condition => .condition
  | term => .exprTerm
  | preOperator => .exprPreOp
  | operator => .exprOperator
  | value => .exprValue
  | postOperator => .exprPostOp
  | constructCall => .constructCall
  | functionCall => .functionCall
  | variableAccess => .variableAccess
  | argList => .argList
  | namedArgument => .namedArgument
  | cast => .cast
  | initList => .initList
  | lambda | importedFunction | globalFunction | method | interfaceMethod => .function
  | localVariable | globalVariable | memberVariable => .declaration
  | if_ => .if_
  | while_ => .while_
  | doWhile => .doWhile
  | for_ => .for_
  | switch => .switch
  | case_ => .case_
  | return_ => .return_
  | break_ => .break_
  | continue_ => .continue_
  | tryCatch => .tryCatch
  | expressionStatement => .expressionStatement
  | script => .script
  | namespace_ => .namespace_
  | import_ => .import_
  | enum => .enum
  | typedef => .typedef
  | funcdef => .funcdef
  | property _ | accessor _ => .virtualProperty
  | interface => .interface
  | class_ => .class_
  | mixin => .mixin

/-- What may stand behind a type: brackets, or a handle mark and perhaps `const`. -/
def suffix : Row := mark * maybe mark

/-- A parameter of a function. -/
def parameter : Row := type * modifier * maybe identifier * maybe capturedExpression

/-- A name of a declaration, whose initializer is only captured. -/
def capturedName : Row := identifier * maybe capturedAssignment

/-- What a variable may be initialized with. -/
def initializer : Row := oneOf [argList, assignment, initList]

/-- A name of a local declaration with its initializer. -/
def localName : Row := identifier * maybe initializer

/-- What a statement may be. -/
def statement : Row :=
  oneOf [block, if_, for_, while_, doWhile, switch, return_, break_, continue_, tryCatch,
    expressionStatement]

/-- What may stand in a block. -/
def blockItem : Row := localVariable + statement

/-- The type of a lambda's parameter. -/
def lambdaType : Row := maybe (type * modifier)

/-- What a script may declare. -/
def declaration : Row :=
  oneOf [import_, enum, typedef, class_, mixin, interface, funcdef, namespace_, property .script,
    globalVariable, globalFunction]

/-- What may be a member of a class. -/
def classMember : Row := oneOf [funcdef, method, property .classBody, memberVariable]

/-- What may be a member of an interface. -/
def interfaceMember : Row := oneOf [property .interface, interfaceMethod]

/-- The body of a function, or the mark of one that is defined elsewhere. -/
def functionBody : Row := oneOf [mark, capturedBlock]

/-- The children of a node. -/
def row : Form → Row
  | mark | identifier | typeName | constantPart | capturedExpression | capturedAssignment
  | capturedBlock | preOperator | operator | break_ | continue_ => 1
  | type => maybe mark * maybe scope * typeName * many type * many suffix
  | modifier => maybe (mark * maybe mark) * maybe mark * maybe mark
  | scope =>
      maybe mark * many (identifier * mark) * maybe (identifier * atLeastOne type * mark)
  | parameterList => many parameter
  | expression => term * many (operator * term)
  | condition => expression * maybe (assignment * assignment)
  | assignment => condition * maybe (operator * assignment)
  | term => many preOperator * value * many postOperator + type * initList + initList
  | value =>
      oneOf [mark, constructCall, lambda, functionCall, variableAccess, cast, constant, assignment]
  | postOperator => maybe (oneOf [identifier, functionCall, argList])
  | constant => many constantPart
  | constructCall => type * argList
  | functionCall => maybe scope * identifier * argList
  | variableAccess => maybe scope * identifier
  | argList => many (oneOf [assignment, namedArgument])
  | namedArgument => identifier * assignment
  | cast => type * assignment
  | initList => many (oneOf [assignment, initList, mark])
  | lambda =>
      lambdaType * maybe (identifier * many (lambdaType * identifier)) * capturedBlock
  | localVariable => type * atLeastOne localName
  | block => many blockItem
  | if_ => assignment * statement * maybe statement
  | while_ => assignment * statement
  | doWhile => statement * assignment
  | for_ =>
      (localVariable + expressionStatement) * expressionStatement * many expressionStatement *
        statement
  | switch => assignment * many case_
  | case_ => maybe expression * many blockItem * maybe break_
  | return_ => maybe assignment
  | tryCatch => block * block
  | expressionStatement => maybe assignment
  | script => many declaration
  | namespace_ => identifier * script
  | import_ => importedFunction * constantPart
  | importedFunction =>
      type * modifier * maybe scope * identifier * parameterList * maybe mark *
        many identifier
  | enum => many identifier * enumName * (mark + many capturedName)
  | enumName => identifier
  | typedef => typeName * identifier
  | funcdef => many identifier * type * modifier * identifier * parameterList
  | globalFunction =>
      many identifier * type * modifier * identifier * parameterList * many identifier *
        functionBody
  | method =>
      maybe mark * (mark + maybe (type * modifier)) * identifier * parameterList *
        maybe mark * many identifier * functionBody
  | interfaceMethod => type * modifier * identifier * parameterList * maybe mark
  | property .script => type * modifier * identifier * many (accessor .script)
  | property place => maybe mark * type * modifier * identifier * many (accessor place)
  | accessor .script => identifier * maybe capturedBlock
  | accessor .interface => identifier * maybe mark
  | accessor .classBody => identifier * maybe mark * many identifier * maybe capturedBlock
  | interface =>
      many identifier * identifier * (mark + many baseName * many interfaceMember)
  | class_ => many identifier * identifier * (mark + many baseName * many classMember)
  | mixin => class_
  | baseName => maybe scope * identifier
  | globalVariable => type * atLeastOne capturedName
  | memberVariable => maybe mark * type * atLeastOne capturedName

end Form

/-- The node is of the form's kind, and it and everything below it have rows of children that
their forms allow. -/
inductive Node.Follows : Node → Form → Prop
  | intro {node : Node} {form : Form} {forms : List Form} (kind : node.kind = form.kind)
      (row : forms ∈ form.row.matches') (children : List.Forall₂ Node.Follows node.children forms) :
      node.Follows form

/-- The nodes follow the forms of a row, one by one. -/
def Row.Fits (row : Row) (nodes : List Node) : Prop :=
  ∃ forms ∈ row.matches', List.Forall₂ Node.Follows nodes forms

end ScriptSyntax
