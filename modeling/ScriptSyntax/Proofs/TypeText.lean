import ScriptSyntax.Node
import ScriptSyntax.Options
import ScriptSyntax.Proofs.Words

/-!
# Types as data

A type apart from any text: what is written in it, in order.  Such a type is printed without any
blank but one between `const` and a word, and it is read back from the children of a node.
-/

namespace ScriptSyntax

/-! ## Names and types -/

def isPlainName (text : String) : Bool :=
  Lexeme.isWord text.toList && !Lexeme.isReserved text

def isPrimitiveName (text : String) : Bool :=
  (Lexicon.spelled text : Option Keyword).any Keyword.isPrimitiveType

/-- A word that is not reserved. -/
structure PlainName where
  text : String
  plain : isPlainName text = true
  deriving DecidableEq

inductive TypeName
  | plain (name : PlainName)
  | primitive (text : String) (h : isPrimitiveName text = true)
  deriving DecidableEq

def TypeName.text : TypeName → String
  | plain name => name.text
  | primitive text _ => text

def TypeName.takesArguments (options : Options) : TypeName → Bool
  | plain name => options.isTemplateType name.text
  | primitive _ _ => false

inductive TypeSuffix
  | brackets | handle | constHandle
  deriving DecidableEq

inductive TypeTree
  | mk (isConst rooted : Bool) (scopes : List PlainName) (name : TypeName)
      (arguments : List TypeTree) (suffixes : List TypeSuffix)

namespace TypeTree

mutual

/-- How deeply lists of template arguments nest in the type. -/
def height : TypeTree → Nat
  | ⟨_, _, _, _, arguments, _⟩ => listHeight arguments

/-- How deeply lists of template arguments nest, from a list of these arguments on. -/
def listHeight : List TypeTree → Nat
  | [] => 0
  | first :: rest => max (first.height + 1) (listHeight rest)

end

mutual

/-- Only the names of template types have arguments. -/
def fits (options : Options) : TypeTree → Bool
  | ⟨_, _, _, name, arguments, _⟩ =>
      (arguments.isEmpty || name.takesArguments options) && listFits options arguments

def listFits (options : Options) : List TypeTree → Bool
  | [] => true
  | first :: rest => first.fits options && listFits options rest

end

theorem height_lt_of_mem {tree : TypeTree} {trees : List TypeTree} (h : tree ∈ trees) :
    tree.height < listHeight trees := by
  induction trees with
  | nil => cases h
  | cons first rest ih =>
      rw [listHeight]
      rcases List.mem_cons.mp h with rfl | hrest
      · omega
      · have hlt := ih hrest
        omega

theorem fits_of_mem {options : Options} {tree : TypeTree} {trees : List TypeTree}
    (hfits : listFits options trees = true) (h : tree ∈ trees) : tree.fits options = true := by
  induction trees with
  | nil => cases h
  | cons first rest ih =>
      rw [listFits, Bool.and_eq_true] at hfits
      rcases List.mem_cons.mp h with rfl | hrest
      · exact hfits.1
      · exact ih hfits.2 hrest

end TypeTree

/-! ## Printing -/

def TypeSuffix.print : TypeSuffix → Source
  | brackets => ['[', ']']
  | handle => ['@']
  | constHandle => ['@', 'c', 'o', 'n', 's', 't']

/-- `const`, kept apart from a word behind it. -/
def printConst (isConst rooted : Bool) : Source :=
  if isConst then ['c', 'o', 'n', 's', 't'] ++ (if rooted then [] else [' ']) else []

def printNames (scopes : List PlainName) : Source :=
  scopes.flatMap fun name => name.text.toList ++ [':', ':']

def printScope (rooted : Bool) (scopes : List PlainName) : Source :=
  (if rooted then [':', ':'] else []) ++ printNames scopes

def printList : List Source → Source
  | [] => []
  | first :: rest => '<' :: (first ++ (rest.flatMap (',' :: ·) ++ ['>']))

def printSuffixes (suffixes : List TypeSuffix) : Source :=
  suffixes.flatMap TypeSuffix.print

namespace TypeTree

mutual

def print : TypeTree → Source
  | ⟨isConst, rooted, scopes, name, arguments, suffixes⟩ =>
      printConst isConst rooted ++ (printScope rooted scopes ++ (name.text.toList ++
        (printList (printEach arguments) ++ printSuffixes suffixes)))

def printEach : List TypeTree → List Source
  | [] => []
  | first :: rest => first.print :: printEach rest

end

end TypeTree

/-! ## Reading back -/

namespace Node

def readText (source : Source) (node : Node) : String :=
  String.ofList (node.text source)

def readPlainName (source : Source) (node : Node) : Option PlainName :=
  if h : isPlainName (node.readText source) then some ⟨_, h⟩ else none

def readTypeName (source : Source) (node : Node) : Option TypeName :=
  match node.token with
  | some .identifier => (node.readPlainName source).map .plain
  | some (.keyword _) =>
      if h : isPrimitiveName (node.readText source) then some (.primitive _ h) else none
  | _ => none

/-- Names, each with the scope mark behind it. -/
def readNames (source : Source) : List Node → Option (List PlainName)
  | [] => some []
  | [_] => none
  | name :: _ :: rest => do
      let first ← name.readPlainName source
      let names ← readNames source rest
      return first :: names

/-- Whether the scope starts with a mark, and the names in it. -/
def readScope (source : Source) : List Node → Option (Bool × List PlainName)
  | [] => some (false, [])
  | first :: rest =>
      if first.token = some .scope then (readNames source rest).map (true, ·)
      else (readNames source (first :: rest)).map (false, ·)

def readSuffixes : List Node → Option (List TypeSuffix)
  | [] => some []
  | [mark] =>
      if mark.token = some .openBracket then some [.brackets]
      else if mark.token = some .handle then some [.handle]
      else none
  | mark :: second :: rest =>
      if mark.token = some .openBracket then (readSuffixes (second :: rest)).map (.brackets :: ·)
      else if mark.token = some .handle then
        if second.token = some .const then (readSuffixes rest).map (.constHandle :: ·)
        else (readSuffixes (second :: rest)).map (.handle :: ·)
      else none

/-- The first element if it passes the test, and the elements behind it. -/
def takeIf {α : Type} (test : α → Bool) : List α → Option α × List α
  | [] => (none, [])
  | first :: rest => if test first then (some first, rest) else (none, first :: rest)

/-- The type that the children of a node spell, each given with the type that it would be on its
own: a `const` mark, a scope, the name, the arguments and the suffixes. -/
def assembleType (source : Source) (children : List (Node × Option TypeTree)) : Option TypeTree :=
  let (mark, children) := takeIf (fun child => child.1.token = some .const) children
  let (scope, children) := takeIf (fun child => child.1.kind = .scope) children
  match children with
  | [] => none
  | (name, _) :: children => do
      let (rooted, scopes) ← readScope source (scope.elim [] fun child => child.1.children)
      let name ← name.readTypeName source
      let isArgument (child : Node × Option TypeTree) : Bool := child.1.kind = .dataType
      let arguments ← (children.takeWhile isArgument).mapM Prod.snd
      let suffixes ← readSuffixes ((children.dropWhile isArgument).map Prod.fst)
      return ⟨mark.isSome, rooted, scopes, name, arguments, suffixes⟩

mutual

def readType (source : Source) : Node → Option TypeTree
  | ⟨_, _, _, children⟩ => assembleType source (children.zip (readTypes source children))

/-- What each of the nodes is read as. -/
def readTypes (source : Source) : List Node → List (Option TypeTree)
  | [] => []
  | first :: rest => first.readType source :: readTypes source rest

end

/-- The children that spell whether a type is `const`. -/
inductive SpellsConst : Bool → List Node → Prop
  | absent : SpellsConst false []
  | present {mark : Node} (htoken : mark.token = some .const) : SpellsConst true [mark]

/-- The children that spell a scope. -/
inductive SpellsScope (source : Source) : Bool → List PlainName → List Node → Prop
  | absent : SpellsScope source false [] []
  | present {scope : Node} {rooted : Bool} {scopes : List PlainName} (hkind : scope.kind = .scope)
      (htoken : scope.token = none) (hread : readScope source scope.children = some (rooted, scopes)) :
      SpellsScope source rooted scopes [scope]

/-- The child that spells the name of a type. -/
structure SpellsName (source : Source) (name : TypeName) (node : Node) : Prop where
  kind : node.kind = .dataType
  token : node.token ≠ some .const
  read : node.readTypeName source = some name

/-- The children that spell the arguments of a type. -/
structure SpellsList (source : Source) (arguments : List TypeTree) (nodes : List Node) : Prop where
  kind : ∀ node ∈ nodes, node.kind = .dataType
  read : nodes.map (readType source) = arguments.map some

/-- The children that spell the suffixes of a type. -/
structure SpellsSuffixes (suffixes : List TypeSuffix) (nodes : List Node) : Prop where
  kind : ∀ node ∈ nodes, node.kind = .undefined
  read : readSuffixes nodes = some suffixes

theorem readSuffixes_brackets {mark : Node} (h : mark.token = some .openBracket)
    (marks : List Node) :
    readSuffixes (mark :: marks) = (readSuffixes marks).map (.brackets :: ·) := by
  cases marks <;> simp [readSuffixes, h]

theorem readSuffixes_constHandle {mark second : Node} (h : mark.token = some .handle)
    (hsecond : second.token = some .const) (marks : List Node) :
    readSuffixes (mark :: second :: marks) = (readSuffixes marks).map (.constHandle :: ·) := by
  simp [readSuffixes, h, hsecond]

/-- No suffix starts with `const`. -/
theorem readSuffixes_handle {mark : Node} {marks : List Node} {suffixes : List TypeSuffix}
    (h : mark.token = some .handle) (hmarks : readSuffixes marks = some suffixes) :
    readSuffixes (mark :: marks) = some (.handle :: suffixes) := by
  cases marks with
  | nil =>
      cases hmarks
      simp [readSuffixes, h]
  | cons second rest =>
      have hsecond : second.token ≠ some .const := by
        intro hconst
        cases rest <;> simp [readSuffixes, hconst] at hmarks
      simp [readSuffixes, h, hsecond, hmarks]

theorem readTypes_eq_map (source : Source) (nodes : List Node) :
    readTypes source nodes = nodes.map (readType source) := by
  induction nodes with
  | nil => rfl
  | cons first rest ih => rw [readTypes, ih, List.map_cons]

theorem mapM_snd_some {nodes : List Node} {arguments : List TypeTree} {source : Source}
    (h : nodes.map (readType source) = arguments.map some) :
    (nodes.map fun node => (node, readType source node)).mapM Prod.snd = some arguments := by
  induction nodes generalizing arguments with
  | nil =>
      cases arguments with
      | nil => rfl
      | cons first rest => cases h
  | cons node nodes ih =>
      cases arguments with
      | nil => cases h
      | cons first rest =>
          obtain ⟨hfirst, hrest⟩ := List.cons.inj h
          simp only [List.map_cons, List.mapM_cons, ih hrest, hfirst]
          rfl

theorem takeWhile_append_of_kinds (first second : List (Node × Option TypeTree))
    (hfirst : ∀ child ∈ first, child.1.kind = .dataType)
    (hsecond : ∀ child ∈ second, child.1.kind = .undefined) :
    (first ++ second).takeWhile (fun child => child.1.kind = .dataType) = first ∧
      (first ++ second).dropWhile (fun child => child.1.kind = .dataType) = second := by
  have hnone : second.takeWhile (fun child => child.1.kind = .dataType) = [] ∧
      second.dropWhile (fun child => child.1.kind = .dataType) = second := by
    cases second with
    | nil => exact ⟨rfl, rfl⟩
    | cons child rest =>
        have hchild := hsecond child List.mem_cons_self
        simp [hchild]
  have hall : ∀ child ∈ first, decide (child.1.kind = .dataType) = true := by
    simpa using hfirst
  rw [List.takeWhile_append_of_pos hall, List.dropWhile_append_of_pos hall, hnone.1, hnone.2,
    List.append_nil]
  exact ⟨rfl, rfl⟩

/-- A node is read as the type whose parts its children spell. -/
theorem readType_of_parts {source : Source} {kind : NodeKind} {token : Option TokenKind}
    {span : Option Span} {isConst rooted : Bool} {scopes : List PlainName} {name : TypeName}
    {arguments : List TypeTree} {suffixes : List TypeSuffix}
    {marks scopeNodes listNodes suffixNodes : List Node} {nameNode : Node}
    (hconst : SpellsConst isConst marks) (hscope : SpellsScope source rooted scopes scopeNodes)
    (hname : SpellsName source name nameNode) (hlist : SpellsList source arguments listNodes)
    (hsuffixes : SpellsSuffixes suffixes suffixNodes) :
    readType source
        ⟨kind, token, span, marks ++ (scopeNodes ++ nameNode :: (listNodes ++ suffixNodes))⟩ =
      some ⟨isConst, rooted, scopes, name, arguments, suffixes⟩ := by
  have hzip (nodes : List Node) :
      nodes.zip (nodes.map (readType source)) = nodes.map fun node => (node, readType source node) := by
    induction nodes with
    | nil => rfl
    | cons node rest ih => rw [List.map_cons, List.zip_cons_cons, ih, List.map_cons]
  obtain ⟨hlisted, hbehind⟩ := takeWhile_append_of_kinds
    (listNodes.map fun node => (node, readType source node))
    (suffixNodes.map fun node => (node, readType source node))
    (by simpa using hlist.kind) (by simpa using hsuffixes.kind)
  have hfirst : (suffixNodes.map fun node => (node, readType source node)).map Prod.fst =
      suffixNodes := by
    rw [List.map_map]
    exact List.map_id suffixNodes
  have hnotScope : nameNode.kind ≠ .scope := by
    rw [hname.kind]
    decide
  rw [readType, readTypes_eq_map, hzip, assembleType]
  simp only [List.map_append, List.map_cons]
  cases hconst with
  | absent =>
      cases hscope with
      | absent =>
          simp [takeIf, hname.token, hnotScope, hname.read, readScope, hlisted, hbehind,
            mapM_snd_some hlist.read, hfirst, hsuffixes.read]
      | present hkind htoken hread =>
          simp [takeIf, htoken, hkind, hname.read, hread, hlisted, hbehind,
            mapM_snd_some hlist.read, hfirst, hsuffixes.read]
  | present hmark =>
      cases hscope with
      | absent =>
          simp [takeIf, hmark, hnotScope, hname.read, readScope, hlisted, hbehind,
            mapM_snd_some hlist.read, hfirst, hsuffixes.read]
      | present hkind htoken hread =>
          simp [takeIf, hmark, hkind, hname.read, hread, hlisted, hbehind,
            mapM_snd_some hlist.read, hfirst, hsuffixes.read]

end Node

end ScriptSyntax
