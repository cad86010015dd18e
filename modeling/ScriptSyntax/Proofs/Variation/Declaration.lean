import ScriptSyntax.Proofs.Variation.Type

/-!
# Declarations under two options

Of the options, declarations only read whether classes may be held by implicit handles.
-/

namespace ScriptSyntax.Grammar.Variation

open Parse

set_option synthInstance.maxSize 20000

variable {V : Variation} [hlevel : Fact V.level] {bound room : Nat}

/-! ## Variables -/

instance {initializer initializer' : Parse Unit} [Advances initializer]
    [V.Agrees bound initializer initializer'] :
    V.Agrees bound (variableNames initializer) (variableNames initializer') := by
  unfold variableNames
  infer_instance

instance : V.Agrees bound laterInitializer laterInitializer := by
  unfold laterInitializer
  infer_instance

instance : V.Agrees bound accessModifier accessModifier := by
  unfold accessModifier
  infer_instance

instance : V.Agrees bound (globalVariable room) (globalVariable room) :=
  .node (by decide) inferInstance

instance : V.Agrees bound (memberVariable room) (memberVariable room) :=
  .node (by decide) inferInstance

/-! ## Imports, enumerations and aliases -/

instance (keyword : Keyword) :
    V.Agrees bound (anchorRequired keyword) (anchorRequired keyword) := by
  unfold anchorRequired
  infer_instance

instance : V.Agrees bound sharedModifiers sharedModifiers := by
  unfold sharedModifiers
  infer_instance

instance : V.Agrees bound expectIdentifier expectIdentifier := by
  unfold expectIdentifier
  infer_instance

instance : V.Agrees bound (importDeclaration room) (importDeclaration room) := by
  have hleaf : V.Agrees bound (leaf .constant) (leaf .constant) := agrees_leaf (by decide)
  exact .node (by decide) inferInstance

instance : V.Agrees bound enumerator enumerator := by
  unfold enumerator
  infer_instance

instance : V.Agrees bound enumDeclaration enumDeclaration := by
  have hname : V.Agrees bound (node .dataType identifier) (node .dataType identifier) :=
    .node (by decide) inferInstance
  have hbody (kind : TokenKind) : V.Agrees bound
      (match kind with
        | .semicolon => mark
        | .openBrace => do
            skip
            repeatRule enumerator
            coverRequired .closeBrace
        | _ => failExpected (.expectedOneOfKinds [.openBrace, .semicolon]))
      (match kind with
        | .semicolon => mark
        | .openBrace => do
            skip
            repeatRule enumerator
            coverRequired .closeBrace
        | _ => failExpected (.expectedOneOfKinds [.openBrace, .semicolon])) := by
    split <;> infer_instance
  exact .node (by decide) inferInstance

instance : V.Agrees bound typedefDeclaration typedefDeclaration := by
  have hleaf : V.Agrees bound (leaf .dataType) (leaf .dataType) := agrees_leaf (by decide)
  exact .node (by decide) inferInstance

instance : V.Agrees bound (funcdefDeclaration room) (funcdefDeclaration room) :=
  .node (by decide) inferInstance

/-! ## Functions and properties -/

instance : V.Agrees bound functionBody functionBody := by
  unfold functionBody
  infer_instance

instance : V.Agrees bound (globalFunction room) (globalFunction room) :=
  .node (by decide) inferInstance

instance : V.Agrees bound (method room) (method room) :=
  .node (by decide) inferInstance

instance : V.Agrees bound (interfaceMethod room) (interfaceMethod room) :=
  .node (by decide) inferInstance

instance (place : PropertyPlace) : V.Agrees bound (accessor place) (accessor place) :=
  .node (by decide) inferInstance

instance (place : PropertyPlace) : V.Agrees bound (property room place) (property room place) :=
  .node (by decide) inferInstance

/-! ## Interfaces and classes -/

instance : V.Agrees bound (baseName room) (baseName room) :=
  .node (by decide) inferInstance

instance {member : Parse Unit} [Advances member] [V.Agrees bound member member] :
    V.Agrees bound (namedMembers room member) (namedMembers room member) := by
  unfold namedMembers
  infer_instance

instance : V.Agrees bound (interfaceMember room) (interfaceMember room) := by
  unfold interfaceMember
  infer_instance

instance : V.Agrees bound (interfaceDeclaration room) (interfaceDeclaration room) :=
  .node (by decide) inferInstance

instance : V.Agrees bound (classMember room) (classMember room) := by
  unfold classMember
  infer_instance

instance : V.Agrees bound (classDeclaration room) (classDeclaration room) := by
  refine .node (by decide) (.bind inferInstance fun _ => .bind inferInstance fun _ => .read ?_)
  rw [V.handles_eq]
  infer_instance

instance : V.Agrees bound (mixinDeclaration room) (mixinDeclaration room) :=
  .node (by decide) inferInstance

instance : V.Agrees bound (globalMember room) (globalMember room) := by
  unfold globalMember
  infer_instance

/-! ## Namespaces -/

variable {nested : Parse Unit} [Advances nested] [V.Agrees bound nested nested]

instance (count : Nat) :
    V.Agrees bound (namespacePath nested count) (namespacePath nested count) := by
  have hname : Fact (NodeKind.namespace_ ≠ .namedArgument) := ⟨by decide⟩
  have hscript : Fact (NodeKind.script ≠ .namedArgument) := ⟨by decide⟩
  induction count with
  | zero => exact inferInstanceAs (V.Agrees bound (pure ()) (pure ()))
  | succ count ih =>
      unfold namespacePath
      infer_instance

instance : V.Agrees bound namespaceKeyword namespaceKeyword := by
  unfold namespaceKeyword
  infer_instance

instance (opening : List Token) [Fact (V.Fine opening)] :
    V.Agrees bound (namespaceClosing opening) (namespaceClosing opening) := by
  unfold namespaceClosing
  infer_instance

instance : V.Agrees bound (namespaceBody nested) (namespaceBody nested) := by
  refine .node (by decide) (.bind inferInstance fun _ => .from_start fun start hstart => ?_)
  have hfine : Fact (V.Fine (namespaceOpening start)) :=
    ⟨hstart.suffix (namespaceOpening_suffix start)⟩
  dsimp only
  split
  · infer_instance
  · infer_instance

/-! ## Scripts -/

instance (behind : List Token) [Fact (V.Fine behind)] :
    V.Agrees bound (scriptItem room nested behind) (scriptItem room nested behind) := by
  refine .read ?_
  have hfinish : V.right.finish = V.left.finish := rfl
  rw [hfinish]
  dsimp only
  generalize behind.headD V.left.finish = first
  have hgoing (message : Message) : V.Agrees bound
      (do
        goTo behind
        fail message : Parse Unit)
      (do
        goTo behind
        fail message) := .bind_anywhere inferInstance fun _ _ => inferInstance
  generalize first.kind = kind
  split <;> infer_instance

instance (inBraces : Bool) :
    V.Agrees bound (scriptStep room inBraces nested) (scriptStep room inBraces nested) := by
  refine .from_start fun start hstart => ?_
  have hfine : Fact (V.Fine (start.dropWhile (·.hasRole .declarationModifier))) :=
    ⟨hstart.suffix (List.dropWhile_suffix _)⟩
  refine .read ?_
  have hfinish : V.right.finish = V.left.finish := rfl
  rw [hfinish]
  exact .ite _ inferInstance (.bind_anywhere inferInstance fun _ _ => inferInstance)

instance (inBraces : Bool) :
    V.Agrees bound (scriptBody room inBraces nested) (scriptBody room inBraces nested) :=
  .node (by decide) inferInstance

instance : V.Agrees bound (namespaceDeclaration room) (namespaceDeclaration room) := by
  induction room with
  | zero => exact agrees_tooDeep (by decide)
  | succ room ih =>
      unfold namespaceDeclaration
      infer_instance

instance : V.Agrees bound (script room) (script room) := by
  unfold script
  infer_instance

end ScriptSyntax.Grammar.Variation
