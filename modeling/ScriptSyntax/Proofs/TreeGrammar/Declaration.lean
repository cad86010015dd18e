import ScriptSyntax.Proofs.TreeGrammar.Statement

/-!
# Rows of declarations

The same for a script as a whole: its functions keep their bodies as captured blocks, its
variables their initializers as captured assignments.
-/

namespace ScriptSyntax

namespace Grammar.Parse

open Computability

section

set_option synthInstance.maxSize 2000

instance (keyword : Keyword) : Adds (anchorRequired keyword) 1 := by
  unfold anchorRequired
  exact Adds.mono inferInstance (by simp)

instance : Adds expectIdentifier 1 := by
  unfold expectIdentifier
  exact Adds.mono inferInstance (by simp)

instance : Adds sharedModifiers (Row.many Form.identifier) := by
  unfold sharedModifiers
  infer_instance

instance : Adds accessModifier (Row.maybe Form.mark) := by
  unfold accessModifier
  exact Adds.mono inferInstance (by simp)

/-! ## Variables -/

instance : Adds laterInitializer (Row.maybe Form.capturedAssignment) := by
  unfold laterInitializer
  exact Adds.mono inferInstance (by simp)

instance (room : Nat) : Adds (globalVariable room) Form.globalVariable := by
  unfold globalVariable
  exact .node .globalVariable rfl inferInstance (by simp [Form.row, Form.capturedName])

instance (room : Nat) : Adds (memberVariable room) Form.memberVariable := by
  unfold memberVariable
  exact .node .memberVariable rfl inferInstance
    (by simp [Form.row, Form.capturedName, mul_assoc])

/-! ## Imports, enumerations and aliases -/

instance (room : Nat) : Adds (importDeclaration room) Form.import_ := by
  unfold importDeclaration
  exact .node .import_ rfl inferInstance (by simp [Form.row])

instance : Turns enumerator Form.capturedName (Row.maybe Form.capturedName) := by
  unfold enumerator
  exact Turns.mono inferInstance (by simp [Form.capturedName]) (by simp [Form.capturedName])

instance : Adds enumDeclaration Form.enum := by
  have hname : Adds (node .dataType identifier) Form.enumName :=
    .node .enumName rfl inferInstance (by simp [Form.row])
  have hkind (kind : TokenKind) : Adds (match kind with
      | .semicolon => mark
      | .openBrace => do
          skip
          repeatRule enumerator
          coverRequired .closeBrace
      | _ => failExpected (.expectedOneOfKinds [.openBrace, .semicolon]))
      (Form.mark + Row.many Form.capturedName) := by
    split <;> exact Adds.mono inferInstance (by simp)
  unfold enumDeclaration
  exact .node .enum rfl inferInstance (by simp [Form.row, mul_assoc])

instance : Adds typedefDeclaration Form.typedef := by
  unfold typedefDeclaration
  exact .node .typedef rfl inferInstance (by simp [Form.row])

instance (room : Nat) : Adds (funcdefDeclaration room) Form.funcdef := by
  unfold funcdefDeclaration
  exact .node .funcdef rfl inferInstance (by simp [Form.row, mul_assoc])

/-! ## Functions and properties -/

instance : Adds functionBody Form.functionBody := by
  unfold functionBody
  exact Adds.mono inferInstance (by simp [Form.functionBody])

instance (room : Nat) : Adds (globalFunction room) Form.globalFunction := by
  unfold globalFunction
  exact .node .globalFunction rfl inferInstance (by simp [Form.row, mul_assoc])

instance (room : Nat) : Adds (method room) Form.method := by
  unfold method
  exact .node .method rfl inferInstance (by simp [Form.row, mul_assoc, ← Row.sup_mul])

instance (room : Nat) : Adds (interfaceMethod room) Form.interfaceMethod := by
  unfold interfaceMethod
  exact .node .interfaceMethod rfl inferInstance (by simp [Form.row, mul_assoc])

instance (place : PropertyPlace) : Adds (accessor place) (Form.accessor place) := by
  cases place <;> simp only [accessor, ne_eq, not_true_eq_false, not_false_eq_true, reduceCtorEq,
    ↓reduceIte] <;>
    exact .node (.accessor _) rfl inferInstance (by simp [Form.row, mul_assoc, sup_comm])

instance (room : Nat) (place : PropertyPlace) : Adds (property room place) (Form.property place) := by
  cases place <;> simp only [property, ne_eq, not_true_eq_false, not_false_eq_true, reduceCtorEq,
    ↓reduceIte] <;>
    exact .node (.property _) rfl inferInstance (by simp [Form.row, mul_assoc])

/-! ## Interfaces and classes -/

instance (room : Nat) : Adds (baseName room) Form.baseName := by
  unfold baseName
  exact .node .baseName rfl inferInstance (by simp [Form.row])

instance (room : Nat) (member : Parse Unit) (row : Row) [Adds member row] :
    Adds (namedMembers room member)
      (Form.identifier * (Form.mark + Row.many Form.baseName * Row.many row)) := by
  unfold namedMembers
  exact Adds.mono inferInstance (by simp)

instance (room : Nat) : Adds (interfaceMember room)
    (Row.maybe Form.interfaceMember) := by
  unfold interfaceMember
  exact Adds.mono inferInstance (by simp [Form.interfaceMember, le_sup_of_le_left])

instance (room : Nat) : Adds (interfaceDeclaration room) Form.interface := by
  unfold interfaceDeclaration
  exact .node .interface rfl inferInstance (by simp [Form.row, mul_assoc])

instance (room : Nat) : Adds (classMember room) (Row.maybe Form.classMember) := by
  unfold classMember
  exact Adds.mono inferInstance (by simp [Form.classMember, le_sup_of_le_left])

instance (room : Nat) : Adds (classDeclaration room) Form.class_ := by
  unfold classDeclaration
  exact .node .class_ rfl inferInstance (by simp [Form.row, mul_assoc])

instance (room : Nat) : Adds (mixinDeclaration room) Form.mixin := by
  unfold mixinDeclaration
  exact .node .mixin rfl inferInstance (by simp [Form.row])

instance (room : Nat) : Adds (globalMember room) Form.declaration := by
  unfold globalMember
  exact Adds.mono inferInstance (by simp [Form.declaration])

/-! ## Scripts -/

section Scripts

variable {setting : Setting} {session : Session} {body : Parse Unit}

/-- Each name of the path but the last stands before a script with a namespace in it, the last one
before the body.  Each of them is a token, so there is a round for every one. -/
theorem extends_namespacePath [Adds body Form.script] (hended : setting.Ended) (count : Nat)
    (hcount : session.ahead.length < count)
    (hclean : (namespacePath body count setting session).2.Clean) :
    Extends (fun _ => Form.namespace_.row) session (namespacePath body count setting session) := by
  induction count generalizing session with
  | zero => exact absurd hcount (Nat.not_lt_zero _)
  | succ count ih =>
      have hidentifier : Adds identifier Form.identifier := inferInstance
      have hname := hidentifier.extends_ setting session hended
      unfold namespacePath at hclean ⊢
      rw [bind_run] at hclean ⊢
      rcases hrun : identifier setting session with ⟨interruption | value, named⟩
      · rw [hrun] at hname hclean
        obtain ⟨value, nodes, hvalue, -⟩ := (hname hclean).added
        cases hvalue
      rw [hrun] at hname hclean
      dsimp only at hclean ⊢
      rw [nextIs_bind] at hclean ⊢
      split at hclean
      · rename_i hscope
        rw [if_pos hscope]
        obtain ⟨hkind, hahead⟩ := identifier_ok hrun
        have hsome : 0 < session.ahead.length := by
          refine List.length_pos_iff.mpr fun hnil => ?_
          rw [Setting.head, hnil, List.headD_nil, hended] at hkind
          cases hkind
        have hshort : named.ahead.tail.length < count := by
          rw [hahead, List.length_tail, List.length_tail]
          omega
        have hcover : Adds cover 1 := inferInstance
        have hallowed : {[Form.namespace_]} ≤ Form.script.row.matches' :=
          (Row.singleton_le_oneOf.mpr (by simp)).trans le_kstar
        let below (kind : NodeKind) : Session :=
          { named with ahead := named.ahead.tail, building := .empty kind }
        have hpath : Extends (fun _ => Form.namespace_.row) (below .namespace_)
            (namespacePath body count setting (below .namespace_)) := ih hshort hclean
        have hcovered := hcover.extends_ setting named hended hpath.clean
        have hnamespace : Extends (fun _ => Form.namespace_) (below .script)
            (node .namespace_ (namespacePath body count) setting (below .script)) :=
          extends_node .namespace_ rfl hpath le_rfl
        have hscript : Extends (fun _ => Form.script) (cover setting named).2
            (node .script (node .namespace_ (namespacePath body count)) setting
              (cover setting named).2) :=
          extends_node .script rfl hnamespace hallowed
        exact ((hname hcovered.clean).trans (hcovered.trans hscript)).mono fun _ => by
          simp [Form.row]
      · rename_i hscope
        rw [if_neg hscope]
        have hbody : Adds (do
            let _ ← require .openBrace
            body) _ := inferInstance
        have hrest := hbody.extends_ setting named hended hclean
        exact ((hname hrest.clean).trans hrest).mono fun _ => by simp [Form.row]

instance : Adds namespaceKeyword 1 := by
  have hidentifier : Adds identifier Form.identifier := inferInstance
  have hreport (message : Message) : Adds (do
      reportExpected message
      identifier
      (interrupt : Parse Unit)) 0 := by
    refine .reporting inferInstance fun _ setting session hended hclean => ?_
    rw [bind_run] at hclean
    have hname := hidentifier.extends_ setting session hended
    rcases hrun : identifier setting session with ⟨interruption | value, named⟩
    · rw [hrun] at hname hclean
      exact (hname hclean).clean
    · rw [hrun] at hname hclean
      exact (hname hclean).clean
  unfold namespaceKeyword
  exact Adds.mono inferInstance (by simp)

instance (opening : List Token) : Adds (namespaceClosing opening) 1 := by
  have hend (token : Token) : Adds (do
      diagnose .error .unexpectedEndOfFile token
      (failInside .namespaceBody opening : Parse Unit)) 0 :=
    .reporting inferInstance fun _ _ _ _ => clean_failInside
  have hother (message : Message) : Adds (do
      reportExpected message
      (failInside .namespaceBody opening : Parse Unit)) 0 :=
    .reporting inferInstance fun _ _ _ _ => clean_failInside
  unfold namespaceClosing
  exact Adds.mono inferInstance (by simp)

instance [Adds body Form.script] : Adds (namespaceBody body) Form.namespace_ := by
  have hpath : Adds (do namespacePath body ((← ahead).length + 1)) Form.namespace_.row :=
    ⟨fun _ _ hended hclean => extends_namespacePath hended _ (Nat.lt_succ_self _) hclean⟩
  have hclosed (opening : List Token) : Adds (do
      namespacePath body ((← ahead).length + 1)
      namespaceClosing opening) (Form.namespace_.row * 1) := by
    have hbind := hpath.bind fun _ => (inferInstance : Adds (namespaceClosing opening) 1)
    rwa [bind_assoc] at hbind
  have hopened (opening : List Token) : Adds (do
      if let some brace := opening.head? then widen brace.span
      namespacePath body ((← ahead).length + 1)
      namespaceClosing opening) Form.namespace_.row := by
    dsimp only
    split <;> exact Adds.mono inferInstance (by simp)
  unfold namespaceBody
  exact .node .namespace_ rfl inferInstance (by simp)

instance (room : Nat) (nested : Parse Unit) (behind : List Token) [Adds nested Form.namespace_] :
    Adds (scriptItem room nested behind) (Row.maybe Form.declaration) := by
  have hkind (first : Token) : Adds (match first.kind with
      | .keyword .import_ => importDeclaration room
      | .keyword .enum => enumDeclaration
      | .keyword .typedef => typedefDeclaration
      | .keyword .class_ => classDeclaration room
      | .keyword .mixin => mixinDeclaration room
      | .keyword .interface => interfaceDeclaration room
      | .keyword .funcdef => funcdefDeclaration room
      | .keyword .namespace_ => nested
      | .keyword .const | .keyword .auto | .scope => globalMember room
      | .semicolon => skip
      | kind => do
          if first.isTypeName then globalMember room
          else
            goTo behind
            fail (if kind = .unterminatedString then .unterminatedString
              else .unexpectedKind kind)) (Row.maybe Form.declaration) := by
    split <;> exact Adds.mono inferInstance (by simp [Form.declaration, le_sup_of_le_left])
  unfold scriptItem
  exact Adds.mono inferInstance (by simp)

instance (room : Nat) (inBraces : Bool) (nested : Parse Unit) [Adds nested Form.namespace_] :
    Adds (scriptBody room inBraces nested) Form.script := by
  unfold scriptBody scriptStep
  exact .node .script rfl inferInstance (by simp [Form.row])

end Scripts

theorem adds_namespaceDeclaration (room : Nat) :
    Adds (namespaceDeclaration room) Form.namespace_ := by
  induction room with
  | zero =>
      have hdeep : Adds (tooDeep .namespace_) 0 := inferInstance
      exact hdeep.mono (by simp)
  | succ room ih =>
      exact inferInstanceAs (Adds (deferred fun _ =>
        namespaceBody (scriptBody room true (namespaceDeclaration room))) _)

instance (room : Nat) : Adds (script room) Form.script := by
  have hnamespace := adds_namespaceDeclaration room
  unfold script
  infer_instance

end

end Grammar.Parse

namespace Entry

/-- A script that is parsed without an error has a tree that follows its form. -/
theorem parse_script_follows (options : Options) (source : Source)
    (herrors : (script.parse options source).diagnostics.errors = []) :
    (script.parse options source).root.Follows .script := by
  have hscript : Grammar.Parse.Adds (Grammar.Parse.script options.maxDepth) Form.script :=
    inferInstance
  have hrule : Grammar.Parse.Adds (script.rule options.maxDepth) (.oneOf [.script]) :=
    hscript.mono (by simp)
  obtain ⟨form, hform, hfollows⟩ := root_follows hrule herrors
  obtain rfl := List.mem_singleton.mp hform
  exact hfollows

/-- A class with a method and a property, in a namespace with a path. -/
theorem parse_script_follows_path :
    let source := ['n', 'a', 'm', 'e', 's', 'p', 'a', 'c', 'e', ' ', 'a', ':', ':', 'b', '{', 'c', 'l',
      'a', 's', 's', ' ', 'C', '{', '~', 'C', '(', ')', '{', '}', 'i', 'n', 't', ' ', 'p', '{', 'g',
      'e', 't', ';', '}', '}', '}']
    let outcome := script.parse {} source
    outcome.diagnostics.errors = [] ∧ outcome.root.descendants.length = 21 ∧
      outcome.root.Follows .script := by
  intro source outcome
  have herrors : outcome.diagnostics.errors = [] := by decide +kernel
  exact ⟨herrors, by decide +kernel, parse_script_follows {} source herrors⟩

end Entry

end ScriptSyntax
