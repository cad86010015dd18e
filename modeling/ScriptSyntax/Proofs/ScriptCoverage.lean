import ScriptSyntax.Proofs.Comparison.Script
import ScriptSyntax.Proofs.Tiling
import ScriptSyntax.Proofs.ValueEnds

/-!
# What the declarations of a script cover

A declaration covers its first token, which may be a modifier, and its last one, which is a
semicolon or a closing brace.  So in a script in which no error is reported a token lies in a
declaration, or it is a semicolon between declarations, or a modifier that no declaration follows.
-/

namespace ScriptSyntax

namespace Grammar

namespace Parse

/-! ## Declarations -/

section

set_option synthInstance.maxSize 2000

instance (keyword : Keyword) : CoversHead (anchorRequired keyword) := by
  refine coversHead_of_widen fun setting session value after hrun => ?_
  unfold anchorRequired at hrun
  obtain ⟨token, middle, hrequire, hanchor⟩ := bind_ok hrun
  unfold require at hrequire
  rw [nextIs_bind] at hrequire
  split at hrequire
  · cases hrequire
    cases hanchor
    exact ⟨{ session.building with token := some (setting.head session).kind }, rfl⟩
  · cases hrequire

instance : CoversFirst sharedModifiers := by
  unfold sharedModifiers
  infer_instance

instance : CoversFirst accessModifier := by
  unfold accessModifier
  infer_instance

instance (room : Nat) : CoversHead (returnType room) := by
  unfold returnType
  infer_instance

instance (room : Nat) : Encloses (globalVariable room) := by
  unfold globalVariable
  infer_instance

/-- A semicolon or a closing brace that is kept in the tree. -/
theorem endsCovered_mark {setting : Setting} {session after : Session} (hended : setting.Ended)
    (hreads : setting.Reads session.ahead)
    (hkind : endsStatement (setting.head session).kind = true)
    (hrun : mark setting session = (.ok (), after)) :
    EndsCovered setting session after after.building := by
  have hcovers := CoversHead.covers setting session () after
    (head_lt_of_endsStatement hended hreads hkind) hrun
  cases hrun
  exact endsCovered_of_head hended hkind rfl hcovers

/-- A semicolon in the place of a body. -/
instance (rest : Parse Unit) [hrest : CoversEnd rest] :
    CoversEnd (do if ← nextIs .semicolon then mark else rest) := by
  constructor
  intro setting session value after hended hreads hrun
  rw [nextIs_bind] at hrun
  split at hrun
  · rename_i hhead
    exact endsCovered_mark hended hreads (by rw [of_decide_eq_true hhead]; rfl) hrun
  · exact hrest.covers setting session value after hended hreads hrun

instance (room : Nat) : Encloses (importDeclaration room) := by
  unfold importDeclaration
  infer_instance

/-- The enumerators, or the semicolon of an enumeration without any. -/
instance coversEnd_enumBody : CoversEnd (do
    match (← peek).kind with
    | .semicolon => mark
    | .openBrace =>
        skip
        repeatRule enumerator
        coverRequired .closeBrace
    | _ => failExpected (.expectedOneOfKinds [.openBrace, .semicolon])) := by
  constructor
  intro setting session value after hended hreads hrun
  rw [peek_bind] at hrun
  generalize hkind : (setting.head session).kind = kind at hrun
  split at hrun
  · exact endsCovered_mark hended hreads (by rw [hkind]; rfl) hrun
  · exact CoversEnd.covers setting session value after hended hreads hrun
  · cases hrun

instance : Encloses enumDeclaration := by
  unfold enumDeclaration
  infer_instance

instance : Encloses typedefDeclaration := by
  unfold typedefDeclaration
  infer_instance

instance (room : Nat) : Encloses (funcdefDeclaration room) := by
  unfold funcdefDeclaration
  infer_instance

instance : CoversEnd functionBody := by
  unfold functionBody
  infer_instance

instance (room : Nat) : Encloses (globalFunction room) := by
  unfold globalFunction
  infer_instance

/-- A property ends with its closing brace. -/
instance coversEnd_accessors (place : PropertyPlace) : CoversEnd (repeatRule do
    let token ← peek
    if token.kind = .closeBrace then
      cover
      return false
    if !token.hasRole .accessor then
      failExpected (.expectedOneOf [ContextualWord.get.canonical, ContextualWord.set.canonical,
        TokenKind.closeBrace.describe])
    accessor place
    return true) := by
  refine coversEnd_repeatRule fun setting session after hended hreads hrun => ?_
  rw [peek_bind] at hrun
  split at hrun
  · rename_i hkind
    cases hrun
    exact endsCovered_passed hended hreads (by rw [hkind]; rfl)
  · split at hrun
    · obtain ⟨_, _, hfails, -⟩ := bind_ok hrun
      exact absurd hfails not_ok_of_interrupts
    · obtain ⟨_, _, -, hend⟩ := bind_ok hrun
      cases hend

instance (room : Nat) : Encloses (property room .script) := by
  unfold property
  infer_instance

instance (room : Nat) (member : Parse Unit) [Advances member] :
    CoversEnd (namedMembers room member) := by
  unfold namedMembers
  infer_instance

instance (room : Nat) : Encloses (interfaceDeclaration room) := by
  unfold interfaceDeclaration
  infer_instance

instance (room : Nat) : Encloses (classDeclaration room) := by
  unfold classDeclaration
  infer_instance

instance (room : Nat) : Encloses (mixinDeclaration room) := by
  unfold mixinDeclaration
  infer_instance

instance (room : Nat) : Encloses (globalMember room) := by
  unfold globalMember
  infer_instance

instance : CoversHead namespaceKeyword := by
  refine coversHead_of_widen fun setting session value after hrun => ?_
  unfold namespaceKeyword at hrun
  rw [nextIs_bind] at hrun
  split at hrun
  · cases hrun
    exact ⟨session.building, rfl⟩
  · obtain ⟨_, _, -, hrest⟩ := bind_ok hrun
    obtain ⟨_, _, -, hinterrupt⟩ := bind_ok hrest
    cases hinterrupt

instance (opening : List Token) : CoversEnd (namespaceClosing opening) := by
  constructor
  intro setting session value after hended hreads hrun
  unfold namespaceClosing at hrun
  rw [nextIs_bind] at hrun
  split at hrun
  · rename_i hhead
    cases hrun
    exact endsCovered_passed hended hreads (by rw [of_decide_eq_true hhead]; rfl)
  · rw [peek_bind] at hrun
    split at hrun <;> cases hrun

/-- What follows the keyword of a namespace ends with its closing brace. -/
instance coversEnd_behindNamespaceKeyword (body : Parse Unit) [Advances body] : CoversEnd (do
    let opening := namespaceOpening (← ahead)
    if let some brace := opening.head? then widen brace.span
    namespacePath body ((← ahead).length + 1)
    namespaceClosing opening) := by
  refine .of_right inferInstance ?_
  intro tokens
  dsimp only
  split <;> infer_instance

instance (body : Parse Unit) [Advances body] : Encloses (namespaceBody body) := by
  unfold namespaceBody
  infer_instance

instance (kind : NodeKind) : Interrupts (tooDeep kind) :=
  ⟨fun _ _ => ⟨_, rfl⟩⟩

instance (room : Nat) : Encloses (namespaceDeclaration room) := by
  cases room with
  | zero => exact inferInstanceAs (Encloses (tooDeep _))
  | succ room => exact inferInstanceAs (Encloses (deferred _))

end

end Parse

/-! ## The rounds of a script -/

/-- The next token is a semicolon, or it starts a row of modifiers that no declaration follows: only
a semicolon, or nothing at all. -/
def isStray (tokens : List Token) : Bool :=
  match tokens.dropWhile (·.hasRole .declarationModifier) with
  | [] => true
  | first :: _ => first.kind = .semicolon

section Rounds

variable {setting : Setting} {session middle after : Session} {room : Nat} {nested : Parse Unit}
  {tokens behind : List Token} {token : Token}

open Parse

/-- A token of a row of modifiers to the end starts such a row. -/
theorem isStray_of_suffix (hend : tokens.dropWhile (·.hasRole .declarationModifier) = [])
    (hsuffix : behind <:+ tokens) : isStray behind = true := by
  have hall := List.dropWhile_eq_nil_iff.mp hend
  have hnil : behind.dropWhile (·.hasRole .declarationModifier) = [] :=
    List.dropWhile_eq_nil_iff.mpr fun other hmem => hall other (hsuffix.subset hmem)
  unfold isStray
  rw [hnil]

theorem isStray_of_semicolon
    (h : ((tokens.dropWhile (·.hasRole .declarationModifier)).headD setting.finish).kind =
      .semicolon) : isStray tokens = true := by
  unfold isStray
  split
  · rfl
  · rename_i first rest heq
    rw [heq] at h
    exact decide_eq_true h

/-- What the rounds of a script, from one session to another, add to its node.  Each token that is
not left out lies in a child. -/
structure Accounted (session after : Session) (children : List Node) : Prop where
  quiet : session.faults = []
  added : after.building.children = session.building.children ++ children
  covered : ∀ token behind, token :: behind <:+ session.ahead → isStray (token :: behind) = false →
    ∃ child ∈ children, child.Covers token.span

/-- A declaration that comes to its end covers what it has passed, or there is none but a semicolon
behind the modifiers. -/
theorem scriptItem_ok [hnested : Encloses nested] (hended : setting.Ended)
    (hreads : setting.Reads session.ahead)
    (hrun : scriptItem room nested behind setting session = (.ok (), after)) :
    (∃ child, after.building = session.building.append child ∧
      child.Covers (setting.head session).span ∧ EndsCovered setting session after child) ∨
    ((behind.headD setting.finish).kind = .semicolon ∧
      after = { session with ahead := session.ahead.tail }) := by
  unfold scriptItem at hrun
  rw [read_bind] at hrun
  generalize hkind : (behind.headD setting.finish).kind = kind at hrun ⊢
  split at hrun
  case h_12 =>
    cases hrun
    exact .inr ⟨rfl, rfl⟩
  case h_13 =>
    split at hrun
    · exact .inl (Encloses.encloses setting session () after hended hreads hrun)
    · cases hrun
  all_goals exact .inl (Encloses.encloses setting session () after hended hreads hrun)

theorem scriptStep_again [Advances nested] (hquiet : after.faults = [])
    (hrun : scriptStep room false nested setting session = (.ok true, after)) :
    scriptItem room nested (session.ahead.dropWhile (·.hasRole .declarationModifier)) setting
      session = (.ok (), after) := by
  rw [ScriptComparison.scriptStep_run] at hrun
  split at hrun
  · cases hrun
  · obtain ⟨_, recovered, hrecovering, hend⟩ := bind_ok hrun
    cases hend
    have hreturns : Returns session.ahead (scriptItem room nested
        (session.ahead.dropWhile (·.hasRole .declarationModifier))) := inferInstance
    have hproceeds := hreturns.proceeds setting session .refl
    unfold recovering at hrecovering
    rw [bind_run, attempt_run] at hrecovering
    rcases hitem : scriptItem room nested (session.ahead.dropWhile
        (·.hasRole .declarationModifier)) setting session with
      ⟨interruption | value, stopped⟩ <;> rw [hitem] at hrecovering hproceeds
    · -- What has failed has reported an error, and recovery takes no report back.
      have hfaulty := hproceeds.faulty interruption rfl
      cases hrecovering
      change stopped.faults = [] at hquiet
      rw [hquiet] at hfaulty
      exact absurd hfaulty (Nat.not_lt_zero _)
    · cases hrecovering
      rfl

theorem scriptStep_last (hreads : setting.Reads session.ahead)
    (hquiet : after.faults = [])
    (hrun : scriptStep room false nested setting session = (.ok false, after)) :
    Accounted session after [] := by
  rw [ScriptComparison.scriptStep_run] at hrun
  split at hrun
  · rename_i hends
    cases hrun
    have hnil : session.ahead.dropWhile (·.hasRole .declarationModifier) = [] := by
      cases hbehind : session.ahead.dropWhile (·.hasRole .declarationModifier) with
      | nil => rfl
      | cons first rest =>
          have hsuffix := List.dropWhile_suffix (l := session.ahead) (·.hasRole .declarationModifier)
          rw [hbehind] at hsuffix hends
          have hne := (hreads.suffix hsuffix).ne_end
          simp [endsText, TokenKind.isEnd, hne] at hends
    refine ⟨hquiet, (List.append_nil _).symm, ?_⟩
    intro token behind hsuffix hdeclared
    rw [isStray_of_suffix hnil hsuffix] at hdeclared
    cases hdeclared
  · obtain ⟨_, _, -, hend⟩ := bind_ok hrun
    cases hend

theorem Accounted.cons {children : List Node} (h : Accounted middle after children)
    [Advances nested] [Encloses nested] (hended : setting.Ended)
    (hreads : setting.Reads session.ahead)
    (hrun : scriptStep room false nested setting session = (.ok true, middle)) :
    ∃ more, Accounted session after (more ++ children) := by
  have hfaults := (advance_of_run hrun).faults
  rw [h.quiet, List.prefix_nil] at hfaults
  rcases scriptItem_ok hended hreads (scriptStep_again h.quiet hrun) with
    ⟨child, hchild, hfirst, last, hleads, hkind, hlast⟩ | ⟨hsemicolon, rfl⟩
  · obtain ⟨passed, hahead⟩ :=
      hreads.suffix_of_leads hleads List.suffix_rfl (isAngle_of_endsStatement hkind)
    refine ⟨[child], hfaults, ?_, ?_⟩
    · rw [h.added, hchild, Node.children_append, List.append_assoc]
    · intro token behind hsuffix hdeclared
      rw [← hahead] at hreads hsuffix
      have hsplit : passed ++ last :: middle.ahead = (passed ++ [last]) ++ middle.ahead := by simp
      rw [hsplit] at hsuffix
      rcases mem_or_suffix_of_append hsuffix with hmem | hbehind
      · rw [Setting.head, ← hahead] at hfirst
        exact ⟨child, List.mem_cons_self, hreads.covers hfirst hlast hmem⟩
      · obtain ⟨other, hother, hcovers⟩ := h.covered token behind hbehind hdeclared
        exact ⟨other, List.mem_append_right _ hother, hcovers⟩
  · refine ⟨[], hfaults, h.added, ?_⟩
    intro token behind hsuffix hdeclared
    cases hahead : session.ahead with
    | nil =>
        rw [hahead] at hsuffix
        cases List.suffix_nil.mp hsuffix
    | cons first rest =>
        rw [hahead] at hsuffix
        rcases List.suffix_cons_iff.mp hsuffix with heq | hbehind
        · -- The token that is passed over is the first one of a row that ends with a semicolon.
          rw [heq, ← hahead, isStray_of_semicolon hsemicolon] at hdeclared
          cases hdeclared
        · refine h.covered token behind ?_ hdeclared
          change token :: behind <:+ session.ahead.tail
          rwa [hahead]

theorem script_accounted [Advances nested] [Consumes nested] [Encloses nested]
    (hended : setting.Ended) (hreads : setting.Reads session.ahead) (hquiet : after.faults = [])
    (hrun : repeatRule (scriptStep room false nested) setting session = (.ok (), after)) :
    ∃ children, Accounted session after children := by
  have hrepeats : Repeats (scriptStep room false nested) setting session _ :=
    repeatRule_repeats hended hreads
  rw [hrun] at hrepeats
  clear hrun
  generalize hresult : (Except.ok (), after) = result at hrepeats
  induction hrepeats with
  | last hbody =>
      cases hresult
      exact ⟨[], scriptStep_last hreads hquiet hbody⟩
  | broken hbody => cases hresult
  | again hbody hrest ih =>
      have hleads := Forwards.leads setting _ _ _ hbody
      obtain ⟨children, haccounted⟩ := ih (hreads.leads hleads) hresult
      obtain ⟨more, hmore⟩ := haccounted.cons hended hreads hbody
      exact ⟨more ++ children, hmore⟩

end Rounds

end Grammar

namespace Entry

open Grammar Grammar.Parse

/-- In a script in which no error is reported each token lies in a child of the root, unless it is a
semicolon or one of some modifiers that no declaration follows. -/
theorem script_covered (options : Options) (source : Source)
    (hclean : (script.parse options source).diagnostics.errors = []) {token : Token}
    {behind : List Token} (htoken : token :: behind <:+ source.tokensFrom 0)
    (hdeclared : isStray (token :: behind) = false) :
    ∃ child ∈ (script.parse options source).root.children, child.Covers token.span := by
  let setting := script.setting options source
  let first : Session := ⟨source.tokensFrom 0, {}, .empty .undefined⟩
  have hreads : setting.Reads first.ahead := ⟨0, rfl⟩
  have hquiet := script.session_faults options source hclean
  have hrun : node .script (repeatRule (scriptStep options.maxDepth false
      (namespaceDeclaration options.maxDepth))) setting first =
        (.ok (), script.session options source) :=
    script.run_of_clean options source hclean
  obtain ⟨inner, hinner, hafter⟩ := node_ok hrun
  have hroot : (script.parse options source).root = inner.building := by
    refine root_eq ?_
    rw [hafter]
  have hquiet : inner.faults = [] := by
    rw [hafter] at hquiet
    exact hquiet
  have hended : setting.Ended := rfl
  obtain ⟨children, haccounted⟩ : ∃ children, Accounted (first.opened .script) inner children :=
    script_accounted hended hreads hquiet hinner
  obtain ⟨child, hmem, hcovers⟩ := haccounted.covered token behind htoken hdeclared
  rw [hroot, haccounted.added]
  exact ⟨child, List.mem_append_right _ hmem, hcovers⟩

end Entry

end ScriptSyntax
