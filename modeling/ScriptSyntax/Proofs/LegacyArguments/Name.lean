import ScriptSyntax.Proofs.Persistence.Expression
import ScriptSyntax.Proofs.QuietRuns

/-!
# A name that is assigned to

A name with an equals sign behind it is read without a report, up to the sign: as a variable, or as
the type of an initialization list if a brace opens behind the sign.
-/

namespace ScriptSyntax.Grammar

open Parse

/-- A name and an equals sign come next. -/
structure Setting.Assigns (setting : Setting) (tokens : List Token) : Prop where
  name : (tokens.headD setting.finish).kind = .identifier
  sign : (tokens.tail.headD setting.finish).kind = .assign

/-! ## Looking ahead -/

namespace Setting.Assigns

variable {setting : Setting} {tokens : List Token} (h : setting.Assigns tokens)

include h

theorem isIdentifier : (tokens.headD setting.finish).kind.isIdentifier = true := by
  rw [h.name]
  rfl

theorem tail_ne_nil (hended : setting.Ended) : tokens.tail ≠ [] := by
  intro hnil
  have hkind := h.sign
  rw [hnil, List.headD_nil, hended] at hkind
  cases hkind

theorem ne_nil (hended : setting.Ended) : tokens ≠ [] := by
  rintro rfl
  exact h.tail_ne_nil hended rfl

theorem sign_found (hended : setting.Ended) : tokens.tail.head?.filter (·.kind = .assign) =
    some (tokens.tail.headD setting.finish) := by
  have hkind := h.sign
  cases htail : tokens.tail with
  | nil => exact absurd htail (h.tail_ne_nil hended)
  | cons sign rest =>
      rw [htail] at hkind
      simp [show sign.kind = _ from hkind]

theorem lists : setting.listsArguments (tokens.headD setting.finish) tokens.tail = false := by
  unfold listsArguments
  rw [h.sign]
  exact Bool.and_false _

theorem no_scope (room : Nat) : ((scopeAhead room setting).run tokens).isSome = false := by
  have htemplate : ((templateScopeAhead room setting).run tokens).isSome = false := by
    refine Bool.eq_false_iff.mpr fun hsees => ?_
    obtain ⟨_, hlists, -⟩ := templateScopeAhead_some hsees
    rw [h.lists] at hlists
    cases hlists
  rw [scopeAhead_isSome, htemplate, h.name, h.sign]
  rfl

theorem skipScopes_eq : skipScopes (setting.dropKind .scope tokens) = tokens := by
  have hdrop : setting.dropKind .scope tokens = tokens := by
    unfold dropKind
    rw [h.name]
    rfl
  rw [hdrop]
  have hother : ¬((tokens.headD setting.finish).kind = .identifier ∧
      (tokens.tail.headD setting.finish).kind = .scope) := by
    rw [h.sign]
    simp
  exact skipScopes_other hother

theorem no_lambda : ((lambdaAhead setting).run tokens).isSome = false := by
  refine Bool.eq_false_iff.mpr fun hsees => ?_
  obtain ⟨-, hparen⟩ := @lambdaAhead_isSome setting ⟨tokens, {}, .empty .undefined⟩ hsees
  have hkind := h.sign.symm.trans hparen
  cases hkind

theorem no_construction (hended : setting.Ended) :
    ((constructionAhead setting).run tokens).isSome = false := by
  have hname : ((skipScopes (setting.dropKind .scope tokens)).headD setting.finish).kind =
      .identifier := by
    rw [h.skipScopes_eq, h.name]
  have hplain : setting.constructs tokens = false := by
    unfold constructs
    rw [pathName_of_skipScopes hended hname, h.skipScopes_eq]
    dsimp only
    rw [h.sign]
    simp
  rw [constructionAhead_run, hplain]
  rfl

theorem no_call : ((callAhead setting).run tokens).isSome = false := by
  have hskip : skipScopes (if (tokens.headD setting.finish).kind = .scope then tokens.tail
      else tokens) = tokens := h.skipScopes_eq
  unfold callAhead
  rw [Scan.bind_run, Scan.skipKind_run, Option.bind_some, Scan.modify_bind, hskip, Scan.bind_run,
    Scan.requireIdentifier_run, if_pos h.isIdentifier, Option.bind_some, Scan.require_run, h.sign]
  rfl

theorem typedList (room : Nat) : ((typedListAhead room setting).run tokens).isSome =
    decide ((tokens.tail.tail.headD setting.finish).kind = .openBrace) := by
  have htype : (tokens.headD setting.finish).isTypeName = true := by
    unfold Token.isTypeName
    rw [h.isIdentifier]
    rfl
  unfold typedListAhead
  rw [Scan.next_bind]
  simp only [htype, Bool.not_true, Bool.false_eq_true, ↓reduceIte]
  rw [Scan.bind_run, templateList_plain h.lists, Option.bind_some, Scan.bind_run, Scan.require_run,
    if_pos h.sign, Option.bind_some, Scan.require_run]
  split
  · rename_i hbrace
    exact (decide_eq_true hbrace).symm
  · rename_i hbrace
    exact (decide_eq_false hbrace).symm

end Setting.Assigns

namespace Parse

variable {setting : Setting} {tokens : List Token} {room : Nat} {rules : ValueRules}

theorem Quiet.whileNext {test : Token → Bool} {rule : Parse Unit}
    (h : test (tokens.headD setting.finish) = false) :
    Quiet setting (whileNext test rule) () tokens tokens :=
  .still fun _ _ => whileNext_still h

/-! ## Up to the sign -/

section

variable (h : setting.Assigns tokens)

include h

theorem quiet_scope : Quiet setting (scope room) () tokens tokens :=
  .sees false (h.no_scope room) (.still fun _ _ => rfl)

theorem quiet_variableAccess : Quiet setting (variableAccess room) () tokens tokens.tail :=
  .node (.bind (quiet_scope h) (.identifier h.isIdentifier))

theorem quiet_namedValue (hended : setting.Ended) :
    Quiet setting (namedValue rules) () tokens tokens.tail :=
  .sees false h.no_lambda (.sees false (h.no_construction hended)
    (.sees false h.no_call (quiet_variableAccess h)))

theorem quiet_value (hended : setting.Ended) :
    Quiet setting (value rules) () tokens tokens.tail := by
  refine .node (.peek ?_)
  rw [h.name]
  exact quiet_namedValue h hended

/-- The name of the type of a list. -/
theorem quiet_dataType :
    Quiet setting (dataType (room + 1) { const := false }) () tokens tokens.tail := by
  have htype : (tokens.headD setting.finish).isTypeName = true := by
    unfold Token.isTypeName
    rw [h.isIdentifier]
    rfl
  have hsuffixes : Quiet setting typeSuffixes () tokens.tail tokens.tail := by
    refine .still fun diagnostics building => repeatUpTo_still ?_ _
    rw [peek_bind]
    unfold Setting.head
    rw [h.sign]
    rfl
  have hbehind : Quiet setting
      (do
        if (← read).isTemplateName (tokens.headD setting.finish) && (← nextIs .less) then
          templateArguments (dataType room {})
        typeSuffixes) () tokens.tail tokens.tail := by
    refine .read (.nextIs false (by rw [h.sign]; rfl) ?_)
    rw [Bool.and_false]
    exact hsuffixes
  change Quiet setting (typeBody room (dataType room {}) { const := false }) () tokens _
  exact .node (.bind (quiet_scope h) (.peek (.bind (.typeName htype) hbehind)))

section

variable (hended : setting.Ended)
  (hplain : (tokens.tail.tail.headD setting.finish).kind ≠ .openBrace)

include hended hplain

/-- A name is read as a variable if no list in braces is assigned to it. -/
theorem quiet_term : Quiet setting (term rules) () tokens tokens.tail := by
  refine .node (.sees false ((h.typedList _).trans (decide_eq_false hplain)) ?_)
  refine .nextIs false (by rw [h.name]; rfl) ?_
  refine .bind (.whileNext (by rw [h.name]; rfl)) ?_
  exact .bind (quiet_value h hended) (.whileNext (by rw [h.sign]; rfl))

theorem quiet_expression : Quiet setting (expression rules) () tokens tokens.tail :=
  .node (.bind (quiet_term h hended hplain) (.whileNext (by rw [h.sign]; rfl)))

theorem quiet_condition : Quiet setting (condition rules) () tokens tokens.tail :=
  .node (.bind (quiet_expression h hended hplain)
    (.nextIs false (by rw [h.sign]; rfl) (.still fun _ _ => rfl)))

end

end

end Parse

end ScriptSyntax.Grammar
