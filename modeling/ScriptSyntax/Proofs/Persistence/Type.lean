import ScriptSyntax.Proofs.Persistence

/-!
# Types with more room

Where a rule reads template arguments to their end, there was room for a scan to pass them.  So a
scope that is only seen with more room is read as the name of a type, and its arguments are what is
nested too deeply.
-/

namespace ScriptSyntax.Grammar.Parse

variable {setting : Setting} {session after : Session} {value : Unit}

/-! ## Room for what is read -/

/-- Arguments that are read one by one are scanned one by one. -/
theorem arguments_passed {item : Parse Unit} {scan scan' : Scan Bool} {listed : List Token}
    {count : Nat} (hscans : scan.Leads setting)
    (hitem : ∀ {session after : Session} {again : Bool} {rest : List Token},
      setting.Orderly session.ahead → (scan setting).run session.ahead = some (again, rest) →
      again = true ∨ endsArgument (rest.headD setting.finish).kind = true →
      item setting session = (.ok (), after) →
      (scan' setting).run session.ahead = some (again, rest) ∧
      ((setting.head after).kind = .comma ∧ again = true ∧ rest = after.ahead.tail ∨
        (setting.head after).kind ≠ .comma ∧ again = false ∧ rest = after.ahead))
    (horderly : setting.Orderly session.ahead)
    (hscan : (Scan.repeatUpTo count scan setting).run session.ahead = some ((), listed))
    (hlisted : endsArgument (listed.headD setting.finish).kind = true)
    (h : repeatUpTo count (do
      item
      if ← nextIs .comma then
        skip
        return true
      else return false) setting session = (.ok value, after)) :
    (Scan.repeatUpTo count scan' setting).run session.ahead = some ((), listed) := by
  induction count generalizing session with
  | zero => exact hscan
  | succ count ih =>
      rw [repeatUpTo_run] at hscan ⊢
      obtain ⟨⟨again, rest⟩, hfirst, hmore⟩ := Option.bind_eq_some_iff.mp hscan
      unfold repeatUpTo at h
      obtain ⟨again', middle, hbody, hrest⟩ := bind_ok h
      obtain ⟨_, named, hnamed, hbody⟩ := bind_ok hbody
      rw [nextIs_bind] at hbody
      have hends : again = true ∨ endsArgument (rest.headD setting.finish).kind = true := by
        cases again with
        | true => exact .inl rfl
        | false =>
            cases hmore
            exact .inr hlisted
      obtain ⟨hpassed, hposition⟩ := hitem horderly hfirst hends hnamed
      rw [hpassed, Option.bind_some]
      rcases hposition with ⟨hcomma, rfl, rfl⟩ | ⟨hcomma, rfl, rfl⟩
      · simp only [hcomma, decide_true, ↓reduceIte] at hbody
        cases hbody
        refine ih ?_ ?_ hrest
        · exact horderly.leads (hscans _ _ hfirst)
        · exact hmore
      · exact hmore

/-- A type that is read to its end has a level of room. -/
theorem dataType_succ_of_ok {room : Nat} {forms : TypeForms}
    (h : dataType room forms setting session = (.ok value, after)) :
    ∃ smaller, room = smaller + 1 ∧
      typeBody smaller (dataType smaller {}) forms setting session = (.ok value, after) := by
  cases room with
  | zero =>
      change node .dataType (fail .maximumNestingDepth) setting session = _ at h
      obtain ⟨inner, hinner, -⟩ := node_ok h
      cases hinner
  | succ room => exact ⟨room, rfl, h⟩

/-- The room that an argument is read with is room enough to scan it. -/
theorem templateArgument_of_ok (hended : setting.Ended) {room more : Nat} {again : Bool}
    {rest : List Token}
    (hlist : ∀ {session after : Session} {name : Token} {behind : List Token},
      setting.Orderly session.ahead → setting.listsArguments name session.ahead = true →
      (templateList more name setting).run session.ahead = some ((), behind) →
      templateArguments (dataType room {}) setting session = (.ok (), after) →
      (templateList room name setting).run session.ahead = some ((), behind))
    (horderly : setting.Orderly session.ahead)
    (hscan : (templateArgument (templateList more) setting).run session.ahead = some (again, rest))
    (hrest : again = true ∨ endsArgument (rest.headD setting.finish).kind = true)
    (h : typeBody room (dataType room {}) {} setting session = (.ok value, after)) :
    (templateArgument (templateList room) setting).run session.ahead = some (again, rest) := by
  rw [templateArgument_run] at hscan ⊢
  dsimp only at hscan ⊢
  split at hscan
  case isFalse => cases hscan
  rename_i hname
  rw [if_pos hname]
  obtain ⟨⟨_, listed⟩, hlisted, hsuffixes⟩ := Option.bind_eq_some_iff.mp hscan
  obtain ⟨behind, hbehind, hcomma⟩ := Option.map_eq_some_iff.mp hsuffixes
  have hends : endsArgument (behind.headD setting.finish).kind = true := by
    by_cases hkind : (behind.headD setting.finish).kind = .comma
    · rw [hkind]
      rfl
    · rw [if_neg hkind] at hcomma
      cases hcomma
      simpa using hrest
  obtain ⟨named, inner, hnamed, -, hinner⟩ :=
    typeBody_named hended horderly hlisted hbehind hends h
  have hnames : setting.Orderly named.ahead := by
    rw [hnamed]
    exact (horderly.leads (setting.leads_of_suffix (behindScopes_suffix setting _))).tail
  rw [← hnamed] at hlisted ⊢
  have hpassed : (templateList room ((behindScopes setting session.ahead).headD setting.finish)
      setting).run named.ahead = some ((), listed) := by
    split at hinner
    · rename_i hlists
      obtain ⟨_, _, harguments, -⟩ := bind_ok hinner
      exact hlist hnames hlists hlisted harguments
    · rename_i hlists
      have hplain := Bool.eq_false_of_not_eq_true hlists
      rw [templateList_plain hplain] at hlisted ⊢
      exact hlisted
  rw [hpassed]
  exact hsuffixes

/-- The room that a list of arguments is read with is room enough to scan it. -/
theorem templateList_of_ok (hended : setting.Ended) {room more : Nat} {name : Token}
    {behind : List Token} (horderly : setting.Orderly session.ahead)
    (hlists : setting.listsArguments name session.ahead = true)
    (hscan : (templateList more name setting).run session.ahead = some ((), behind))
    (h : templateArguments (dataType room {}) setting session = (.ok value, after)) :
    (templateList room name setting).run session.ahead = some ((), behind) := by
  induction room generalizing more name behind session after value with
  | zero =>
      -- There is at least one argument, and no room for it.
      obtain ⟨_, opened, -, h⟩ := bind_ok h
      obtain ⟨_, _, hclosed, -⟩ := bind_ok h
      unfold commaSeparated repeatRule at hclosed
      rw [ahead_bind] at hclosed
      unfold repeatUpTo at hclosed
      obtain ⟨_, _, hbody, -⟩ := bind_ok hclosed
      obtain ⟨_, _, hitem, -⟩ := bind_ok hbody
      obtain ⟨_, hroom, -⟩ := dataType_succ_of_ok hitem
      cases hroom
  | succ room ih =>
      obtain _ | more := more
      · rw [templateList_zero hlists] at hscan
        cases hscan
      rw [templateList_succ hlists] at hscan ⊢
      obtain ⟨⟨_, listed⟩, hlisted, hclosing⟩ := Option.bind_eq_some_iff.mp hscan
      obtain ⟨_, opened, hopened, h⟩ := bind_ok h
      obtain ⟨_, closing, hclosed, -⟩ := bind_ok h
      have hahead := (require_ok hopened).2
      unfold commaSeparated repeatRule at hclosed
      rw [ahead_bind] at hclosed
      rw [← hahead] at hlisted
      obtain ⟨closed, hgreater, -⟩ := Option.map_eq_some_iff.mp hclosing
      have hpassed : (Scan.repeatUpTo (byteCount opened.ahead + 1)
          (templateArgument (templateList room)) setting).run opened.ahead = some ((), listed) := by
        refine arguments_passed (templateArgument_leads (templateList_leads setting more)) ?_
          (hahead ▸ horderly.tail) hlisted (endsArgument_of_afterGreater? (by simp [hgreater])) hclosed
        intro session after again rest horderly hscan hrest hitem
        obtain ⟨_, hroom, hbody⟩ := dataType_succ_of_ok hitem
        cases hroom
        refine ⟨templateArgument_of_ok hended ih horderly hscan hrest hbody, ?_⟩
        refine dataType_ok hended ?_ horderly hscan hrest hitem
        intro smaller session after name behind _ horderly hlists hscan hlisting
        exact templateArguments_ok hended horderly hlists hscan hlisting
      rw [← hahead, hpassed]
      exact hclosing

/-! ## Scopes -/

section Scopes

variable {room more : Nat} {tokens : List Token}

theorem crowded_of_templateScope
    (hlow : ((templateScopeAhead room setting).run tokens).isSome = false)
    (hhigh : ((templateScopeAhead more setting).run tokens).isSome = true) :
    setting.Crowded room tokens := by
  obtain ⟨behind, hlists, -⟩ := templateScopeAhead_some hhigh
  rw [Look.templateScopeAhead_run hlists] at hlow hhigh
  obtain ⟨seen, hseen⟩ := Option.isSome_iff_exists.mp hhigh
  exact crowded_of_scopeList (Option.isSome_eq_false_iff.mp hlow |> Option.isNone_iff_eq_none.mp) hseen

theorem crowded_of_scope (hlow : ((scopeAhead room setting).run tokens).isSome = false)
    (hhigh : ((scopeAhead more setting).run tokens).isSome = true) :
    setting.Crowded room tokens := by
  rw [scopeAhead_isSome, Bool.or_eq_false_iff] at hlow
  rw [scopeAhead_isSome, hlow.1, Bool.false_or] at hhigh
  exact crowded_of_templateScope hlow.2 hhigh

end Scopes

/-- Where a rule is stuck for lack of room: before a list of arguments. -/
def Cramped (room : Nat) (_ : Unit) (setting : Setting) (tokens : List Token) : Prop :=
  setting.Crowded room tokens

section

set_option synthInstance.maxSize 2000

variable {room more : Nat} [hroom : Fact (room ≤ more)] {argument argument' : Parse Unit}
  [Persists argument argument']

instance : Persists (templateArguments argument) (templateArguments argument') := by
  have hclosing : Persists
      (do
        match (← read).afterGreater? (← ahead) with
        | some rest =>
            widen (.ofLength (← peek).span.start 1)
            goTo rest
        | none => failExpected (.expectedKind .greater))
      (do
        match (← read).afterGreater? (← ahead) with
        | some rest =>
            widen (.ofLength (← peek).span.start 1)
            goTo rest
        | none => failExpected (.expectedKind .greater)) := by
    constructor
    intro setting session
    cases hgreater : setting.afterGreater? session.ahead with
    | none =>
        refine persistsAt_of_fault ?_
        rw [read_bind, ahead_bind, hgreater]
        exact not_clean_reported setting _ _ _
    | some rest =>
        have hrun : (do
            match (← read).afterGreater? (← ahead) with
            | some rest =>
                widen (.ofLength (← peek).span.start 1)
                goTo rest
            | none => failExpected (.expectedKind .greater) : Parse Unit) setting session =
            (.ok (), setting.shortened rest session) := by
          rw [read_bind, ahead_bind, hgreater]
          rfl
        refine persistsAt_of_ok hrun rfl ?_ ?_
        · exact fun hreads => hreads.step (.inr hgreater)
        · intro depth diagnostics
          rw [read_bind, ahead_bind, show (setting.limited depth).afterGreater? session.ahead = some rest
            from hgreater]
          rfl
  unfold templateArguments
  infer_instance

theorem scopeOver_persists :
    PersistsUnless (Cramped room) (scopeOver room argument) (scopeOver more argument') := by
  have hscope : PersistsUnless (Cramped room)
      (node .scope do
        markIf .scope
        repeatRule do
          if (← peek).kind.isIdentifier && (← peekSecond).kind = .scope then
            identifier
            mark
            return true
          else return false
        if ← sees (templateScopeAhead room) then
          identifier
          templateArguments argument
          mark)
      (node .scope do
        markIf .scope
        repeatRule do
          if (← peek).kind.isIdentifier && (← peekSecond).kind = .scope then
            identifier
            mark
            return true
          else return false
        if ← sees (templateScopeAhead more) then
          identifier
          templateArguments argument'
          mark) := by
    refine .node _ (.behind fun _ => .behind fun _ setting session =>
      .sees (fun _ => ?_) (fun _ => ?_) ?_)
    · have hlist : Persists (do identifier; templateArguments argument; mark)
          (do identifier; templateArguments argument'; mark) := inferInstance
      exact hlist.unless setting session
    · exact (inferInstance : Persists (pure () : Parse Unit) (pure ())).unless setting session
    · intro value after hended hreads hlow hhigh hclean hrun
      cases hrun
      exact crowded_of_templateScope hlow hhigh
  unfold scopeOver
  intro setting session
  refine .sees (fun _ => hscope setting session) (fun _ => ?_) ?_
  · exact (inferInstance : Persists (pure () : Parse Unit) (pure ())).unless setting session
  · intro value after hended hreads hlow hhigh hclean hrun
    cases hrun
    exact crowded_of_scope hlow hhigh

/-! ## Types -/

instance (forms : TypeForms) : Persists (typeName forms) (typeName forms) := by
  unfold typeName
  infer_instance

instance : Persists typeSuffixes typeSuffixes := by
  have hsuffix (kind : TokenKind) :
      let rule : Parse Bool := match kind with
        | .openBracket => do
            mark
            coverRequired .closeBracket
            return true
        | .handle => do
            mark
            markIf .const
            return true
        | _ => pure false
      Persists rule rule := by
    dsimp only
    split <;> infer_instance
  unfold typeSuffixes
  infer_instance

/-- What follows the scope of a type. -/
def typeBehindScope (argument : Parse Unit) (forms : TypeForms) : Parse Unit := do
  let name ← peek
  typeName forms
  if (← read).isTemplateName name && (← nextIs .less) then templateArguments argument
  typeSuffixes

instance (forms : TypeForms) :
    Persists (typeBehindScope argument forms) (typeBehindScope argument' forms) := by
  have hlist (name : Token) : Persists
      (do
        if (← read).isTemplateName name && (← nextIs .less) then templateArguments argument
        typeSuffixes)
      (do
        if (← read).isTemplateName name && (← nextIs .less) then templateArguments argument'
        typeSuffixes) :=
    persists_read (fun _ => inferInstance) fun _ _ => rfl
  unfold typeBehindScope
  infer_instance

theorem typeBehindScope_ok {forms : TypeForms}
    (h : typeBehindScope argument forms setting session = (.ok value, after)) :
    ∃ named, named.ahead = session.ahead.tail ∧
      (if setting.listsArguments (session.ahead.headD setting.finish) session.ahead.tail = true then do
        templateArguments argument
        typeSuffixes
      else typeSuffixes) setting named = (.ok value, after) := by
  unfold typeBehindScope at h
  rw [peek_bind] at h
  obtain ⟨_, named, hnamed, h⟩ := bind_ok h
  rw [read_bind, nextIs_bind] at h
  have hname := (typeName_ok hnamed).2
  refine ⟨named, hname, ?_⟩
  rw [← hname]
  exact h

/-- A list of arguments behind the name of a type is not read to its end without room for it. -/
theorem not_ok_of_crowded (hended : setting.Ended) {room : Nat} {forms : TypeForms}
    (hreads : setting.Reads session.ahead) (hcrowded : setting.Crowded room session.ahead) :
    typeBehindScope (dataType room {}) forms setting session ≠ (.ok value, after) := by
  intro h
  obtain ⟨named, hname, h⟩ := typeBehindScope_ok h
  have hlists := hcrowded.lists
  rw [if_pos hlists] at h
  obtain ⟨_, _, harguments, -⟩ := bind_ok h
  obtain ⟨more, ⟨_, behind⟩, hlisted⟩ := hcrowded.listed
  have hblocked := hcrowded.blocked
  rw [← hname] at hlists hlisted hblocked
  have hpassed := templateList_of_ok hended (hname ▸ hreads.orderly.tail) hlists hlisted harguments
  exact absurd (hblocked.symm.trans hpassed) (by simp)

end

instance (room more : Nat) [hroom : Fact (room ≤ more)] (forms : TypeForms) :
    Persists (dataType room forms) (dataType more forms) := by
  obtain ⟨hle⟩ := hroom
  induction room generalizing more forms with
  | zero => exact inferInstanceAs (Persists (tooDeep .dataType) (dataType more forms))
  | succ room ih =>
      obtain ⟨more, rfl⟩ : ∃ smaller, more = smaller + 1 := ⟨more - 1, by omega⟩
      have hle' : Fact (room ≤ more) := ⟨Nat.le_of_succ_le_succ hle⟩
      have hargument : Persists (dataType room {}) (dataType more {}) := ih more {} hle'.out
      have hscoped : Persists
          (do
            scopeOver room (dataType room {})
            typeBehindScope (dataType room {}) forms)
          (do
            scopeOver more (dataType more {})
            typeBehindScope (dataType more {}) forms) := by
        refine scopeOver_persists.before (fun _ => inferInstance) ?_
        intro _ setting middle after value hended hreads hcrowded _
        exact not_ok_of_crowded hended hreads hcrowded
      have hbody : Persists
          (node .dataType do
            if forms.const then markIf .const
            scopeOver room (dataType room {})
            typeBehindScope (dataType room {}) forms)
          (node .dataType do
            if forms.const then markIf .const
            scopeOver more (dataType more {})
            typeBehindScope (dataType more {}) forms) := inferInstance
      exact ⟨hbody.always⟩

end ScriptSyntax.Grammar.Parse
