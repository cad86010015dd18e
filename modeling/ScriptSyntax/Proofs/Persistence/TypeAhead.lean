import ScriptSyntax.Proofs.Persistence.Type

/-!
# Types that are only seen with more room

If a type is seen ahead with more room but not with less, some list of arguments in it is nested too
deeply for the latter.  The rule for types with less room then ends in front of a scope mark, if it
comes to an end at all: it passes at most one list of arguments in a scope.
-/

namespace ScriptSyntax.Grammar

/-- Past a type from behind a leading scope mark on. -/
def scopedType (room : Nat) : Scan Unit := do
  Scan.repeatScan (Scan.leadingScope room)
  Look.behindTypeName room (← Scan.next)

variable {setting : Setting} {room more : Nat} {tokens : List Token}

theorem typeAhead_scoped (hauto : ((setting.dropKind .const tokens).headD setting.finish).kind ≠
      .keyword .auto) :
    (typeAhead room setting).run tokens = (scopedType room setting).run
      (setting.dropKind .scope (setting.dropKind .const tokens)) := by
  rw [Look.typeAhead_run, Look.typeNameAhead_run, if_neg hauto]
  unfold scopedType Scan.repeatScan
  rw [Scan.bind_run, Scan.get_bind]
  dsimp only
  cases (Scan.repeatUpTo _ (Scan.leadingScope room) setting).run _ <;> rfl

/-! ## Scopes in front of a type -/

theorem scopedType_scope (hended : setting.Ended) (hreads : setting.Reads tokens)
    {behind : List Token} (h : (Scan.leadingScope room setting).run tokens = some (true, behind)) :
    (scopedType room setting).run tokens = (scopedType room setting).run behind := by
  have hpasses := Scan.rounds_leadingScope room setting tokens behind hended h
  have hshorter := hreads.orderly.byteCount_lt hpasses
  have hbehind := hreads.leads hpasses.to_reflTransGen
  have hlong := Scan.repeatUpTo_repeats (Scan.rounds_leadingScope room) hended hbehind hshorter
  have hshort := Scan.repeatScan_repeats (Scan.rounds_leadingScope room) hended hbehind
  unfold scopedType
  rw [Scan.bind_run, Scan.bind_run]
  refine congrArg (Option.bind · _) ?_
  change (Scan.repeatUpTo (byteCount tokens + 1) (Scan.leadingScope room) setting).run tokens = _
  rw [repeatUpTo_run, h, Option.bind_some, if_pos rfl]
  exact hlong.unique hshort

theorem scopedType_name (h : (Scan.leadingScope room setting).run tokens = some (false, tokens)) :
    (scopedType room setting).run tokens =
      (Look.behindTypeName room (tokens.headD setting.finish) setting).run tokens.tail := by
  unfold scopedType
  rw [Scan.bind_run]
  change ((Scan.repeatUpTo (byteCount tokens + 1) (Scan.leadingScope room) setting).run tokens).bind
    _ = _
  rw [repeatUpTo_run, h]
  rfl

theorem scopedType_skipScopes (hended : setting.Ended) (hreads : setting.Reads tokens) :
    (scopedType room setting).run tokens = (scopedType room setting).run (skipScopes tokens) := by
  fun_induction skipScopes tokens with
  | case1 name separator rest hscope ih =>
      have hround : (Scan.leadingScope room setting).run (name :: separator :: rest) =
          some (true, rest) := by
        rw [Scan.leadingScope_run]
        simp [hscope.1, hscope.2, TokenKind.isIdentifier]
      rw [scopedType_scope hended hreads hround]
      exact ih hreads.tail.tail
  | case2 => rfl
  | case3 => rfl

/-- Where scopes end, no name with a scope mark behind it follows. -/
theorem skipScopes_ends (hended : setting.Ended) (tokens : List Token) :
    ¬(((skipScopes tokens).headD setting.finish).kind = .identifier ∧
      ((skipScopes tokens).tail.headD setting.finish).kind = .scope) := by
  fun_induction skipScopes tokens with
  | case1 name separator rest hscope ih => exact ih
  | case2 name separator rest hscope => exact hscope
  | case3 tokens hshort =>
      rintro ⟨-, hmark⟩
      rcases tokens with _ | ⟨name, _ | ⟨separator, rest⟩⟩
      · cases (hended : setting.finish.kind = _).symm.trans hmark
      · cases (hended : setting.finish.kind = _).symm.trans hmark
      · exact hshort name separator rest rfl

/-- Without arguments behind it a name is passed alike with any room. -/
theorem leadingScope_plain
    (hscope : ¬((tokens.headD setting.finish).kind = .identifier ∧
      (tokens.tail.headD setting.finish).kind = .scope))
    (hplain : setting.listsArguments (tokens.headD setting.finish) tokens.tail = false) :
    (Scan.leadingScope room setting).run tokens = some (false, tokens) := by
  rw [Scan.leadingScope_run]
  dsimp only
  split
  · rename_i hname
    have hmark : (tokens.tail.headD setting.finish).kind ≠ .scope := fun hmark =>
      hscope ⟨of_decide_eq_true hname, hmark⟩
    rw [if_neg hmark, Scan.bind_run, templateList_plain hplain, Option.bind_some, Scan.require_run,
      if_neg hmark]
  · rfl

theorem behindTypeName_plain {name : Token}
    (hplain : setting.listsArguments name tokens = false) (room more : Nat) :
    (Look.behindTypeName room name setting).run tokens =
      (Look.behindTypeName more name setting).run tokens := by
  rw [Look.behindTypeName_run, Look.behindTypeName_run, templateList_plain hplain,
    templateList_plain hplain]

theorem kinds_of_listsArguments {name : Token} (h : setting.listsArguments name tokens = true) :
    name.kind = .identifier ∧ (tokens.headD setting.finish).kind = .less := by
  unfold Setting.listsArguments Setting.isTemplateName at h
  simp only [Bool.and_eq_true, TokenKind.isIdentifier, decide_eq_true_eq] at h
  exact ⟨h.1.1, h.2⟩

/-- A name with arguments is a scope if a scope mark follows them, and a type if not. -/
theorem scopedType_lists (hended : setting.Ended) (hreads : setting.Reads tokens)
    (hlists : setting.listsArguments (tokens.headD setting.finish) tokens.tail = true) :
    (scopedType room setting).run tokens =
      ((templateList room (tokens.headD setting.finish) setting).run tokens.tail).bind fun listed =>
        if (listed.2.headD setting.finish).kind = .scope then
          (scopedType room setting).run listed.2.tail
        else (skipSuffixes? listed.2).map fun behind => ((), behind) := by
  obtain ⟨hname, hless⟩ := kinds_of_listsArguments hlists
  have hround := Scan.leadingScope_run room setting tokens
  dsimp only at hround
  rw [TokenKind.isIdentifier, if_pos (by simpa using hname), hless, if_neg (by simp),
    Scan.bind_run] at hround
  have htype : (tokens.headD setting.finish).isTypeName = true := by
    simp only [Token.isTypeName, TokenKind.isIdentifier, hname, decide_true, Bool.true_or]
  cases hlist : (templateList room (tokens.headD setting.finish) setting).run tokens.tail with
  | none =>
      rw [hlist] at hround
      rw [scopedType_name hround, Look.behindTypeName_run, htype, hlist]
      rfl
  | some listed =>
      rw [hlist, Option.bind_some, Scan.require_run] at hround
      rw [Option.bind_some]
      by_cases hscope : (listed.2.headD setting.finish).kind = .scope
      · rw [if_pos hscope] at hround ⊢
        exact scopedType_scope hended hreads hround
      · rw [if_neg hscope] at hround ⊢
        rw [scopedType_name hround, Look.behindTypeName_run, htype, hlist]
        rfl

/-- A path of names ends where the scopes in front of its last name do. -/
theorem pathEnd_of_skipScopes (hended : setting.Ended)
    (hname : ((skipScopes tokens).headD setting.finish).kind = .identifier) :
    (tokens.headD setting.finish).kind = .identifier ∧
      pathEnd (tokens.headD setting.finish) tokens.tail =
        ((skipScopes tokens).headD setting.finish, (skipScopes tokens).tail) := by
  fun_induction skipScopes tokens with
  | case1 name separator rest hscope ih =>
      obtain ⟨hfirst, hpath⟩ := ih hname
      refine ⟨hscope.1, ?_⟩
      cases rest with
      | nil => cases (hended : setting.finish.kind = _).symm.trans hfirst
      | cons second rest =>
          rw [List.headD_cons] at hfirst
          rw [← hpath, List.headD_cons, List.tail_cons, pathEnd, if_pos hscope.2,
            TokenKind.isIdentifier, if_pos (by simpa using hfirst)]
          rfl
  | case2 name separator rest hscope =>
      refine ⟨hname, ?_⟩
      have hmark : separator.kind ≠ .scope := fun hmark => hscope ⟨hname, hmark⟩
      cases rest <;> simp [pathEnd, hmark]
  | case3 tokens hshort =>
      refine ⟨hname, ?_⟩
      rcases tokens with _ | ⟨name, _ | ⟨separator, rest⟩⟩
      · rfl
      · rfl
      · exact (hshort name separator rest rfl).elim

theorem pathName_of_skipScopes (hended : setting.Ended)
    (hname : ((skipScopes (setting.dropKind .scope tokens)).headD setting.finish).kind =
      .identifier) :
    setting.pathName tokens =
      ((skipScopes (setting.dropKind .scope tokens)).headD setting.finish,
        (skipScopes (setting.dropKind .scope tokens)).tail) := by
  obtain ⟨hfirst, hpath⟩ := pathEnd_of_skipScopes hended hname
  unfold Setting.pathName
  dsimp only
  rw [TokenKind.isIdentifier, if_pos (by simpa using hfirst)]
  exact hpath

/-- A name with arguments behind it is constructed. -/
theorem constructs_of_lists (hended : setting.Ended)
    (hlists : setting.listsArguments
      ((skipScopes (setting.dropKind .scope tokens)).headD setting.finish)
      (skipScopes (setting.dropKind .scope tokens)).tail = true) :
    setting.constructs tokens = true := by
  obtain ⟨hname, hless⟩ := kinds_of_listsArguments hlists
  have htemplate : setting.isTemplateName
      ((skipScopes (setting.dropKind .scope tokens)).headD setting.finish) = true := by
    unfold Setting.listsArguments at hlists
    exact (Bool.and_eq_true_iff.mp hlists).1
  unfold Setting.constructs
  rw [pathName_of_skipScopes hended hname]
  simp only [Token.isTypeName, TokenKind.isIdentifier, hname, hless, htemplate, decide_true,
    Bool.true_or, Bool.and_self, Bool.or_true]

/-! ## Seen with more room only -/

/-- A type is seen ahead with more room, but not with so little. -/
structure Setting.Overlooks (setting : Setting) (room more : Nat) (tokens : List Token) : Prop where
  unseen : (typeAhead room setting).run tokens = none
  seen : ∃ behind, (typeAhead more setting).run tokens = some behind

namespace Setting.Overlooks

/-- The qualifier and the scope mark in front of a type, and the names with scope marks. -/
theorem unqualified (h : setting.Overlooks room more tokens) :
    ((setting.dropKind .const tokens).headD setting.finish).kind ≠ .keyword .auto ∧
      (scopedType room setting).run (setting.dropKind .scope (setting.dropKind .const tokens)) =
        none ∧
      ∃ behind, (scopedType more setting).run
        (setting.dropKind .scope (setting.dropKind .const tokens)) = some behind := by
  obtain ⟨hunseen, behind, hseen⟩ := h
  have hauto : ((setting.dropKind .const tokens).headD setting.finish).kind ≠ .keyword .auto := by
    intro hauto
    have hplain : setting.listsArguments ((setting.dropKind .const tokens).headD setting.finish)
        (setting.dropKind .const tokens).tail = false := by
      unfold Setting.listsArguments Setting.isTemplateName
      rw [hauto]
      rfl
    rw [Look.typeAhead_run, Look.typeNameAhead_run, if_pos hauto, Option.bind_some] at hunseen hseen
    rw [behindTypeName_plain hplain room more] at hunseen
    exact absurd (hunseen.symm.trans hseen) (by simp)
  rw [typeAhead_scoped hauto] at hunseen hseen
  exact ⟨hauto, hunseen, behind, hseen⟩

/-- The first name behind which no scope mark follows has arguments. -/
theorem lists (hended : setting.Ended) (hreads : setting.Reads tokens)
    (h : setting.Overlooks room more tokens) :
    let named := behindScopes setting tokens
    setting.listsArguments (named.headD setting.finish) named.tail = true := by
  obtain ⟨-, hunseen, behind, hseen⟩ := h.unqualified
  have hsuffix := hreads.suffix
    ((dropKind_suffix setting .scope (setting.dropKind .const tokens)).trans
      (dropKind_suffix setting .const tokens))
  rw [scopedType_skipScopes hended hsuffix] at hunseen hseen
  change (scopedType room setting).run (behindScopes setting tokens) = none at hunseen
  change (scopedType more setting).run (behindScopes setting tokens) = some behind at hseen
  have hends : ¬(((behindScopes setting tokens).headD setting.finish).kind = .identifier ∧
      ((behindScopes setting tokens).tail.headD setting.finish).kind = .scope) :=
    skipScopes_ends hended _
  generalize behindScopes setting tokens = named at *
  dsimp only
  refine Bool.not_eq_false _ ▸ fun hplain => ?_
  rw [scopedType_name (leadingScope_plain hends hplain)] at hunseen hseen
  rw [behindTypeName_plain hplain room more] at hunseen
  exact absurd (hunseen.symm.trans hseen) (by simp)

/-- What a type starts with that is only seen with more room. -/
theorem starts (hended : setting.Ended) (hreads : setting.Reads tokens)
    (h : setting.Overlooks room more tokens) :
    (tokens.headD setting.finish).kind = .const ∨ (tokens.headD setting.finish).kind = .scope ∨
      (tokens.headD setting.finish).kind = .identifier ∧
        ((tokens.tail.headD setting.finish).kind = .scope ∨
          (tokens.tail.headD setting.finish).kind = .less) := by
  obtain ⟨hname, hless⟩ := kinds_of_listsArguments (h.lists hended hreads)
  unfold behindScopes Setting.dropKind at hname hless
  by_cases hconst : (tokens.headD setting.finish).kind = .const
  · exact .inl hconst
  by_cases hscope : (tokens.headD setting.finish).kind = .scope
  · exact .inr (.inl hscope)
  rw [if_neg hconst, if_neg hscope] at hname hless
  refine .inr (.inr ?_)
  by_cases hmark : (tokens.headD setting.finish).kind = .identifier ∧
      (tokens.tail.headD setting.finish).kind = .scope
  · exact ⟨hmark.1, .inl hmark.2⟩
  · rw [Parse.skipScopes_other hmark] at hname hless
    exact ⟨hname, .inr hless⟩

/-- A type that is only seen with more room is constructed, if it is a value. -/
theorem constructs (hended : setting.Ended) (hreads : setting.Reads tokens)
    (h : setting.Overlooks room more tokens)
    (hconst : (tokens.headD setting.finish).kind ≠ .const) : setting.constructs tokens = true := by
  have hlists := h.lists hended hreads
  unfold behindScopes at hlists
  rw [show setting.dropKind .const tokens = tokens from if_neg hconst] at hlists
  exact constructs_of_lists hended hlists

end Setting.Overlooks

namespace Parse

variable {session after : Session} {value : Unit}

/-! ## Read with less room -/

/-- Behind its scope a type that is only seen with more room is read up to a scope mark. -/
theorem typeBehindScope_mark (hended : setting.Ended) (hreads : setting.Reads session.ahead)
    {inner : Nat} (hinner : inner ≤ room) {forms : TypeForms}
    (hunseen : (scopedType room setting).run session.ahead = none) {seen : Unit × List Token}
    (hseen : (scopedType more setting).run session.ahead = some seen)
    (h : typeBehindScope (dataType inner {}) forms setting session = (.ok value, after)) :
    (setting.head after).kind = .scope := by
  obtain ⟨named, hname, hbehind⟩ := typeBehindScope_ok h
  by_cases hlists : setting.listsArguments (session.ahead.headD setting.finish)
      session.ahead.tail = true
  · -- The arguments are read, so there is room to scan them with more room just as well.
    rw [if_pos hlists] at hbehind
    obtain ⟨_, listing, harguments, hsuffixes⟩ := bind_ok hbehind
    rw [scopedType_lists hended hreads hlists] at hunseen hseen
    obtain ⟨⟨_, listed⟩, hlisted, hrest⟩ := Option.bind_eq_some_iff.mp hseen
    have hpassed : (templateList room (session.ahead.headD setting.finish) setting).run
        session.ahead.tail = some ((), listed) := by
      rw [← hname] at hlists hlisted ⊢
      exact templateList_le hinner _ _ _
        (templateList_of_ok hended (hname ▸ hreads.orderly.tail) hlists hlisted harguments)
    have hlisting : listing.ahead = listed := by
      rw [← hname] at hlists hlisted
      exact templateArguments_ok hended (hname ▸ hreads.orderly.tail) hlists hlisted harguments
    rw [hpassed, Option.bind_some] at hunseen
    dsimp only at hunseen hrest
    by_cases hscope : (listed.headD setting.finish).kind = .scope
    · have hmark : (setting.head listing).kind = .scope := by
        rw [Setting.head, hlisting]
        exact hscope
      rw [typeSuffixes_still hmark (by simp) (by simp) hsuffixes]
      exact hmark
    · rw [if_neg hscope] at hunseen hrest
      exact absurd (hunseen.symm.trans hrest) (by simp)
  · rw [if_neg hlists] at hbehind
    have hplain := Bool.eq_false_of_not_eq_true hlists
    by_cases hscope : (session.ahead.headD setting.finish).kind = .identifier ∧
        (session.ahead.tail.headD setting.finish).kind = .scope
    · have hmark : (setting.head named).kind = .scope := by
        rw [Setting.head, hname]
        exact hscope.2
      rw [typeSuffixes_still hmark (by simp) (by simp) hbehind]
      exact hmark
    · rw [scopedType_name (leadingScope_plain hscope hplain)] at hunseen hseen
      rw [behindTypeName_plain hplain room more] at hunseen
      exact absurd (hunseen.symm.trans hseen) (by simp)

set_option synthInstance.maxSize 2000 in
/-- A template instance that is seen to be a scope is read as one, with the mark behind it. -/
theorem scopeOver_template (hended : setting.Ended) (hreads : setting.Reads session.ahead)
    {inner : Nat} {argument : Parse Unit} [Advances argument]
    (hsees : ((templateScopeAhead inner setting).run
      (skipScopes (setting.dropKind .scope session.ahead))).isSome = true)
    (h : scopeOver inner argument setting session = (.ok value, after)) :
    ∃ named listing last, named.ahead = (skipScopes (setting.dropKind .scope session.ahead)).tail ∧
      templateArguments argument setting named = (.ok (), listing) ∧
      mark setting listing = (.ok value, last) ∧ last.building.kind = .scope ∧
      after = session.closed last := by
  have hscope : ((scopeAhead inner setting).run session.ahead).isSome = true := by
    cases hsame : ((scopeAhead inner setting).run session.ahead).isSome with
    | true => rfl
    | false =>
        -- Nothing is passed before the template instance, so the instance itself is seen.
        obtain ⟨hmark, hname⟩ := no_scope_of_scopeAhead hsame
        rw [show setting.dropKind .scope session.ahead = session.ahead from if_neg hmark,
          skipScopes_other hname] at hsees
        rw [scopeAhead_isSome, hsees, Bool.or_true] at hsame
        exact hsame.symm
  unfold scopeOver at h
  rw [sees_bind, hscope, if_pos rfl] at h
  obtain ⟨inside, hinside, hafter⟩ := node_ok h
  have hkind := (advance_of_run hinside).building.kind
  obtain ⟨_, marked, hmarked, hinside⟩ := bind_ok hinside
  obtain ⟨_, named, hnamed, hinside⟩ := bind_ok hinside
  have hfirst := markIf_ok hmarked
  change marked.ahead = setting.dropKind .scope session.ahead at hfirst
  have hdropped := hreads.suffix (dropKind_suffix setting .scope session.ahead)
  have hnames := scopeNames_ok hended (hfirst ▸ hdropped.orderly) hnamed
  rw [hfirst] at hnames
  rw [sees_bind, hnames, hsees, if_pos rfl] at hinside
  obtain ⟨_, named, hname, hinside⟩ := bind_ok hinside
  obtain ⟨_, listing, hlisting, hinside⟩ := bind_ok hinside
  refine ⟨named, listing, inside, ?_, hlisting, hinside, hkind, hafter⟩
  rw [(identifier_ok hname).2, hnames]

/-- A scope with a template instance in it is read up to the scope mark behind that. -/
theorem scopeOver_instance (hended : setting.Ended) (hreads : setting.Reads session.ahead)
    {inner : Nat}
    (hsees : ((templateScopeAhead inner setting).run
      (skipScopes (setting.dropKind .scope session.ahead))).isSome = true)
    (h : scopeOver inner (dataType inner {}) setting session = (.ok value, after)) :
    ∃ behind, (templateList inner
        ((skipScopes (setting.dropKind .scope session.ahead)).headD setting.finish) setting).run
        (skipScopes (setting.dropKind .scope session.ahead)).tail = some ((), behind) ∧
      (behind.headD setting.finish).kind = .scope ∧ after.ahead = behind.tail := by
  obtain ⟨behind, hlists, hlisted, hmark⟩ := templateScopeAhead_some hsees
  obtain ⟨named, listing, last, hnamed, hlisting, hlast, -, rfl⟩ :=
    scopeOver_template hended hreads hsees h
  refine ⟨behind, hlisted, hmark, ?_⟩
  have horderly : setting.Orderly named.ahead := by
    rw [hnamed]
    exact (hreads.suffix ((skipScopes_suffix _).trans
      (dropKind_suffix setting .scope session.ahead))).orderly.tail
  rw [← hnamed] at hlists hlisted
  change last.ahead = _
  rw [leaf_ok hlast, templateArguments_ok hended horderly hlists hlisted hlisting]

/-- A scope that is read with less room is passed by a scan. -/
theorem scopeOver_scanned (hended : setting.Ended) (hreads : setting.Reads session.ahead)
    {inner : Nat} (hinner : inner ≤ room)
    (h : scopeOver inner (dataType inner {}) setting session = (.ok value, after)) :
    (scopedType room setting).run (setting.dropKind .scope session.ahead) =
      (scopedType room setting).run after.ahead := by
  have hdropped := hreads.suffix (dropKind_suffix setting .scope session.ahead)
  rw [scopedType_skipScopes hended hdropped]
  cases hsees : ((templateScopeAhead inner setting).run
      (skipScopes (setting.dropKind .scope session.ahead))).isSome with
  | false => rw [scopeOver_ok hended hreads.orderly hsees h]
  | true =>
      obtain ⟨behind, hlisted, hmark, hahead⟩ := scopeOver_instance hended hreads hsees h
      obtain ⟨_, hlists, -⟩ := templateScopeAhead_some hsees
      rw [scopedType_lists hended (hdropped.suffix (skipScopes_suffix _)) hlists,
        templateList_le hinner _ _ _ hlisted, Option.bind_some, if_pos hmark, hahead]

/-- A type that is only seen with more room is read with less room up to a scope mark, if it is read
to an end. -/
theorem dataType_mark (hended : setting.Ended) (hreads : setting.Reads session.ahead)
    (hle : room ≤ more) (h : setting.Overlooks room more session.ahead) {inner : Nat}
    (hinner : inner ≤ room + 1) {forms : TypeForms}
    (hconst : forms.const = true ∨ (setting.head session).kind ≠ .const)
    (hrun : dataType inner forms setting session = (.ok value, after)) :
    (setting.head after).kind = .scope := by
  obtain ⟨inner, rfl, hbody⟩ := dataType_succ_of_ok hrun
  have hinner' : inner ≤ room := Nat.le_of_succ_le_succ hinner
  obtain ⟨-, hunseen, seen, hseen⟩ := h.unqualified
  obtain ⟨last, hlast, rfl⟩ := node_ok hbody
  have hqualify : ∃ qualified, qualified.ahead = setting.dropKind .const session.ahead ∧
      (do scopeOver inner (dataType inner {}); typeBehindScope (dataType inner {}) forms : Parse Unit)
        setting qualified = (.ok value, last) := by
    cases hforms : forms.const with
    | true =>
        simp only [hforms, ↓reduceIte] at hlast
        obtain ⟨_, qualified, hqualified, hlast⟩ := bind_ok hlast
        have hqualify := markIf_ok hqualified
        exact ⟨qualified, hqualify, hlast⟩
    | false =>
        simp only [hforms, Bool.false_eq_true, ↓reduceIte] at hlast
        have hkind : (setting.head session).kind ≠ .const := by simpa [hforms] using hconst
        exact ⟨{ session with building := .empty .dataType }, (if_neg hkind).symm, hlast⟩
  obtain ⟨qualified, hqualified, hlast⟩ := hqualify
  obtain ⟨_, inside, hinside, hlast⟩ := bind_ok hlast
  have hreads' : setting.Reads qualified.ahead := by
    rw [hqualified]
    exact hreads.suffix (dropKind_suffix setting .const session.ahead)
  rw [← hqualified, scopeOver_scanned hended hreads' hinner' hinside] at hunseen
  rw [← hqualified, scopeOver_scanned hended hreads' (hinner'.trans hle) hinside] at hseen
  have hinsideReads := hreads'.leads (advance_of_run hinside).forward
  have hmark : (setting.head last).kind = .scope :=
    typeBehindScope_mark hended hinsideReads hinner' hunseen hseen hlast
  exact hmark

end Parse

end ScriptSyntax.Grammar
