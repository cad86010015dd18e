import ScriptSyntax.Proofs.LookaheadFrames
import ScriptSyntax.Proofs.QuietRuns

/-!
# Lists that are accepted ahead

A list of template arguments that looking ahead accepts is read without a report, up to the same
byte.  The two read the arguments by rules of their own, and the rule for types looks ahead once more
in each argument, whether a scope comes first.
-/

namespace ScriptSyntax.Grammar

open Look (behindArgument)

theorem Setting.less_of_listsArguments {setting : Setting} {name : Token} {tokens : List Token}
    (h : setting.listsArguments name tokens = true) :
    (tokens.headD setting.finish).kind = .less := by
  unfold Setting.listsArguments at h
  simp only [Bool.and_eq_true, decide_eq_true_iff] at h
  exact h.2

namespace Parse

variable {setting : Setting} {tokens listed behind : List Token} {room : Nat} {argument : Parse Unit}

/-! ## Parts of an argument -/

/-- The names of a scope, by the rounds of what passes them. -/
theorem quiet_scopeNames (hended : setting.Ended) (hreads : setting.Reads tokens) :
    Quiet setting (repeatRule do
      if (← peek).kind.isIdentifier && (← peekSecond).kind = .scope then
        identifier
        mark
        return true
      else return false) () tokens (skipScopes tokens) := by
  have hlast {tokens : List Token} (hother : ¬((tokens.headD setting.finish).kind = .identifier ∧
      (tokens.tail.headD setting.finish).kind = .scope)) :
      Quiet setting (do
        if (← peek).kind.isIdentifier && (← peekSecond).kind = .scope then
          identifier
          mark
          return true
        else return false) false tokens tokens := by
    refine .peek (.peekSecond ?_)
    have hnone : ((tokens.headD setting.finish).kind.isIdentifier &&
        decide ((tokens.tail.headD setting.finish).kind = .scope)) = false := by
      simpa [TokenKind.isIdentifier] using hother
    rw [hnone]
    exact .still fun _ _ => rfl
  fun_induction skipScopes tokens with
  | case1 name separator rest hscope ih =>
      have hname : name.kind.isIdentifier = true := by
        rw [hscope.1]
        rfl
      refine .again hended hreads (.peek (.peekSecond ?_)) (ih hreads.tail.tail)
      rw [List.headD_cons, List.tail_cons, List.headD_cons, hname, hscope.2]
      exact .bind (.identifier hname) (.bind .mark (.still fun _ _ => rfl))
  | case2 name separator rest hother => exact .last (hlast hother)
  | case3 tokens hshort =>
      refine .last (hlast ?_)
      rintro ⟨hname, hmark⟩
      rcases tokens with _ | ⟨name, _ | ⟨separator, rest⟩⟩
      · cases hended.symm.trans hname
      · cases hended.symm.trans hmark
      · exact hshort name separator rest rfl

/-- A scope in which no template instance stands. -/
theorem quiet_scopeOver (hended : setting.Ended) (hreads : setting.Reads tokens)
    (hplain : ((templateScopeAhead room setting).run
      (skipScopes (setting.dropKind .scope tokens))).isSome = false) :
    Quiet setting (scopeOver room argument) () tokens
      (skipScopes (setting.dropKind .scope tokens)) := by
  cases hsees : ((scopeAhead room setting).run tokens).isSome with
  | false =>
      obtain ⟨hscope, hname⟩ := no_scope_of_scopeAhead hsees
      unfold Setting.dropKind
      rw [if_neg hscope, skipScopes_other hname]
      exact .sees false hsees (.still fun _ _ => rfl)
  | true =>
      refine .sees true hsees (.node (.bind (.markIf .scope) ?_))
      refine .bind (quiet_scopeNames hended (hreads.suffix (dropKind_suffix _ _ _))) ?_
      exact .sees false hplain (.still fun _ _ => rfl)

/-- The suffixes of an argument, by the rounds of what passes them. -/
theorem quiet_typeSuffixes (hended : setting.Ended) (hreads : setting.Reads tokens)
    (hscan : skipArgumentSuffixes? tokens = some behind)
    (hends : endsArgument (behind.headD setting.finish).kind = true) :
    Quiet setting typeSuffixes () tokens behind := by
  have hlast {tokens : List Token} {kind : TokenKind}
      (hkind : (tokens.headD setting.finish).kind = kind) (hhandle : kind ≠ .handle)
      (hbracket : kind ≠ .openBracket) : Quiet setting typeSuffixes () tokens tokens := by
    refine .last (.peek ?_)
    rw [hkind]
    split
    · exact absurd rfl hbracket
    · exact absurd rfl hhandle
    · exact .still fun _ _ => rfl
  fun_induction skipArgumentSuffixes? tokens with
  | case1 =>
      cases hscan
      exact hlast hended (by simp) (by simp)
  | case2 token rest hkind ih =>
      refine .again hended hreads (.peek ?_) (ih hreads.tail hscan)
      rw [List.headD_cons, hkind]
      -- A scan does not pass `const`, and no argument ends with it.
      have hconst : setting.dropKind .const rest = rest := by
        unfold Setting.dropKind
        split
        · rename_i hconst
          cases (skipArgumentSuffixes?_still hconst (by simp) (by simp)).symm.trans hscan
          rw [hconst] at hends
          cases hends
        · rfl
      have hmark : Quiet setting (markIf .const) () rest rest := by
        have hmarked : Quiet setting (markIf .const) () rest _ := .markIf .const
        rwa [hconst] at hmarked
      exact .bind .mark (.bind hmark (.still fun _ _ => rfl))
  | case3 token close rest hkind hclose ih =>
      refine .again hended hreads (.peek ?_) (ih hreads.tail.tail hscan)
      rw [List.headD_cons, hkind]
      exact .bind .mark (.bind (.coverRequired hclose) (.still fun _ _ => rfl))
  | case4 => cases hscan
  | case5 => cases hscan
  | case6 token rest hhandle hclosed hempty =>
      cases hscan
      refine hlast rfl hhandle fun hbracket => ?_
      cases rest with
      | nil => exact hempty hbracket rfl
      | cons close rest => exact hclosed close rest hbracket rfl

/-! ## Arguments -/

/-- An argument that ends, with a list in it that is read as it is scanned. -/
theorem quiet_typeBody (hended : setting.Ended) (hreads : setting.Reads tokens)
    (hlist : ∀ {name : Token} {tokens behind : List Token}, setting.Reads tokens →
      setting.listsArguments name tokens = true →
      (templateList room name setting).run tokens = some ((), behind) →
      Quiet setting (templateArguments argument) () tokens behind)
    (hscan : behindArgument setting (templateList room) tokens = some behind)
    (hends : endsArgument (behind.headD setting.finish).kind = true) :
    Quiet setting (typeBody room argument {}) () tokens behind := by
  unfold behindArgument at hscan
  dsimp only at hscan
  split at hscan
  case isFalse => cases hscan
  rename_i hname
  obtain ⟨⟨_, listed⟩, hlisted, hbehind⟩ := Option.bind_eq_some_iff.mp hscan
  have hnamed := hreads.suffix (behindScopes_suffix setting tokens)
  have hscope : Quiet setting (scopeOver room argument) () (setting.dropKind .const tokens)
      (behindScopes setting tokens) :=
    quiet_scopeOver hended (hreads.suffix (dropKind_suffix _ _ _))
      (templateScopeAhead_isSome_of_ends hlisted hbehind hends)
  have hsuffixes : Quiet setting typeSuffixes () listed behind :=
    quiet_typeSuffixes hended (hnamed.tail.leads (templateList_leads _ _ _ _ _ hlisted))
      hbehind hends
  refine .node (.bind (.markIf .const) (.bind hscope (.peek (.bind (.typeName hname) ?_))))
  refine .read (.nextIs _ rfl ?_)
  change Quiet setting (if setting.listsArguments _ _ = true then _ else _) () _ _
  split
  · rename_i hlists
    exact .bind (hlist hnamed.tail hlists hlisted) hsuffixes
  · rename_i hlists
    rw [templateList_plain (by simpa using hlists)] at hlisted
    cases hlisted
    exact hsuffixes

/-- Arguments with commas between them, by the rounds of the scan. -/
theorem quiet_commaSeparated {item : Parse Unit} [Advances item] {inner : Token → Scan Unit}
    (hended : setting.Ended) (hreads : setting.Reads tokens)
    (hleads : (templateArgument inner).Leads setting)
    (hitem : ∀ {tokens behind : List Token}, setting.Reads tokens →
      behindArgument setting inner tokens = some behind →
      endsArgument (behind.headD setting.finish).kind = true →
      Quiet setting item () tokens behind)
    (hrepeats : Scan.Repeats (templateArgument inner) setting tokens (some ((), listed)))
    (hends : endsArgument (listed.headD setting.finish).kind = true) :
    Quiet setting (commaSeparated item) () tokens listed := by
  generalize hresult : some ((), listed) = result at hrepeats
  induction hrepeats with
  | last hbody =>
      cases hresult
      rw [Look.templateArgument_eq] at hbody
      obtain ⟨behind, hbehind, hlast⟩ := Option.map_eq_some_iff.mp hbody
      split at hlast
      · cases hlast
      · rename_i hcomma
        cases hlast
        refine .last (.bind (hitem hreads hbehind hends) (.nextIs false ?_ ?_))
        · exact decide_eq_false hcomma
        · exact .still fun _ _ => rfl
  | failed => cases hresult
  | again hbody hrest ih =>
      have hmiddle := hreads.leads (hleads _ _ hbody)
      rw [Look.templateArgument_eq] at hbody
      obtain ⟨behind, hbehind, hagain⟩ := Option.map_eq_some_iff.mp hbody
      split at hagain
      · rename_i hcomma
        cases hagain
        have hendsHere : endsArgument (behind.headD setting.finish).kind = true := hcomma ▸ rfl
        refine .again hended hreads (.bind (hitem hreads hbehind hendsHere) ?_) (ih hmiddle hresult)
        exact .nextIs true (decide_eq_true hcomma) fun _ building => ⟨building, rfl⟩
      · cases hagain

/-- A list that is closed: of the closing token the first byte belongs to the list. -/
theorem templateArguments_run (hless : (tokens.headD setting.finish).kind = .less)
    (harguments : Quiet setting (commaSeparated argument) () tokens.tail listed)
    (hbehind : setting.afterGreater? listed = some behind) (diagnostics : Diagnostics)
    (building : Node) :
    ∃ inner : Node, templateArguments argument setting ⟨tokens, diagnostics, building⟩ =
      (.ok (), ⟨behind, diagnostics,
        inner.widen (.ofLength (listed.headD setting.finish).span.start 1)⟩) := by
  obtain ⟨opened, hopened⟩ := Quiet.require hless diagnostics building
  obtain ⟨inner, hinner⟩ := harguments diagnostics opened
  refine ⟨inner, ?_⟩
  unfold templateArguments
  rw [bind_run, hopened]
  dsimp only
  rw [bind_run, hinner]
  dsimp only
  rw [read_bind, ahead_bind]
  dsimp only
  rw [hbehind]
  rfl

/-- Scanned arguments are read if the lists in them are. -/
theorem quiet_scannedArguments (hended : setting.Ended) (hreads : setting.Reads tokens)
    (hlist : ∀ {name : Token} {tokens behind : List Token}, setting.Reads tokens →
      setting.listsArguments name tokens = true →
      (templateList room name setting).run tokens = some ((), behind) →
      Quiet setting (templateArguments (dataType room {})) () tokens behind)
    (hscan : (Scan.repeatUpTo (byteCount tokens + 1) (templateArgument (templateList room))
      setting).run tokens = some ((), listed))
    (hbehind : setting.afterGreater? listed = some behind) :
    Quiet setting (commaSeparated (dataType (room + 1) {})) () tokens listed := by
  have hends : endsArgument (listed.headD setting.finish).kind = true :=
    endsArgument_of_afterGreater? (by rw [hbehind]; rfl)
  have hrepeats : Scan.Repeats _ setting tokens (some ((), listed)) :=
    hscan ▸ Scan.repeatScan_repeats (Scan.rounds_templateArgument room) hended hreads
  exact quiet_commaSeparated hended hreads (templateArgument_leads (templateList_leads setting room))
    (fun hreads => quiet_typeBody hended hreads hlist) hrepeats hends

/-- A scanned list is read, by induction on the room: an inner list has one level less of it. -/
theorem quiet_templateArguments (hended : setting.Ended) {name : Token}
    (hreads : setting.Reads tokens) (hlists : setting.listsArguments name tokens = true)
    (hscan : (templateList room name setting).run tokens = some ((), behind)) :
    Quiet setting (templateArguments (dataType room {})) () tokens behind := by
  induction room generalizing name tokens behind with
  | zero =>
      rw [templateList_zero hlists] at hscan
      cases hscan
  | succ room ih =>
      rw [templateList_succ hlists] at hscan
      obtain ⟨⟨_, listed⟩, hlisted, hclosing⟩ := Option.bind_eq_some_iff.mp hscan
      obtain ⟨_, hbehind, hend⟩ := Option.map_eq_some_iff.mp hclosing
      cases hend
      intro diagnostics building
      obtain ⟨inner, hinner⟩ := templateArguments_run (Setting.less_of_listsArguments hlists)
        (quiet_scannedArguments hended hreads.tail ih hlisted hbehind) hbehind diagnostics building
      exact ⟨_, hinner⟩

end Parse

/-! ## To the same byte -/

namespace Look

variable {setting : Setting} {reader : Reader} {tokens : List Token} {name : Token}
  {bound levels : Nat}

/-- There is room for a list that is accepted, and it is closed where the cursor is left. -/
theorem closes_of_checkTemplateType (hclosed : setting.Closed) (hbound : setting.source.size < bound)
    (hlevels : setting.options.maxDepth - reader.depth ≤ levels)
    (hlists : setting.listsArguments name tokens = true) (h : setting.Here reader.cursor tokens)
    (hcheck : (checkTemplateType bound levels name setting reader).1 = true) :
    ∃ room, room + 1 = setting.options.maxDepth - reader.depth ∧
      Closes setting (((Scan.repeatUpTo (byteCount tokens.tail + 1)
        (templateArgument (templateList room)) setting).run tokens.tail).map (·.2)) true
        (checkTemplateType bound levels name setting reader).2.cursor := by
  cases hroom : setting.options.maxDepth - reader.depth with
  | zero =>
      obtain ⟨answer, after, hrun, hanswers⟩ :=
        @checkTemplateType_finds setting reader bound hclosed hbound 0 levels (Nat.zero_le _)
          hroom.symm name tokens reader.cursor h
      change checkTemplateType bound levels name setting reader = _ at hrun
      rw [hrun] at hcheck
      rw [templateList_zero hlists] at hanswers
      rcases hanswers with ⟨-, rfl⟩ | ⟨_, hsome, -⟩
      · cases hcheck
      · cases hsome
  | succ room =>
      obtain ⟨levels, rfl⟩ := Nat.exists_eq_add_one_of_ne_zero (show levels ≠ 0 by omega)
      have hinner (name : Token) : Checks setting { reader with depth := reader.depth + 1 }
          (checkTemplateType bound levels name) (templateList room name) :=
        checkTemplateType_finds hclosed hbound (by omega)
          (show room = setting.options.maxDepth - (reader.depth + 1) by omega) name
      obtain ⟨answer, after, hrun, hcloses⟩ :=
        checkTemplateType_closes hclosed hbound hlists (by omega) hinner h
      change checkTemplateType bound (levels + 1) name setting reader = _ at hrun
      rw [hrun] at hcheck
      cases hcheck
      rw [hrun]
      exact ⟨room, rfl, hcloses⟩

end Look

/-- The list of template arguments that starts at an offset is read without a report, whatever was
read before, and the rule goes on at the other offset.  That is the byte behind the first one of the
closing token, which the list covers. -/
def Setting.ReadsList (setting : Setting) (room start stop : Nat) : Prop :=
  ∃ closing : Token, setting.source.Stands closing ∧ closing.kind.startsWithGreater = true ∧
    stop = closing.span.start + 1 ∧ ∀ diagnostics building, ∃ inner : Node,
      Parse.templateArguments (Parse.dataType room {}) setting
          (setting.reading diagnostics start building) =
        (.ok (), setting.reading diagnostics stop (inner.widen (.ofLength closing.span.start 1)))

/-- A list of template arguments that looking ahead accepts is read without a report at the same
depth, up to the byte where looking ahead has left the cursor. -/
theorem readsList_of_checkTemplateType (entry : Entry) (options : Options) (source : Source)
    (reader : Reader) {seen : List Token}
    (hreached : RememberingCursor.Reached source reader.cursor seen) {bound levels : Nat}
    (hbound : source.size < bound) (hlevels : options.maxDepth ≤ levels) {name : Token}
    (hlists : (entry.setting options source).listsArguments name
      (source.tokensFrom reader.cursor.position) = true)
    (hcheck : (Look.checkTemplateType bound levels name (entry.setting options source) reader).1 =
      true) :
    (entry.setting options source).ReadsList (options.maxDepth - reader.depth)
      reader.cursor.position
      (Look.checkTemplateType bound levels name
        (entry.setting options source) reader).2.cursor.position := by
  have hclosed : (entry.setting options source).Closed := ⟨_, rfl⟩
  have hreads : (entry.setting options source).Reads (source.tokensFrom reader.cursor.position) :=
    ⟨_, rfl⟩
  obtain ⟨room, hroom, hcloses⟩ := Look.closes_of_checkTemplateType hclosed hbound
    (Nat.le_trans (Nat.sub_le _ _) hlevels) hlists ⟨hreached.sound.1, rfl⟩ hcheck
  obtain ⟨-, hfalse⟩ | ⟨listed, closing, behind, hlisted, hbegins, hbehind, -, hhere, hposition⟩ :=
    hcloses
  · cases hfalse
  obtain ⟨⟨_, _⟩, hscan, hseen⟩ := Option.map_eq_some_iff.mp hlisted
  cases hseen
  obtain ⟨token, rest, rfl, hgreater, -⟩ := hbegins.reads.of_afterGreater? hbehind
  obtain rfl := hbegins.eq_head
  have harguments := Parse.quiet_scannedArguments hclosed.ended hreads.tail
    (Parse.quiet_templateArguments hclosed.ended) hscan hbehind
  refine ⟨closing, hbegins.stands, hgreater, hposition, fun diagnostics building => ?_⟩
  obtain ⟨inner, hinner⟩ :=
    Parse.templateArguments_run (Setting.less_of_listsArguments hlists) harguments hbehind
      diagnostics building
  refine ⟨inner, ?_⟩
  have hdepth : options.maxDepth - reader.depth = room + 1 := hroom.symm
  unfold Setting.reading
  rw [hhere.tokens_eq, hdepth]
  exact hinner

/-- `>>=` closes two lists and leaves `=`. -/
theorem nested_list_before_assignment :
    let source : Source := "array<array<int>>= a".toList
    let options : Options := { maxDepth := 3 }
    let name := (RememberingCursor.next source ⟨0, none⟩).1
    let reader : Reader := ⟨(RememberingCursor.next source ⟨0, none⟩).2, 1, {}, false, false⟩
    RememberingCursor.Reached source reader.cursor [name] ∧ source.size < 21 ∧
      (Entry.script.setting options source).listsArguments name
        (source.tokensFrom reader.cursor.position) = true ∧
      (Look.checkTemplateType 21 3 name (Entry.script.setting options source) reader).1 = true ∧
      (Look.checkTemplateType 21 3 name
        (Entry.script.setting options source) reader).2.cursor.position = 17 ∧
      (Entry.script.setting options source).ReadsList (options.maxDepth - reader.depth)
        reader.cursor.position
        (Look.checkTemplateType 21 3 name
          (Entry.script.setting options source) reader).2.cursor.position := by
  intro source options name reader
  have hreached : RememberingCursor.Reached source reader.cursor [name] := .next (.start 0)
  have hsize : source.size < 21 := by decide
  have hlists : (Entry.script.setting options source).listsArguments name
      (source.tokensFrom reader.cursor.position) = true := by decide +kernel
  have hcheck : (Look.checkTemplateType 21 3 name (Entry.script.setting options source)
      reader).1 = true := by decide +kernel
  have hstop : (Look.checkTemplateType 21 3 name (Entry.script.setting options source)
      reader).2.cursor.position = 17 := by decide +kernel
  exact ⟨hreached, hsize, hlists, hcheck, hstop,
    readsList_of_checkTemplateType .script options source reader hreached hsize
      (Nat.le_refl 3) hlists hcheck⟩

end ScriptSyntax.Grammar
