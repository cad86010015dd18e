import ScriptSyntax.Proofs.Persistence.Script
import ScriptSyntax.Proofs.QuietRuns
import ScriptSyntax.Proofs.SignatureSpans

/-!
# List patterns

A list factory is declared by a signature and a pattern for the lists that it takes.  Behind a
signature without errors the whole is without errors exactly if the rest of the tokens is a pattern,
and the tree then has a node for each of its elements.
-/

namespace ScriptSyntax

namespace Grammar

open Parse

/-! ## The language of patterns -/

/-- From the tokens on a type is read up to the rest without an error. -/
def Setting.ReadsType (setting : Setting) (room : Nat) (tokens rest : List Token) (node : Node) :
    Prop :=
  ∃ after, dataType room { anyType := true } setting ⟨tokens, {}, .empty .undefined⟩ =
      (.ok (), after) ∧ after.Clean ∧ after.ahead = rest ∧ after.building.children = [node] ∧
      node.kind = .dataType

/-- A type that does not start with a marker, or what may stand there besides. -/
def Setting.IsElement (setting : Setting) (room : Nat)
    (nested : List Token → List Token → Node → Prop) (tokens rest : List Token) (node : Node) :
    Prop :=
  nested tokens rest node ∨
    isPatternMarker (tokens.headD setting.finish) = false ∧ setting.ReadsType room tokens rest node

/-- Elements with commas between them, and the closing brace. -/
inductive Elements (element : List Token → List Token → Node → Prop) :
    List Token → List Token → List Node → Prop
  | last {tokens rest : List Token} {closing : Token} {node : Node}
      (first : element tokens (closing :: rest) node) (hclosing : closing.kind = .closeBrace) :
      Elements element tokens rest [node]
  | more {tokens middle rest : List Token} {separator : Token} {node : Node} {nodes : List Node}
      (first : element tokens (separator :: middle) node) (hseparator : separator.kind = .comma)
      (others : Elements element middle rest nodes) : Elements element tokens rest (node :: nodes)

/-- The tokens up to the rest are a pattern: a brace, perhaps a marker, and elements, which may be
patterns that are nested less deeply. -/
def Setting.IsPattern (setting : Setting) : Nat → List Token → List Token → Node → Prop
  | 0, _, _, _ => False
  | room + 1, tokens, rest, pattern =>
      ∃ (opening : Token) (marker : Option Token) (inside : List Token) (elements : List Node),
        tokens = opening :: (marker.toList ++ inside) ∧ opening.kind = .openBrace ∧
          (∀ word ∈ marker, isPatternMarker word = true) ∧
          Elements (setting.IsElement room (setting.IsPattern room)) inside rest elements ∧
          pattern.kind = .listPattern ∧
          pattern.children = marker.toList.map (.ofToken .identifier) ++ elements

variable {setting : Setting} {session after : Session} {room : Nat}
  {language : List Token → List Token → Node → Prop} {tokens rest : List Token} {node : Node}

theorem Setting.IsPattern.opens (h : setting.IsPattern room tokens rest node) :
    (tokens.headD setting.finish).kind = .openBrace := by
  cases room with
  | zero => exact h.elim
  | succ room =>
      obtain ⟨opening, marker, inside, elements, rfl, hopening, -⟩ := h
      exact hopening

/-- A type starts with no mark of a pattern. -/
theorem Setting.ReadsType.starts (h : setting.ReadsType room tokens rest node) :
    (tokens.headD setting.finish).kind ∉
      ([.closeBrace, .comma, .endOfSource, .openBrace] : List TokenKind) := by
  obtain ⟨after, hrun, -⟩ := h
  intro hmem
  have hallows : TypeForms.allows { anyType := true } (tokens.headD setting.finish) = true := by
    refine allows_of_dataType_ok ?_ ?_ ?_ hrun <;>
    · intro hkind
      change (tokens.headD setting.finish).kind = _ at hkind
      rw [hkind] at hmem
      revert hmem
      decide
  generalize tokens.headD setting.finish = token at hmem hallows
  simp only [List.mem_cons, List.not_mem_nil, or_false] at hmem
  unfold TypeForms.allows Token.isTypeName at hallows
  rcases hmem with hkind | hkind | hkind | hkind <;>
  · rw [hkind] at hallows
    cases hallows

theorem isIdentifier_of_isPatternMarker {token : Token} (h : isPatternMarker token = true) :
    token.kind.isIdentifier = true := by
  unfold isPatternMarker Token.isWord at h
  rw [← Bool.and_or_distrib_left] at h
  exact (Bool.and_eq_true_iff.mp h).1

/-- No element starts with a marker. -/
theorem Setting.IsElement.unmarked
    (h : setting.IsElement room (setting.IsPattern room) tokens rest node) :
    isPatternMarker (tokens.headD setting.finish) = false := by
  rcases h with hpattern | ⟨hunmarked, -⟩
  · refine Bool.eq_false_iff.mpr fun hmarker => ?_
    have hname := isIdentifier_of_isPatternMarker hmarker
    rw [hpattern.opens] at hname
    cases hname
  · exact hunmarked

theorem Elements.exists_first {nodes : List Node} (h : Elements language tokens rest nodes) :
    ∃ behind node, language tokens behind node := by
  cases h with
  | last first => exact ⟨_, _, first⟩
  | more first => exact ⟨_, _, first⟩

/-- The rule comes to its end without an error exactly where the language says, and adds a node. -/
structure Setting.ReadsAs (setting : Setting) (rule : Parse Unit)
    (language : List Token → List Token → Node → Prop) : Prop where
  sound : ∀ {session after}, rule setting session = (.ok (), after) → after.Clean →
    setting.Reads session.ahead →
    ∃ node, language session.ahead after.ahead node ∧
      after.building.children = session.building.children ++ [node]
  complete : ∀ session {rest node}, session.Clean → setting.Reads session.ahead →
    language session.ahead rest node →
    ∃ after, rule setting session = (.ok (), after) ∧ after.Clean ∧ after.ahead = rest

namespace Parse

/-! ## Types -/

theorem errors_followed (all : Diagnostics) (reports : List Diagnostic) :
    (all.followed reports).errors = all.errors ++ (Diagnostics.followed {} reports).errors := by
  simp [Diagnostics.followed, Diagnostics.errors, Diagnostics.ofSeverity]

/-- A type is read in the same way whatever was reported and built before. -/
theorem dataType_elsewhere {forms : TypeForms} (hended : setting.Ended)
    (hrun : dataType room forms setting session = (.ok (), after)) (hclean : after.Clean)
    (hreads : setting.Reads session.ahead) (other : Session) (hsame : other.ahead = session.ahead)
    (hother : other.Clean) :
    ∃ node last, node.kind = .dataType ∧
      after.building.children = session.building.children ++ [node] ∧
      dataType room forms setting other = (.ok (), last) ∧ last.Clean ∧
      last.ahead = after.ahead ∧ last.building.children = other.building.children ++ [node] := by
  obtain ⟨smaller, rfl, hbody⟩ := dataType_succ_of_ok hrun
  have hle : Fact (smaller + 1 ≤ smaller + 1) := ⟨Nat.le_refl _⟩
  have hpersists : Persists (dataType (smaller + 1) forms) (dataType (smaller + 1) forms) :=
    inferInstance
  obtain ⟨_, _, hlow, -, hnever | ⟨reports, hreports, hhigh⟩⟩ :=
    (hpersists.always setting session).lasts hended hreads (by rwa [hrun])
  · exact hnever.elim
  cases hrun.symm.trans hlow
  have hquiet : (Diagnostics.followed {} reports).errors = [] := by
    unfold Session.Clean at hclean
    rw [hreports, errors_followed] at hclean
    exact (List.append_eq_nil_iff.mp hclean).2
  have hhigh := hhigh setting.options.maxDepth other.diagnostics
  change typeBody smaller (dataType smaller {}) forms setting _ = _ at hhigh
  obtain ⟨inner, hinner, rfl⟩ := node_ok hbody
  obtain ⟨again, hagain, hlast⟩ := node_ok hhigh
  obtain ⟨hahead, hdiagnostics, happended⟩ := Session.mk.inj hlast
  have hbuilding : inner.building = again.building := by
    simpa using congrArg Node.children happended
  refine ⟨inner.building, { again with building := other.building.append again.building },
    (advance_of_run hinner).building.kind, by simp, ?_, ?_, hahead.symm, ?_⟩
  · obtain ⟨ahead, diagnostics, building⟩ := other
    cases hsame
    exact node_of_ok hagain
  · change again.diagnostics.errors = []
    rw [← hdiagnostics, errors_followed, hother, hquiet]
    rfl
  · rw [hbuilding, Node.children_append]

theorem dataType_readsAs (hended : setting.Ended) (room : Nat) :
    setting.ReadsAs (dataType room { anyType := true }) (setting.ReadsType room) := by
  constructor
  · intro session after hrun hclean hreads
    obtain ⟨node, last, hkind, hchildren, hlast, hcleanLast, hahead, hnode⟩ :=
      dataType_elsewhere hended hrun hclean hreads ⟨session.ahead, {}, .empty .undefined⟩ rfl rfl
    exact ⟨node, ⟨last, hlast, hcleanLast, hahead, hnode, hkind⟩, hchildren⟩
  · rintro session _ node hclean hreads ⟨last, hlast, hcleanLast, rfl, -⟩
    obtain ⟨_, after, -, -, hafter, hcleanAfter, hahead, -⟩ :=
      dataType_elsewhere hended hlast hcleanLast hreads session rfl hclean
    exact ⟨after, hafter, hcleanAfter, hahead⟩

/-! ## Elements -/

section

variable {nested : Parse Unit} {start : List Token}

theorem patternElement_readsAs (hended : setting.Ended) (hnested : setting.ReadsAs nested language)
    (hopens : ∀ {tokens rest node}, language tokens rest node →
      (tokens.headD setting.finish).kind = .openBrace) :
    setting.ReadsAs (patternElement room nested start) (setting.IsElement room language) := by
  have htype := dataType_readsAs hended room
  constructor
  · intro session after hrun hclean hreads
    unfold patternElement at hrun
    rw [peek_bind, widen_bind] at hrun
    generalize (setting.head session).kind = kind at hrun
    split at hrun
    case h_4 =>
      obtain ⟨node, hnode, hchildren⟩ := hnested.sound hrun hclean hreads
      exact ⟨node, .inl hnode, by rw [hchildren, Node.children_widen]⟩
    case h_5 =>
      split at hrun
      · cases hrun
      · rename_i hmarker
        obtain ⟨node, hnode, hchildren⟩ := htype.sound hrun hclean hreads
        refine ⟨node, .inr ⟨?_, hnode⟩, by rw [hchildren, Node.children_widen]⟩
        exact Bool.eq_false_iff.mpr hmarker
    all_goals cases hrun
  · rintro session rest node hclean hreads (hnode | ⟨hmarker, hnode⟩)
    · have hopen : (setting.head session).kind = .openBrace := hopens hnode
      unfold patternElement
      rw [peek_bind, widen_bind, hopen]
      exact hnested.complete _ hclean hreads hnode
    · have hstarts : (setting.head session).kind ∉ _ := hnode.starts
      unfold patternElement
      rw [peek_bind, widen_bind]
      generalize (setting.head session).kind = kind at hstarts
      split
      case h_5 =>
        have hword : ¬isPatternMarker (setting.head session) = true := Bool.eq_false_iff.mp hmarker
        rw [if_neg hword]
        exact htype.complete _ hclean hreads hnode
      all_goals simp at hstarts

end

section Rounds

variable {element : Parse Unit} {start : List Token} {again : Bool}

theorem patternSeparator_run (h : (setting.head session).kind = separatorKind again) :
    patternSeparator start setting session = (.ok again, setting.passed .span session) := by
  unfold patternSeparator
  rw [peek_bind, widen_bind, h]
  cases again <;> rfl

theorem clean_of_run {α : Type} {rule : Parse α} [hrule : Forwards rule]
    {result : Except Interruption α} (hrun : rule setting session = (result, after))
    (hclean : after.Clean) : session.Clean := by
  have hreported := hrule.reported setting session
  rw [hrun] at hreported
  by_contra hfaulty
  exact errors_ne_nil_of_grown hreported hfaulty hclean

theorem element_sound [Forwards element] (hended : setting.Ended)
    (helement : setting.ReadsAs element language)
    (hrun : (do element; patternSeparator start) setting session = (.ok again, after))
    (hclean : after.Clean) (hreads : setting.Reads session.ahead) :
    ∃ separator node, language session.ahead (separator :: after.ahead) node ∧
      separator.kind = separatorKind again ∧
      after.building.children = session.building.children ++ [node] := by
  obtain ⟨_, middle, hmiddle, hseparator⟩ := bind_ok hrun
  obtain ⟨hkind, rfl⟩ := patternSeparator_ok hseparator
  obtain ⟨node, hnode, hchildren⟩ := helement.sound hmiddle hclean hreads
  have hcons : middle.ahead = setting.head middle :: middle.ahead.tail :=
    hended.ahead_cons (by cases again <;> simp [hkind, separatorKind])
  rw [hcons] at hnode
  refine ⟨setting.head middle, node, hnode, hkind, ?_⟩
  rw [← hchildren]
  exact Node.children_widen _ _

theorem element_complete (helement : setting.ReadsAs element language) (hclean : session.Clean)
    (hreads : setting.Reads session.ahead) {separator : Token}
    (hnode : language session.ahead (separator :: rest) node) (again : Bool)
    (hkind : separator.kind = separatorKind again) :
    ∃ after, (do element; patternSeparator start) setting session = (.ok again, after) ∧
      after.Clean ∧ after.ahead = rest := by
  obtain ⟨middle, hmiddle, hcleanMiddle, hahead⟩ := helement.complete session hclean hreads hnode
  have hhead : (setting.head middle).kind = separatorKind again := by
    rwa [Setting.head_cons hahead]
  refine ⟨setting.passed .span middle, ?_, hcleanMiddle, ?_⟩
  · rw [bind_run, hmiddle]
    exact patternSeparator_run hhead
  · exact congrArg List.tail hahead

theorem elements_sound [Forwards element] (hended : setting.Ended)
    (helement : setting.ReadsAs element language) {result : Except Interruption Unit × Session}
    (h : Repeats (do element; patternSeparator start) setting session result)
    (hok : result = (.ok (), after)) (hclean : after.Clean) (hreads : setting.Reads session.ahead) :
    session.Clean ∧ ∃ nodes, Elements language session.ahead after.ahead nodes ∧
      after.building.children = session.building.children ++ nodes := by
  induction h with
  | last hbody =>
      cases hok
      obtain ⟨closing, node, hnode, hclosing, hchildren⟩ :=
        element_sound hended helement hbody hclean hreads
      exact ⟨clean_of_run hbody hclean, [node], .last hnode hclosing, hchildren⟩
  | broken => cases hok
  | @again session middle result hbody _ ih =>
      have hmiddle : setting.Reads middle.ahead :=
        hreads.leads (Forwards.leads setting session true middle hbody)
      obtain ⟨hcleanMiddle, nodes, hnodes, hchildren⟩ := ih hok hmiddle
      obtain ⟨separator, node, hnode, hseparator, hfirst⟩ :=
        element_sound hended helement hbody hcleanMiddle hreads
      refine ⟨clean_of_run hbody hcleanMiddle, node :: nodes, .more hnode hseparator hnodes, ?_⟩
      rw [hchildren, hfirst, List.append_assoc, List.singleton_append]

theorem elements_complete (start : List Token) [hrounds : Rounds (do element; patternSeparator start)]
    (hended : setting.Ended) (helement : setting.ReadsAs element language) {nodes : List Node}
    (h : Elements language tokens rest nodes) (session : Session) (hahead : session.ahead = tokens)
    (hclean : session.Clean) (hreads : setting.Reads tokens) :
    ∃ after, repeatRule (do element; patternSeparator start) setting session = (.ok (), after) ∧
      after.Clean ∧ after.ahead = rest := by
  induction h generalizing session with
  | last hnode hclosing =>
      subst hahead
      obtain ⟨after, hround, hafter⟩ := element_complete helement hclean hreads hnode false hclosing
      exact ⟨after, repeatRule_last hround, hafter⟩
  | more hnode hseparator hothers ih =>
      subst hahead
      obtain ⟨next, hround, hnext, rfl⟩ :=
        element_complete helement hclean hreads hnode true hseparator
      rw [repeatRule_again hended hreads hround]
      have hpasses := hrounds.passes setting session next hended hround
      exact ih next rfl hnext (hreads.leads hpasses.to_reflTransGen)

end Rounds

/-! ## Patterns -/

/-- The session behind a marker, if one comes next. -/
def markerPassed (setting : Setting) (session : Session) : Session :=
  if isPatternMarker (setting.head session) then
    ⟨session.ahead.tail, session.diagnostics,
      session.building.append (.ofToken .identifier (setting.head session))⟩
  else session

theorem marker_bind {α : Type} (next : Parse α) :
    (do
      if isPatternMarker (← peek) then identifier
      next) setting session = next setting (markerPassed setting session) := by
  unfold markerPassed
  rw [peek_bind]
  split
  · rename_i hmarker
    rw [bind_run, identifier_eq (isIdentifier_of_isPatternMarker hmarker)]
  · rfl

theorem exists_marker (hended : setting.Ended) (session : Session) :
    ∃ marker : Option Token, (∀ word ∈ marker, isPatternMarker word = true) ∧
      session.ahead = marker.toList ++ (markerPassed setting session).ahead ∧
      (markerPassed setting session).building.children =
        session.building.children ++ marker.toList.map (.ofToken .identifier) := by
  unfold markerPassed
  split
  · rename_i hmarker
    refine ⟨some (setting.head session), by simpa using hmarker, ?_, by simp⟩
    refine hended.ahead_cons fun hend => ?_
    have hname := isIdentifier_of_isPatternMarker hmarker
    rw [hend] at hname
    cases hname
  · exact ⟨none, by simp, rfl, by simp⟩

theorem markerPassed_ahead {marker : Option Token} {inside : List Token}
    (hahead : session.ahead = marker.toList ++ inside)
    (hmarker : ∀ word ∈ marker, isPatternMarker word = true)
    (hinside : isPatternMarker (inside.headD setting.finish) = false) :
    (markerPassed setting session).ahead = inside := by
  unfold markerPassed
  cases marker with
  | none =>
      have hhead : setting.head session = inside.headD setting.finish := by
        rw [Setting.head, hahead]
        rfl
      rw [hhead, hinside]
      exact hahead
  | some word =>
      have hhead : setting.head session = word := Setting.head_cons hahead
      rw [hhead, if_pos (hmarker word rfl), hahead]
      rfl

theorem coverRequired_run {kind : TokenKind} (h : (setting.head session).kind = kind) :
    coverRequired kind setting session = (.ok (), setting.passed .span session) := by
  rw [Comparison.coverRequired_eq, nextIs_bind, if_pos (decide_eq_true h)]
  rfl

theorem listPatternBody_readsAs (hended : setting.Ended)
    (hnested : setting.ReadsAs (listPattern room) (setting.IsPattern room)) :
    setting.ReadsAs (listPatternBody room (listPattern room)) (setting.IsPattern (room + 1)) := by
  have helement (start : List Token) : setting.ReadsAs
      (patternElement room (listPattern room) start)
      (setting.IsElement room (setting.IsPattern room)) :=
    patternElement_readsAs hended hnested Setting.IsPattern.opens
  constructor
  · intro session after hrun hclean hreads
    obtain ⟨inner, hinner, rfl⟩ := node_ok hrun
    have hkind : inner.building.kind = .listPattern := (advance_of_run hinner).building.kind
    rw [ahead_bind] at hinner
    obtain ⟨_, opened, hopened, hinner⟩ := bind_ok hinner
    obtain ⟨hopen, rfl⟩ := coverRequired_passed hopened
    rw [marker_bind] at hinner
    obtain ⟨marker, hmarker, hahead, hchildren⟩ := exists_marker hended
      (setting.passed .span (session.opened .listPattern))
    have hcons : session.ahead = setting.head session :: session.ahead.tail := by
      refine hended.ahead_cons fun hend => ?_
      cases hopen.symm.trans hend
    have hbehind : setting.Reads session.ahead.tail := hreads.tail
    have hinside : setting.Reads
        (markerPassed setting (setting.passed .span (session.opened .listPattern))).ahead :=
      hbehind.suffix ⟨_, hahead.symm⟩
    obtain ⟨-, elements, helements, hlast⟩ := elements_sound hended (helement session.ahead)
      (repeatRule_repeats hended hinside) hinner hclean hinside
    refine ⟨inner.building, ⟨setting.head session, marker, _, elements, ?_, hopen, hmarker,
      helements, hkind, ?_⟩, Node.children_append _ _⟩
    · rw [← hahead]
      exact hcons
    · rw [hlast, hchildren]
      exact congrArg (· ++ _ ++ _) (Node.children_widen _ _)
  · rintro session rest pattern hclean hreads
      ⟨opening, marker, inside, elements, htokens, hopen, hmarker, helements, -⟩
    have hhead : (setting.head (session.opened .listPattern)).kind = .openBrace := by
      have hopening : setting.head (session.opened .listPattern) = opening :=
        Setting.head_cons htokens
      rw [hopening, hopen]
    have hahead : (setting.passed .span (session.opened .listPattern)).ahead =
        marker.toList ++ inside := congrArg List.tail htokens
    obtain ⟨_, _, hfirst⟩ := helements.exists_first
    have hinside := markerPassed_ahead hahead hmarker hfirst.unmarked
    have hcleanInside : (markerPassed setting
        (setting.passed .span (session.opened .listPattern))).Clean := by
      unfold markerPassed
      split <;> exact hclean
    have hreadsInside : setting.Reads inside := hreads.tail.suffix ⟨_, hahead.symm⟩
    obtain ⟨inner, hinner, hcleanInner, hrest⟩ :=
      elements_complete (session.opened .listPattern).ahead hended (helement _) helements _ hinside
        hcleanInside hreadsInside
    refine ⟨session.closed inner, ?_, hcleanInner, hrest⟩
    unfold listPatternBody
    rw [Comparison.node_run, ahead_bind, bind_run, coverRequired_run hhead]
    dsimp only
    rw [marker_bind, hinner]

theorem listPattern_readsAs (hended : setting.Ended) (room : Nat) :
    setting.ReadsAs (listPattern room) (setting.IsPattern room) := by
  induction room with
  | zero =>
      constructor
      · intro session after hrun
        change node .listPattern (fail .maximumNestingDepth) setting session = _ at hrun
        obtain ⟨_, hinner, -⟩ := node_ok hrun
        cases hinner
      · intro session rest node _ _ hnode
        exact hnode.elim
  | succ room ih => exact listPatternBody_readsAs hended ih

end Parse

end Grammar

namespace Entry

open Grammar Grammar.Parse

/-- The session behind the signature of a list factory. -/
def factorySignature (options : Options) (source : Source) : Session :=
  (signature options.maxDepth (listFactorySignature.setting options source)
    ⟨source.tokensFrom 0, {}, .empty .function⟩).2

theorem expectEnd_nil {setting : Setting} {session : Session} (hended : setting.Ended)
    (hnil : session.ahead = []) : expectEnd setting session = (.ok (), session) := by
  unfold expectEnd
  rw [peek_bind, hended.head_nil hnil]
  rfl

section

variable {options : Options} {source : Source} {pattern : Node}

theorem factorySignature_ok (h : (factorySignature options source).Clean) :
    let setting := listFactorySignature.setting options source
    signature options.maxDepth setting ⟨source.tokensFrom 0, {}, .empty .function⟩ =
      (.ok (), factorySignature options source) ∧
      setting.Reads (factorySignature options source).ahead := by
  dsimp only
  have hle : Fact (options.maxDepth ≤ options.maxDepth) := ⟨Nat.le_refl _⟩
  have hpersists : Persists (signature options.maxDepth) (signature options.maxDepth) :=
    inferInstance
  obtain ⟨_, part, hpart, hreads, -⟩ := (hpersists.always
    (listFactorySignature.setting options source) ⟨source.tokensFrom 0, {}, .empty .function⟩).lasts
      rfl ⟨0, rfl⟩ h
  have hfactory : factorySignature options source = part := congrArg Prod.snd hpart
  rw [hfactory]
  exact ⟨hpart, hreads⟩

theorem isPattern_of_parse (hsignature : (factorySignature options source).Clean)
    (hclean : (listFactorySignature.parse options source).diagnostics.errors = []) :
    ∃ pattern, (listFactorySignature.setting options source).IsPattern options.maxDepth
        (factorySignature options source).ahead [] pattern ∧
      (listFactorySignature.parse options source).root.children =
        (factorySignature options source).building.children ++ [pattern] := by
  let setting := listFactorySignature.setting options source
  let session : Session := ⟨source.tokensFrom 0, {}, .empty .undefined⟩
  have hended : setting.Ended := rfl
  obtain ⟨hpart, hreads⟩ := factorySignature_ok hsignature
  obtain ⟨_, closed, hclosed, hend⟩ :=
    bind_ok (listFactorySignature.run_of_clean options source hclean)
  obtain ⟨last, hlast, rfl⟩ := node_ok hclosed
  obtain ⟨_, part, hpart', hlast⟩ := bind_ok hlast
  cases hpart.symm.trans hpart'
  have hlastReads : setting.Reads (session.closed last).ahead :=
    hreads.leads (advance_of_run hlast).forward
  obtain ⟨hsession, hnil⟩ := expectEnd_ok hlastReads hend
  have hcleanLast : last.Clean := by
    change (listFactorySignature.session options source).Clean at hclean
    rwa [hsession] at hclean
  obtain ⟨pattern, hpattern, hchildren⟩ :=
    (listPattern_readsAs hended options.maxDepth).sound hlast hcleanLast hreads
  have hroot : (listFactorySignature.parse options source).root = last.building :=
    root_eq (congrArg Session.building hsession)
  exact ⟨pattern, hnil ▸ hpattern, by rw [hroot, hchildren]⟩

theorem parse_of_isPattern (hsignature : (factorySignature options source).Clean)
    (hpattern : (listFactorySignature.setting options source).IsPattern options.maxDepth
      (factorySignature options source).ahead [] pattern) :
    (listFactorySignature.parse options source).diagnostics.errors = [] := by
  obtain ⟨hpart, hreads⟩ := factorySignature_ok hsignature
  let session : Session := ⟨source.tokensFrom 0, {}, .empty .undefined⟩
  have hended : (listFactorySignature.setting options source).Ended := rfl
  obtain ⟨last, hlast, hclean, hnil⟩ :=
    (listPattern_readsAs hended options.maxDepth).complete _ hsignature hreads hpattern
  have hinner : (do signature options.maxDepth; listPattern options.maxDepth : Parse Unit)
      (listFactorySignature.setting options source) (session.opened .function) = (.ok (), last) := by
    rw [bind_run]
    unfold Session.opened
    rw [hpart]
    exact hlast
  have hrun : listFactorySignature.rule options.maxDepth
      (listFactorySignature.setting options source) session = (.ok (), session.closed last) := by
    dsimp only [rule]
    rw [bind_run, node_of_ok hinner]
    exact expectEnd_nil hended hnil
  change (listFactorySignature.rule options.maxDepth _ session).2.Clean
  rw [hrun]
  exact hclean

/-- Behind a signature without errors, a list factory is read without errors exactly if the rest of
the tokens is a pattern, and the pattern is the last child of its tree. -/
theorem listFactory_patterns (options : Options) (source : Source)
    (hsignature : (factorySignature options source).Clean) :
    let part := factorySignature options source
    let IsPattern := (listFactorySignature.setting options source).IsPattern options.maxDepth
    let outcome := listFactorySignature.parse options source
    (outcome.diagnostics.errors = [] ↔ ∃ pattern, IsPattern part.ahead [] pattern) ∧
      (outcome.diagnostics.errors = [] → ∃ pattern, IsPattern part.ahead [] pattern ∧
        outcome.root.children = part.building.children ++ [pattern]) := by
  refine ⟨⟨fun hclean => ?_, ?_⟩, isPattern_of_parse hsignature⟩
  · obtain ⟨pattern, hpattern, -⟩ := isPattern_of_parse hsignature hclean
    exact ⟨pattern, hpattern⟩
  · rintro ⟨pattern, hpattern⟩
    exact parse_of_isPattern hsignature hpattern

/-- A pattern in a pattern with as little room as that takes, and a comma with no element behind
it. -/
theorem listFactory_patterns_nested :
    let options : Options := { maxDepth := 3 }
    let nested := "T f() { repeat { int, ? } }".toList
    let broken := "T f() { int, }".toList
    let part := factorySignature options nested
    (part.Clean ∧ ∃ pattern,
        (listFactorySignature.setting options nested).IsPattern 3 part.ahead [] pattern ∧
          (listFactorySignature.parse options nested).root.children =
            part.building.children ++ [pattern]) ∧
      (factorySignature options broken).Clean ∧
        ¬∃ pattern, (listFactorySignature.setting options broken).IsPattern 3
          (factorySignature options broken).ahead [] pattern := by
  have hnested : (factorySignature { maxDepth := 3 }
      "T f() { repeat { int, ? } }".toList).Clean := by
    change _ = []
    decide +kernel
  have hclean : (listFactorySignature.parse { maxDepth := 3 }
      "T f() { repeat { int, ? } }".toList).diagnostics.errors = [] := by
    decide +kernel
  have hbroken : (factorySignature { maxDepth := 3 } "T f() { int, }".toList).Clean := by
    change _ = []
    decide +kernel
  have hfaulty : (listFactorySignature.parse { maxDepth := 3 }
      "T f() { int, }".toList).diagnostics.errors ≠ [] := by
    decide +kernel
  exact ⟨⟨hnested, (listFactory_patterns _ _ hnested).2 hclean⟩, hbroken,
    fun hpattern => hfaulty ((listFactory_patterns _ _ hbroken).1.mpr hpattern)⟩

end

end Entry

end ScriptSyntax
