import ScriptSyntax.Proofs.ClassBraces
import ScriptSyntax.Proofs.TypesInFront

/-!
# Types of variables

A type that is accepted alone is the type of a variable when a name and a semicolon stand behind it.
What tells a variable in a script scans the type, so its template arguments have to be such as are
seen ahead.
-/

namespace ScriptSyntax

theorem Node.append_right_cancel {node child other : Node}
    (h : node.append child = node.append other) : child = other := by
  have hchildren := congrArg Node.children h
  rw [Node.children_append, Node.children_append] at hchildren
  simpa using List.append_cancel_left hchildren

namespace Grammar

/-! ## The last token of a type -/

/-- The last token may go on behind a separator. -/
def EndsOpen (tokens : List Token) : Prop :=
  ∃ last, tokens.getLast? = some last ∧ last.kind.goesOn = true

theorem TokenKind.goesOn_of_isTypePart {kind : TokenKind} (h : kind.isTypePart = true) :
    kind.goesOn = false := by
  cases kind <;> first | rfl | cases h

theorem EndsOpen.tail {setting : Setting} {tokens : List Token} (h : EndsOpen tokens)
    (hkind : (tokens.headD setting.finish).kind.goesOn = false) : EndsOpen tokens.tail := by
  obtain ⟨last, hlast, hopen⟩ := h
  match tokens with
  | [] => cases hlast
  | [token] =>
      obtain rfl : token = last := Option.some.inj hlast
      rw [List.headD_cons, hopen] at hkind
      cases hkind
  | token :: second :: rest => exact ⟨last, by rwa [List.getLast?_cons_cons] at hlast, hopen⟩

theorem EndsOpen.afterGreater? {setting : Setting} {tokens next : List Token} (h : EndsOpen tokens)
    (hreads : setting.Reads tokens) (hgreater : setting.afterGreater? tokens = some next) :
    EndsOpen next := by
  obtain ⟨last, hlast, hopen⟩ := h
  refine ⟨last, hreads.last_of_afterGreater? hgreater hlast ?_, hopen⟩
  by_contra hangle
  rw [TokenKind.goesOn_of_isAngle (by simpa using hangle)] at hopen
  cases hopen

/-- Rules for types leave a quotation at the end of the source where it is. -/
def openEndInvariant (setting : Setting) (hended : setting.Ended) (hwhole : setting.Whole) :
    Invariant where
  setting := setting
  holds _ s := setting.Reads s.ahead ∧ EndsOpen s.ahead
  strict := False
  passes kind := kind.isTypePart = true
  ended := hended
  whole := hwhole
  reads h := h.1
  pass _ h hkind := ⟨h.1.tail, h.2.tail (TokenKind.goesOn_of_isTypePart hkind)⟩
  note _ h _ := h
  label h := h
  greater h hgreater := ⟨h.1.step (.inr hgreater), h.2.afterGreater? h.1 hgreater⟩
  opened _ h := h
  closed _ _ hafter := hafter
  report _ _ h _ := h

namespace Parse

variable {setting : Setting} {room : Nat} {forms : TypeForms} {session after : Session}
  {value : Unit}

/-- A type that takes all tokens does not end with a quotation. -/
theorem dataType_last (hended : setting.Ended) (hwhole : setting.Whole)
    (hreads : setting.Reads session.ahead) (hnil : after.ahead = []) {last : Token}
    (hlast : session.ahead.getLast? = some last)
    (hrun : dataType room forms setting session = (.ok value, after)) :
    last.kind.goesOn = false := by
  by_contra hopen
  let I := openEndInvariant setting hended hwhole
  have hkeeps := @Comparison.dataType_keeps I.comparison (Invariant.readsTypes id) room forms
  have hends := hkeeps.ends (n := (0 : Nat)) (s := session)
    ⟨rfl, ⟨hreads, last, hlast, by simpa using hopen⟩, False.elim⟩
  rw [show dataType room forms I.comparison.left session = (.ok value, after) from hrun] at hends
  generalize dataType room forms I.comparison.right session = other at hends
  cases hends with
  | lost hlost => exact hlost.1
  | ok hagree =>
      obtain ⟨-, ⟨-, final, hfinal, -⟩, -⟩ := hagree
      rw [hnil] at hfinal
      cases hfinal

/-! ## Variables -/

/-- The declaration of a variable without an initializer. -/
def variableNode (type : Node) (name mark : Token) : Node :=
  (((Node.empty .declaration).append type).append (.ofToken .identifier name)).widen mark.span

theorem kind_variableNode (type : Node) (name mark : Token) :
    (variableNode type name mark).kind = .declaration := by
  unfold variableNode
  rw [(Node.grows_widen _ _).kind, (Node.grows_append _ _).kind, (Node.grows_append _ _).kind]
  rfl

theorem children_variableNode (type : Node) (name mark : Token) :
    (variableNode type name mark).children = [type, .ofToken .identifier name] := by
  unfold variableNode
  rw [Node.children_widen, Node.children_append, Node.children_append]
  rfl

/-- The node of a type does not depend on the node that it is added to. -/
theorem dataType_appends (hrun : dataType room forms setting session = (.ok value, after)) :
    ∃ type, after.building = session.building.append type ∧ ∀ building,
      dataType room forms setting { session with building } =
        (.ok value, { after with building := building.append type }) := by
  obtain ⟨room, rfl, hbody⟩ := dataType_succ_of_ok hrun
  obtain ⟨inner, hinner, rfl⟩ := node_ok hbody
  refine ⟨inner.building, rfl, fun building => ?_⟩
  exact (node_of_ok hinner : node .dataType _ setting { session with building } = _)

/-- A type that takes all of the text is read and seen in front of the name. -/
theorem dataType_before_name {B : NameBehind} {room : Nat} {forms : TypeForms}
    {tokens : List Token} {reports : Diagnostics} {built type : Node}
    (hconst : forms.const = true) (hbefore : B.Before tokens) (hnamed : NamesTypes tokens)
    (hmore : NamesTypes B.more) (hseen : type.SeenBelow)
    (hrun : dataType room forms B.left ⟨tokens, {}, built⟩ =
      (.ok (), ⟨[], reports, built.append type⟩)) :
    StartsType ((tokens ++ B.more).headD B.right.finish) ∧
      (typeAhead room B.right).run (tokens ++ B.more) = some ((), B.more) ∧
      ∀ building, dataType room { auto := true } B.right ⟨tokens ++ B.more, {}, building⟩ =
        (.ok (), ⟨B.more, {}, building.append type⟩) := by
  have hbelow (added : Node) (hadded : built.append type = built.append added) :
      added.SeenBelow :=
    Node.append_right_cancel hadded ▸ hseen
  have hscope : (B.left.head ⟨[], reports, built.append type⟩).kind ≠ .scope := by
    rw [B.ended.head_nil rfl]
    simp
  have hbehind : dataType room { auto := true } B.right ⟨tokens ++ B.more, {}, built⟩ =
      (.ok (), ⟨B.more, {}, built.append type⟩) := by
    refine dataType_behind {} hconst rfl (fun hleads hallows => ?_) hbefore hscope hbelow hrun
    rw [hnamed.allows_iff B.ended hbefore.reads hleads] at hallows ⊢
    exact hallows
  have hwhole : NamesTypes (tokens ++ B.more) := fun token hmem =>
    (List.mem_append.mp hmem).elim (hnamed token) (hmore token)
  have hname : (B.right.head ⟨B.more, {}, built.append type⟩).kind = .identifier := B.name
  have hright := hbefore.reads_right
  refine ⟨dataType_head B.ended' rfl hright hwhole hbehind,
    dataType_seen B.ended' rfl hright hwhole (by simp [hname]) (by simp [hname]) hbelow hbehind, ?_⟩
  obtain ⟨added, hadded, happends⟩ := dataType_appends hbehind
  intro building
  obtain rfl : type = added := Node.append_right_cancel hadded
  exact happends building

variable {name mark : Token} {tokens rest : List Token} {diagnostics : Diagnostics} {building : Node}

/-- A type, a name and a semicolon are a variable. -/
theorem variableAhead_of_type (hmodifier : (tokens.headD setting.finish).isAccessModifier = false)
    (hname : name.kind = .identifier) (hmark : mark.kind = .semicolon)
    (htype : (typeAhead room setting).run tokens = some ((), name :: mark :: rest)) :
    (propertyAhead room setting).run tokens = none ∧
      ((variableAhead room setting).run tokens).isSome = true := by
  have hdeclarator : (Continuation.declaratorAhead room setting).run tokens =
      some ((), mark :: rest) := by
    unfold Continuation.declaratorAhead
    rw [Scan.bind_run, Scan.skipIf_run, hmodifier]
    dsimp only [Option.bind_some]
    rw [if_neg (by simp), Scan.bind_run, htype, Option.bind_some, Scan.requireIdentifier_run]
    simp [hname, TokenKind.isIdentifier]
  constructor
  · rw [Continuation.propertyAhead_eq, Scan.bind_run, hdeclarator]
    dsimp only [Option.bind_some]
    rw [Scan.bind_run, Scan.require_run, List.headD_cons, hmark]
    rfl
  · rw [Continuation.variableAhead_eq, Scan.bind_run, hdeclarator]
    dsimp only [Option.bind_some]
    rw [Continuation.variableMarkAhead_run, hmark]
    rfl

/-- A single name without an initializer. -/
theorem variableNames_single (hname : name.kind = .identifier) (hmark : mark.kind = .semicolon) :
    variableNames laterInitializer setting ⟨name :: mark :: rest, diagnostics, building⟩ =
      (.ok (), ⟨rest, diagnostics,
        (building.append (.ofToken .identifier name)).widen mark.span⟩) := by
  have hidentifier : identifier setting ⟨name :: mark :: rest, diagnostics, building⟩ =
      (.ok (), ⟨mark :: rest, diagnostics, building.append (.ofToken .identifier name)⟩) :=
    identifier_eq (decide_eq_true hname)
  generalize building.append (.ofToken .identifier name) = named at hidentifier ⊢
  have habsent {α : Type} {kind : TokenKind} {next : Bool → Parse α} (hkind : mark.kind ≠ kind) :
      (nextIs kind >>= next) setting ⟨mark :: rest, diagnostics, named⟩ =
        next false setting ⟨mark :: rest, diagnostics, named⟩ := by
    rw [nextIs_bind]
    exact congrArg (next · setting _) (decide_eq_false hkind)
  have hinitializer : laterInitializer setting ⟨mark :: rest, diagnostics, named⟩ =
      (.ok (), ⟨mark :: rest, diagnostics, named⟩) := by
    unfold laterInitializer
    rw [habsent (by simp [hmark]), habsent (by simp [hmark])]
    rfl
  have hnames : commaSeparated (do identifier; laterInitializer) setting
      ⟨name :: mark :: rest, diagnostics, building⟩ =
        (.ok (), ⟨mark :: rest, diagnostics, named⟩) := by
    refine repeatRule_last ?_
    rw [bind_run, bind_run, hidentifier]
    dsimp only
    rw [hinitializer]
    dsimp only
    rw [habsent (by simp [hmark])]
    rfl
  unfold variableNames
  rw [bind_run, hnames]
  dsimp only
  rw [nextIs_bind]
  simp only [Setting.head, List.headD_cons, hmark, decide_true, ↓reduceIte]
  rfl

theorem globalVariable_single {type : Node} (hname : name.kind = .identifier)
    (hmark : mark.kind = .semicolon)
    (hrun : dataType room { auto := true } setting ⟨tokens, diagnostics, .empty .declaration⟩ =
      (.ok (), ⟨name :: mark :: rest, diagnostics, (Node.empty .declaration).append type⟩)) :
    globalVariable room setting ⟨tokens, diagnostics, building⟩ =
      (.ok (), ⟨rest, diagnostics, building.append (variableNode type name mark)⟩) := by
  have hinner : (do
      dataType room { auto := true }
      variableNames laterInitializer : Parse Unit) setting
        ⟨tokens, diagnostics, .empty .declaration⟩ =
      (.ok (), ⟨rest, diagnostics, variableNode type name mark⟩) := by
    rw [bind_run, hrun]
    exact variableNames_single hname hmark
  exact (node_of_ok hinner : node .declaration _ setting ⟨tokens, diagnostics, building⟩ = _)

theorem StartsType.kinds {token : Token} (h : StartsType token) :
    token.isAccessModifier = false ∧ endsText false token = false := by
  unfold StartsType Token.isTypeName at h
  unfold Token.isAccessModifier endsText
  generalize token.kind = kind at h
  rcases h with rfl | rfl | htype
  · exact ⟨rfl, rfl⟩
  · exact ⟨rfl, rfl⟩
  · cases kind with
    | keyword word => cases word <;> first | exact ⟨rfl, rfl⟩ | cases htype
    | endOfSource => cases htype
    | _ => exact ⟨rfl, rfl⟩

/-- What starts like a type is a member of the script. -/
theorem scriptItem_of_type {nested : Parse Unit} (h : StartsType (tokens.headD setting.finish)) :
    scriptItem room nested tokens setting session = globalMember room setting session := by
  unfold StartsType at h
  unfold scriptItem
  rw [read_bind]
  generalize tokens.headD setting.finish = first at h ⊢
  rcases h with hconst | hscope | htype
  · rw [hconst]
  · rw [hscope]
  · simp only [htype, ↓reduceIte]
    unfold Token.isTypeName at htype
    generalize first.kind = kind at htype
    -- the words and marks that are told apart name no type
    cases kind with
    | keyword word => cases word <;> first | rfl | cases htype
    | punctuation mark => cases mark <;> first | rfl | cases htype
    | _ => rfl

/-- A type, a name and a semicolon are a declaration of a script. -/
theorem scriptStep_variable {nested : Parse Unit} {type : Node}
    (hfirst : (tokens.headD setting.finish).hasRole .declarationModifier = false)
    (hhead : StartsType (tokens.headD setting.finish))
    (hname : name.kind = .identifier) (hmark : mark.kind = .semicolon)
    (htype : (typeAhead room setting).run tokens = some ((), name :: mark :: rest))
    (hrun : dataType room { auto := true } setting ⟨tokens, diagnostics, .empty .declaration⟩ =
      (.ok (), ⟨name :: mark :: rest, diagnostics, (Node.empty .declaration).append type⟩)) :
    scriptStep room false nested setting ⟨tokens, diagnostics, building⟩ =
      (.ok true, ⟨rest, diagnostics, building.append (variableNode type name mark)⟩) := by
  obtain ⟨hmodifier, hgoes⟩ := hhead.kinds
  have hplain : tokens.dropWhile (·.hasRole .declarationModifier) = tokens := by
    cases tokens with
    | nil => rfl
    | cons first others => exact List.dropWhile_cons_of_neg (by simpa using hfirst)
  obtain ⟨hproperty, hvariable⟩ := variableAhead_of_type hmodifier hname hmark htype
  have hmember : globalMember room setting ⟨tokens, diagnostics, building⟩ =
      globalVariable room setting ⟨tokens, diagnostics, building⟩ := by
    unfold globalMember
    rw [sees_bind, hproperty, Option.isSome_none, if_neg (by simp), sees_bind, hvariable,
      if_pos rfl]
  rw [ScriptComparison.scriptStep_run, hplain, hgoes, if_neg (by simp), bind_run,
    recovering_run, scriptItem_of_type hhead, hmember, globalVariable_single hname hmark hrun]
  rfl

/-- A script whose first declaration takes all tokens. -/
theorem script_single {room : Nat} {tokens : List Token} {declaration : Node}
    (hended : setting.Ended) (hreads : setting.Reads tokens)
    (hstep : scriptStep room false (namespaceDeclaration room) setting
      ⟨tokens, {}, .empty .script⟩ = (.ok true, ⟨[], {}, (Node.empty .script).append declaration⟩)) :
    script room setting ⟨tokens, {}, .empty .undefined⟩ =
      (.ok (), ⟨[], {}, (Node.empty .undefined).append
        ((Node.empty .script).append declaration)⟩) := by
  have hlast : endsText false setting.finish = true := by
    unfold endsText
    rw [show setting.finish.kind = .endOfSource from hended]
    rfl
  have hinner : repeatRule (scriptStep room false (namespaceDeclaration room)) setting
      ⟨tokens, {}, .empty .script⟩ = (.ok (), ⟨[], {}, (Node.empty .script).append declaration⟩) := by
    rw [repeatRule_again hended hreads hstep]
    refine repeatRule_last ?_
    rw [ScriptComparison.scriptStep_run]
    exact if_pos hlast
  exact (node_of_ok hinner : node .script _ setting ⟨tokens, {}, .empty .undefined⟩ = _)

end Parse

end Grammar

/-! ## Sources -/

theorem Source.tokensAt_variable (offset : Nat) :
    tokensAt offset ['\n', 'x', ';'] =
      [⟨.identifier, ⟨offset + 1, offset + 2⟩, "x"⟩,
        ⟨.semicolon, ⟨offset + 2, offset + 3⟩, ";"⟩] := by
  have htokens : tokensAt 0 ['x', ';'] =
      [⟨.identifier, ⟨0, 1⟩, "x"⟩, ⟨.semicolon, ⟨1, 2⟩, ";"⟩] := by
    decide
  calc tokensAt offset ['\n', 'x', ';']
    _ = tokensAt (0 + (offset + 1)) ['x', ';'] := by
      rw [Nat.zero_add]
      exact tokensAt_blank rfl _
    _ = (tokensAt 0 ['x', ';']).map (Token.shifted (offset + 1)) := tokensAt_shifted _
    _ = _ := by
      rw [htokens]
      simp only [List.map_cons, List.map_nil, Token.shifted, Nat.add_comm _ (offset + 1)]

namespace Entry

open Grammar Grammar.Parse

/-- A type alone, and the type with the rest of a variable behind it. -/
def variableBehind (options : Options) (source : Source) : NameBehind where
  left := (dataType false).setting options source
  right := script.setting options (source ++ ['\n', 'x', ';'])
  separator := '\n'
  behind := ['x', ';']
  isSeparator := .inl rfl
  source_eq := rfl
  options_eq := rfl
  application_eq := rfl
  ended := rfl
  ended' := rfl
  whole := Nat.le_max_right _ _
  name := by
    unfold Continuation.more
    rw [Source.tokensAt_variable]
    rfl
  unscoped := by
    unfold Continuation.more
    rw [Source.tokensAt_variable]
    simp

variable {options : Options} {source : Source}

/-- A type that is accepted alone takes all tokens. -/
theorem dataType_run (hclean : ((dataType false).parse options source).diagnostics.errors = []) :
    ∃ type after, Parse.dataType options.maxDepth { anyType := true, auto := true }
        ((dataType false).setting options source)
        ⟨source.tokensFrom 0, {}, .empty .dataType⟩ = (.ok (), after) ∧ after.ahead = [] ∧
      after.building = (Node.empty .dataType).append type ∧
      ((dataType false).parse options source).root.children = [type] := by
  have hrun := run_of_clean (dataType false) options source hclean
  obtain ⟨_, typed, htyped, hend⟩ := bind_ok hrun
  obtain ⟨inner, hinner, rfl⟩ := node_ok htyped
  obtain ⟨_, after, hafter, hlast⟩ := bind_ok hinner
  cases hlast
  have hreads : ((dataType false).setting options source).Reads (source.tokensFrom 0) := ⟨0, rfl⟩
  have hinside := hreads.leads (advance_of_run hafter).forward
  obtain ⟨hsession, hnil⟩ := expectEnd_ok (by exact hinside) hend
  obtain ⟨type, htype, -⟩ := dataType_appends hafter
  refine ⟨type, inner, hafter, hnil, htype, ?_⟩
  rw [root_eq (congrArg Session.building hsession), htype]
  exact Node.children_append _ _

theorem namesTypes_more (options : Options) (source : Source) :
    NamesTypes (variableBehind options source).more := by
  have hmore : (variableBehind options source).more = _ := Source.tokensAt_variable source.size
  intro token hmem
  rw [hmore] at hmem
  simp only [List.mem_cons, List.not_mem_nil, or_false] at hmem
  rcases hmem with rfl | rfl <;> simp

/-- A text that is accepted as a type, and may be the type of a variable in a script. -/
structure IsVariableType (options : Options) (source : Source) : Prop where
  last : (source.tokensFrom 0).getLast?.map (·.span.stop) = some source.size
  first : (source.tokensFrom 0).head?.any (·.hasRole .declarationModifier) = false
  named : NamesTypes (source.tokensFrom 0)
  clean : ((dataType false).parse options source).diagnostics.errors = []
  seen : ((dataType false).parse options source).root.SeenBelow

namespace IsVariableType

/-- The tokens of the name stand behind those of the type. -/
theorem before (h : IsVariableType options source) {value : Unit} {after : Session}
    (hnil : after.ahead = [])
    (hrun : Parse.dataType options.maxDepth { anyType := true, auto := true }
        ((dataType false).setting options source) ⟨source.tokensFrom 0, {}, .empty .dataType⟩ =
      (.ok value, after)) :
    (variableBehind options source).Before (source.tokensFrom 0) ∧
      (source ++ ['\n', 'x', ';']).tokensFrom 0 =
        source.tokensFrom 0 ++ (variableBehind options source).more := by
  let B := variableBehind options source
  obtain ⟨last, hlast, hstop⟩ := Option.map_eq_some_iff.mp h.last
  have hreads : B.left.Reads (source.tokensFrom 0) := ⟨0, rfl⟩
  have hclosed := dataType_last B.ended B.whole hreads hnil hlast hrun
  refine ⟨⟨hreads, fun token htoken => ?_⟩,
    Continuation.tokensFrom_append (K := B.toContinuation) hlast hstop hclosed⟩
  obtain rfl : last = token := Option.some.inj (hlast.symm.trans htoken)
  exact ⟨hclosed, hstop⟩

/-- The first token of the variable is the first token of the type. -/
theorem first_append (h : IsVariableType options source) (more : List Token) (finish : Token) :
    ((source.tokensFrom 0 ++ more).headD finish).hasRole .declarationModifier = false := by
  obtain ⟨last, hlast, -⟩ := Option.map_eq_some_iff.mp h.last
  have hplain := h.first
  cases hahead : source.tokensFrom 0 with
  | nil =>
      rw [hahead] at hlast
      cases hlast
  | cons first rest => rwa [hahead] at hplain

/-- A type that is accepted alone is the type of a variable when a name and a semicolon stand behind
it. -/
theorem script_variable (h : IsVariableType options source) :
    ∃ type declaration name,
      ((dataType false).parse options source).root.children = [type] ∧
      (script.parse options (source ++ ['\n', 'x', ';'])).diagnostics.reported = [] ∧
      (script.parse options (source ++ ['\n', 'x', ';'])).root.children = [declaration] ∧
      declaration.kind = .declaration ∧ declaration.children = [type, name] ∧
      name.kind = .identifier := by
  obtain ⟨type, ⟨ahead, reports, building⟩, hrun, rfl, rfl, hroot⟩ := dataType_run h.clean
  obtain ⟨hbefore, htokens⟩ := h.before rfl hrun
  have hseen : type.SeenBelow := h.seen.child (by rw [hroot]; exact List.mem_cons_self)
  obtain ⟨hstarts, hsees, htype⟩ :=
    dataType_before_name rfl hbefore h.named (namesTypes_more options source) hseen hrun
  obtain ⟨name, mark, hmore, hname, hmark⟩ : ∃ name mark,
      (variableBehind options source).more = [name, mark] ∧
      name.kind = .identifier ∧ mark.kind = .semicolon :=
    ⟨_, _, Source.tokensAt_variable source.size, rfl, rfl⟩
  have hright := hbefore.reads_right
  rw [hmore] at htype hsees hstarts htokens hright
  have hscript := script_single (variableBehind options source).ended' hright
    (scriptStep_variable (h.first_append _ _) hstarts hname hmark hsees (htype _))
  rw [← htokens] at hscript
  have hsession := congrArg Prod.snd hscript
  change script.session options (source ++ ['\n', 'x', ';']) = _ at hsession
  refine ⟨type, variableNode type name mark, .ofToken .identifier name, hroot,
    congrArg (·.diagnostics.reported) hsession, ?_, kind_variableNode _ _ _,
    children_variableNode _ _ _, Node.kind_ofToken _ _⟩
  rw [root_eq (congrArg Session.building hsession)]
  exact Node.children_append _ _

end IsVariableType

example : IsVariableType {} "array<A>@".toList :=
  ⟨by decide +kernel, by decide +kernel, by decide +kernel, by decide +kernel, by decide +kernel⟩

/-- With `const` behind the handle of an argument the type is accepted, but not seen ahead. -/
example :
    ((dataType false).parse {} "array<A@const>".toList).diagnostics.errors = [] ∧
      (script.parse {} "array<A@const>\nx;".toList).diagnostics.errors ≠ [] := by
  decide +kernel

end Entry

end ScriptSyntax
