import ScriptSyntax.Proofs.QuietRuns
import ScriptSyntax.Proofs.SignatureSpans

/-!
# Template declarations

A template is declared by its name and the names of its parameters.  The rule takes no more than it
needs to tell whether the declaration can still be completed: it reports exactly where the tokens
read so far and the next one are the start of no declaration any more.
-/

namespace ScriptSyntax

/-! ## The language of declarations -/

/-- The kinds behind the opening bracket: names with commas between them, each perhaps behind
`class`, then the closing bracket and the end of the source. -/
inductive ParameterNames : List TokenKind → Prop
  | last : ParameterNames [.identifier, .greater, .endOfSource]
  | next {kinds : List TokenKind} (rest : ParameterNames kinds) :
      ParameterNames (.identifier :: .comma :: kinds)
  | marked {kinds : List TokenKind} (rest : ParameterNames (.identifier :: kinds)) :
      ParameterNames (.keyword .class_ :: .identifier :: kinds)

/-- What may stand behind the name of a parameter. -/
def BehindName (kinds : List TokenKind) : Prop :=
  (∃ rest, kinds = .comma :: rest ∧ ParameterNames rest) ∨ kinds = [.greater, .endOfSource]

def DeclaresTemplate (kinds : List TokenKind) : Prop :=
  ∃ rest, kinds = .identifier :: .less :: rest ∧ ParameterNames rest

theorem parameterNames_identifier {kinds : List TokenKind} :
    ParameterNames (.identifier :: kinds) ↔ BehindName kinds := by
  constructor
  · intro h
    cases h with
    | last => exact .inr rfl
    | next rest => exact .inl ⟨_, rfl, rest⟩
  · rintro (⟨rest, rfl, h⟩ | rfl)
    · exact .next h
    · exact .last

theorem parameterNames_class {kinds : List TokenKind} :
    ParameterNames (.keyword .class_ :: kinds) ↔
      ∃ rest, kinds = .identifier :: rest ∧ BehindName rest := by
  constructor
  · intro h
    cases h with
    | marked rest => exact ⟨_, rfl, parameterNames_identifier.mp rest⟩
  · rintro ⟨rest, rfl, h⟩
    exact .marked (parameterNames_identifier.mpr h)

/-- The kinds are the start of a text of the language. -/
def Begins (language : List TokenKind → Prop) (kinds : List TokenKind) : Prop :=
  ∃ rest, language (kinds ++ rest)

/-- The token is the first one at which the tokens are no longer the start of a text of the
language. -/
def DepartsAt (language : List TokenKind → Prop) (tokens : List Token) (token : Token) : Prop :=
  ∃ before behind, tokens = before ++ token :: behind ∧
    Begins language (before.map (·.kind)) ∧ ¬Begins language ((before ++ [token]).map (·.kind))

theorem DepartsAt.not_mem {language : List TokenKind → Prop} {tokens : List Token} {token : Token}
    (h : DepartsAt language tokens token) : ¬language (tokens.map (·.kind)) := by
  obtain ⟨before, behind, rfl, -, hnot⟩ := h
  intro hlanguage
  apply hnot
  exact ⟨behind.map (·.kind), by simpa using hlanguage⟩

namespace Node

/-- A node over each of the names. -/
def names (tokens : List Token) : List Node :=
  (tokens.filter (·.kind.isIdentifier)).map (.ofToken .identifier)

theorem names_append (first second : List Token) :
    names (first ++ second) = names first ++ names second := by
  simp [names]

end Node

namespace Grammar

/-! ## Reading by a language -/

variable {setting : Setting} {session middle after : Session}
  {language rest other : List TokenKind → Prop}

/-- What was passed between two sessions leaves of the language what may stand behind it, and is kept
as far as it is names. -/
structure Accepts (language rest : List TokenKind → Prop) (session after : Session)
    (passed : List Token) : Prop where
  ahead : session.ahead = passed ++ after.ahead
  left : ∀ kinds, language (passed.map (·.kind) ++ kinds) ↔ rest kinds
  children : after.building.children = session.building.children ++ Node.names passed
  quiet : after.diagnostics = session.diagnostics

/-- Two errors are reported, both where the tokens depart from the language. -/
def Refuses (setting : Setting) (language : List TokenKind → Prop) (session after : Session) : Prop :=
  ∃ token, DepartsAt language (session.ahead ++ [setting.finish]) token ∧
    ∃ first second, after.diagnostics.reported = session.diagnostics.reported ++ [first, second] ∧
      first.severity = .error ∧ second.severity = .error ∧
      first.span = token.span ∧ second.span = token.span

namespace Accepts

variable {passed more : List Token}

theorem trans (h : Accepts language rest session middle passed)
    (hmore : Accepts rest other middle after more) :
    Accepts language other session after (passed ++ more) := by
  constructor
  · rw [h.ahead, hmore.ahead, List.append_assoc]
  · intro kinds
    rw [List.map_append, List.append_assoc, h.left, hmore.left]
  · rw [hmore.children, h.children, Node.names_append, List.append_assoc]
  · rw [hmore.quiet, h.quiet]

theorem begins (h : Accepts language rest session middle passed) {kinds : List TokenKind} :
    Begins language (passed.map (·.kind) ++ kinds) ↔ Begins rest kinds := by
  unfold Begins
  simp only [List.append_assoc, h.left]

theorem refuses (h : Accepts language rest session middle passed)
    (hrefuses : Refuses setting rest middle after) : Refuses setting language session after := by
  obtain ⟨token, ⟨before, behind, hsplit, hbegins, hnot⟩, first, second, hreported, hspans⟩ := hrefuses
  refine ⟨token, ⟨passed ++ before, behind, ?_, ?_, ?_⟩, first, second, ?_, hspans⟩
  · rw [h.ahead, List.append_assoc, hsplit, List.append_assoc]
  · rw [List.map_append]
    exact h.begins.mpr hbegins
  · rw [List.append_assoc, List.map_append]
    exact fun hdeparted => hnot (h.begins.mp hdeparted)
  · rw [hreported, h.quiet]

end Accepts

/-- The next token is not what the language asks for. -/
theorem refuses_head (hbegins : Begins language [])
    (hnot : ¬Begins language [(setting.head session).kind]) (message : Message) (building : Node) :
    Refuses setting language session { setting.expects message session with building } := by
  obtain ⟨first, hfirst, hseverity, hspan⟩ := setting.reported_reports .error message session
  obtain ⟨second, hsecond, hseverity', hspan'⟩ := setting.reported_reports .error
    (.insteadFound (setting.head session)) (setting.reports .error message session)
  refine ⟨setting.head session, ⟨[], (session.ahead ++ [setting.finish]).tail, ?_, hbegins, hnot⟩,
    first, second, ?_, hseverity, hseverity', hspan, hspan'⟩
  · unfold Setting.head
    cases session.ahead <;> rfl
  · change (setting.expects message session).diagnostics.reported = _
    rw [Setting.expects, hsecond, hfirst, List.append_assoc]
    rfl

namespace Parse

variable {α β : Type}

/-- From the session the rule reads what the language asks for and leaves the rest of it, or it
refuses. -/
inductive Recognizes (setting : Setting) (language rest : List TokenKind → Prop) (session : Session) :
    Except Interruption α × Session → Prop
  | accepted {value : α} {after : Session} (passed : List Token)
      (accepts : Accepts language rest session after passed) :
      Recognizes setting language rest session (.ok value, after)
  | refused {interruption : Interruption} {after : Session}
      (refuses : Refuses setting language session after) :
      Recognizes setting language rest session (.error interruption, after)

theorem Recognizes.bind {rule : Parse α} {next : α → Parse β}
    (hrule : Recognizes setting language rest session (rule setting session))
    (hnext : ∀ value middle, rule setting session = (.ok value, middle) →
      Recognizes setting rest other middle (next value setting middle)) :
    Recognizes setting language other session ((rule >>= next) setting session) := by
  rw [bind_run]
  generalize hrun : rule setting session = result at hrule
  cases hrule with
  | refused hrefuses => exact .refused hrefuses
  | @accepted value middle passed haccepts =>
      have hsecond := hnext value middle hrun
      dsimp only
      generalize next value setting middle = result at hsecond
      cases hsecond with
      | refused hrefuses => exact .refused (haccepts.refuses hrefuses)
      | accepted more hmore => exact .accepted (passed ++ more) (haccepts.trans hmore)

/-- The language asks for the kind, and departs where another one comes next. -/
structure Asks (language rest : List TokenKind → Prop) (kind next : TokenKind) : Prop where
  begins : Begins language []
  left : ∀ kinds, language (kind :: kinds) ↔ rest kinds
  departs : next ≠ kind → ¬Begins language [next]

/-- A token that is no name is passed. -/
theorem accepts_tail {kind : TokenKind} (hended : setting.Ended)
    (hkind : (setting.head session).kind = kind) (hend : kind ≠ .endOfSource)
    (hname : kind.isIdentifier = false) (hleft : ∀ kinds, language (kind :: kinds) ↔ rest kinds) :
    Accepts language rest session { session with ahead := session.ahead.tail }
      [setting.head session] := by
  have hcons : session.ahead = setting.head session :: session.ahead.tail :=
    hended.ahead_cons (by rw [hkind]; exact hend)
  refine ⟨hcons, ?_, ?_, rfl⟩
  · intro kinds
    simpa [hkind] using hleft kinds
  · simp [Node.names, hkind, hname]

theorem require_recognizes {kind : TokenKind} (hended : setting.Ended) (hend : kind ≠ .endOfSource)
    (hname : kind.isIdentifier = false)
    (hasks : Asks language rest kind (setting.head session).kind) :
    Recognizes setting language rest session (require kind setting session) := by
  unfold require
  rw [nextIs_bind]
  by_cases hkind : (setting.head session).kind = kind
  · rw [if_pos (decide_eq_true hkind)]
    exact .accepted _ (accepts_tail hended hkind hend hname hasks.left)
  · rw [if_neg (by simpa using hkind)]
    exact .refused (refuses_head hasks.begins (hasks.departs hkind) _ session.building)

theorem identifier_recognizes (hended : setting.Ended)
    (hasks : Asks language rest .identifier (setting.head session).kind) :
    Recognizes setting language rest session (identifier setting session) := by
  by_cases hkind : (setting.head session).kind = .identifier
  · have hcons : session.ahead = setting.head session :: session.ahead.tail :=
      hended.ahead_cons (by simp [hkind])
    rw [identifier_eq (by simp [TokenKind.isIdentifier, hkind])]
    refine .accepted [setting.head session] ⟨hcons, ?_, ?_, rfl⟩
    · intro kinds
      simpa [hkind] using hasks.left kinds
    · simp [Node.names, TokenKind.isIdentifier, hkind]
  · have hrun : identifier setting session = (.error .syntaxError,
        session.closed (setting.expects .expectedIdentifier (session.opened .identifier))) := by
      have hopened : ¬(setting.head (session.opened .identifier)).kind.isIdentifier = true :=
        fun hname => hkind (of_decide_eq_true hname)
      unfold identifier
      rw [Comparison.node_run, peek_bind, if_neg hopened]
      rfl
    rw [hrun]
    exact .refused (refuses_head hasks.begins (hasks.departs hkind) .expectedIdentifier _)

/-! ## Parameters -/

/-- A name, perhaps behind `class`. -/
def templateParameter : Parse Unit := do
  if ← nextIs (.keyword .class_) then skip
  identifier

theorem asks_name {next : TokenKind} (hclass : next ≠ .keyword .class_) :
    Asks ParameterNames BehindName .identifier next := by
  refine ⟨⟨_, .last⟩, fun _ => parameterNames_identifier, ?_⟩
  rintro hname ⟨rest, hrest⟩
  cases hrest <;> contradiction

theorem asks_markedName (next : TokenKind) :
    Asks (fun kinds => ParameterNames (.keyword .class_ :: kinds)) BehindName .identifier next := by
  refine ⟨⟨_, .marked .last⟩, fun _ => ?_, ?_⟩
  · simp [parameterNames_class]
  · rintro hname ⟨rest, hrest⟩
    cases hrest
    exact hname rfl

theorem asks_comma : Asks BehindName ParameterNames .comma .comma := by
  refine ⟨⟨_, .inr rfl⟩, fun kinds => ?_, fun h => absurd rfl h⟩
  simp [BehindName]

theorem asks_greater {next : TokenKind} (hcomma : next ≠ .comma) :
    Asks BehindName (· = [.endOfSource]) .greater next := by
  refine ⟨⟨_, .inr rfl⟩, fun kinds => ?_, ?_⟩
  · simp [BehindName]
  · rintro hgreater ⟨rest, ⟨_, heq, -⟩ | heq⟩
    · exact hcomma (List.cons.inj heq).1
    · exact hgreater (List.cons.inj heq).1

theorem templateParameter_recognizes (hended : setting.Ended) (session : Session) :
    Recognizes setting ParameterNames BehindName session (templateParameter setting session) := by
  unfold templateParameter
  rw [nextIs_bind]
  by_cases hclass : (setting.head session).kind = .keyword .class_
  · rw [if_pos (decide_eq_true hclass)]
    have haccepts : Accepts ParameterNames (fun kinds => ParameterNames (.keyword .class_ :: kinds))
        session { session with ahead := session.ahead.tail } [setting.head session] :=
      accepts_tail hended hclass (by simp) rfl fun _ => Iff.rfl
    have hskip : Recognizes setting ParameterNames
        (fun kinds => ParameterNames (.keyword .class_ :: kinds)) session (skip setting session) :=
      .accepted _ haccepts
    refine hskip.bind ?_
    rintro _ middle ⟨⟩
    exact identifier_recognizes hended (asks_markedName _)
  · rw [if_neg (by simpa using hclass)]
    exact identifier_recognizes hended (asks_name hclass)

instance : Advances templateParameter := by
  unfold templateParameter
  infer_instance

/-- A parameter, and the comma behind it if there is one. -/
def templateRound : Parse Bool := do
  templateParameter
  if ← nextIs .comma then
    skip
    return true
  else return false

theorem templateRound_cases (hended : setting.Ended) (session : Session) :
    (∃ interruption after, templateRound setting session = (.error interruption, after) ∧
        Refuses setting ParameterNames session after) ∨
      (∃ middle passed, templateRound setting session = (.ok true, middle) ∧
        Accepts ParameterNames ParameterNames session middle passed) ∨
      ∃ after passed, templateRound setting session = (.ok false, after) ∧
        (setting.head after).kind ≠ .comma ∧
        Accepts ParameterNames BehindName session after passed := by
  have hparameter := templateParameter_recognizes hended session
  unfold templateRound
  rw [bind_run]
  generalize templateParameter setting session = result at hparameter
  cases hparameter with
  | @refused interruption after hrefuses => exact .inl ⟨interruption, after, rfl, hrefuses⟩
  | @accepted value middle passed haccepts =>
      dsimp only
      rw [nextIs_bind]
      by_cases hcomma : (setting.head middle).kind = .comma
      · rw [if_pos (decide_eq_true hcomma)]
        have hseparator : Accepts BehindName ParameterNames middle
            { middle with ahead := middle.ahead.tail } [setting.head middle] :=
          accepts_tail hended hcomma (by simp) rfl asks_comma.left
        exact .inr (.inl ⟨_, _, rfl, haccepts.trans hseparator⟩)
      · rw [if_neg (by simpa using hcomma)]
        exact .inr (.inr ⟨middle, passed, rfl, hcomma, haccepts⟩)

/-- The names of the parameters end in front of what is no comma. -/
theorem templateParameters_recognize (hended : setting.Ended) (hreads : setting.Reads session.ahead) :
    Recognizes setting ParameterNames BehindName session
        (commaSeparated templateParameter setting session) ∧
      ∀ after, commaSeparated templateParameter setting session = (.ok (), after) →
        (setting.head after).kind ≠ .comma := by
  have hrounds : Rounds templateRound := by
    unfold templateRound
    infer_instance
  have hrepeats : Repeats templateRound setting session
      (commaSeparated templateParameter setting session) := repeatRule_repeats hended hreads
  generalize commaSeparated templateParameter setting session = result at hrepeats
  clear hreads
  induction hrepeats with
  | @broken session after interruption hbody =>
      refine ⟨?_, fun _ hend => nomatch hend⟩
      rcases templateRound_cases hended session with ⟨_, _, hround, hrefuses⟩ | ⟨_, _, hround, -⟩ |
        ⟨_, _, hround, -⟩
      · cases hbody.symm.trans hround
        exact .refused hrefuses
      · cases hbody.symm.trans hround
      · cases hbody.symm.trans hround
  | @last session after hbody =>
      rcases templateRound_cases hended session with ⟨_, _, hround, -⟩ | ⟨_, _, hround, -⟩ |
        ⟨_, passed, hround, hcomma, haccepts⟩
      · cases hbody.symm.trans hround
      · cases hbody.symm.trans hround
      · cases hbody.symm.trans hround
        refine ⟨.accepted passed haccepts, ?_⟩
        rintro _ ⟨⟩
        exact hcomma
  | @again session middle result hbody hrest ih =>
      rcases templateRound_cases hended session with ⟨_, _, hround, -⟩ |
        ⟨_, passed, hround, haccepts⟩ | ⟨_, _, hround, -⟩
      · cases hbody.symm.trans hround
      · cases hbody.symm.trans hround
        refine ⟨?_, ih.2⟩
        cases ih.1 with
        | refused hrefuses => exact .refused (haccepts.refuses hrefuses)
        | accepted more hmore => exact .accepted (passed ++ more) (haccepts.trans hmore)
      · cases hbody.symm.trans hround

/-- A declaration inside its node. -/
def templateBody : Parse Unit := do
  identifier
  let _ ← require .less
  commaSeparated templateParameter
  let _ ← require .greater

instance : Advances templateBody := by
  unfold templateBody
  infer_instance

theorem asks_templateName (next : TokenKind) :
    Asks DeclaresTemplate (fun kinds => ∃ rest, kinds = .less :: rest ∧ ParameterNames rest)
      .identifier next := by
  refine ⟨⟨_, _, rfl, .last⟩, fun kinds => ?_, ?_⟩
  · simp [DeclaresTemplate]
  · rintro hname ⟨more, rest, heq, -⟩
    exact hname (List.cons.inj heq).1

theorem asks_less (next : TokenKind) :
    Asks (fun kinds => ∃ rest, kinds = .less :: rest ∧ ParameterNames rest) ParameterNames
      .less next := by
  refine ⟨⟨_, _, rfl, .last⟩, fun kinds => ?_, ?_⟩
  · simp
  · rintro hless ⟨more, rest, heq, -⟩
    exact hless (List.cons.inj heq).1

theorem templateBody_recognizes (hended : setting.Ended) (hreads : setting.Reads session.ahead) :
    Recognizes setting DeclaresTemplate (· = [.endOfSource]) session
      (templateBody setting session) := by
  refine .bind (identifier_recognizes hended (asks_templateName _)) ?_
  intro _ named hname
  have hnamed : setting.Reads named.ahead := hreads.leads (Forwards.leads setting _ _ _ hname)
  refine .bind (require_recognizes hended (by simp) rfl (asks_less _)) ?_
  intro _ opened hopen
  have hopened : setting.Reads opened.ahead := hnamed.leads (Forwards.leads setting _ _ _ hopen)
  obtain ⟨hparameters, hcomma⟩ := templateParameters_recognize hended hopened
  refine .bind hparameters ?_
  intro _ behind hbehind
  have hclosing := require_recognizes hended (by simp) rfl (asks_greater (hcomma behind hbehind))
  refine .bind hclosing ?_
  intro _ closed _
  exact .accepted [] ⟨rfl, fun _ => Iff.rfl, by simp [Node.names], rfl⟩

/-- The end of the source is all that may stand behind a declaration. -/
theorem expectEnd_recognizes (session : Session) :
    Recognizes setting (· = [.endOfSource]) (· = [.endOfSource]) session
      (expectEnd setting session) := by
  unfold expectEnd
  rw [peek_bind]
  by_cases hend : (setting.head session).kind.isEnd = true
  · rw [if_pos hend]
    exact .accepted [] ⟨rfl, fun _ => Iff.rfl, by simp [Node.names], rfl⟩
  · rw [if_neg hend]
    have hbegins : Begins (· = [.endOfSource]) [] := ⟨_, rfl⟩
    have hdeparts : ¬Begins (· = [.endOfSource]) [(setting.head session).kind] := by
      rintro ⟨more, heq⟩
      exact hend (decide_eq_true (List.cons.inj heq).1)
    exact .refused (refuses_head hbegins hdeparts (.expectedKind .endOfSource) session.building)

end Parse

end Grammar

namespace Entry

open Grammar Grammar.Parse

/-- A declaration is accepted as a whole, or refused. -/
theorem template_cases (options : Options) (source : Source) :
    let outcome := template.parse options source
    (DeclaresTemplate (source.tokens.map (·.kind)) ∧ outcome.diagnostics = {} ∧
        outcome.root.kind = .undefined ∧ outcome.root.children = Node.names source.tokens) ∨
      ∃ token first second, DepartsAt DeclaresTemplate source.tokens token ∧
        outcome.diagnostics.errors = [first, second] ∧
        first.span = token.span ∧ second.span = token.span := by
  let setting := template.setting options source
  let session : Session := ⟨source.tokensFrom 0, {}, .empty .undefined⟩
  have hended : setting.Ended := rfl
  have hreads : setting.Reads session.ahead := ⟨0, rfl⟩
  have htokens : source.tokens = session.ahead ++ [setting.finish] := by
    change source.tokensFrom 0 ++ [Token.endAt source.size] =
      source.tokensFrom 0 ++ [Token.endAt (max 0 source.size)]
    rw [Nat.zero_max]
  have hrefused : ∀ after, template.session options source = after →
      Refuses setting DeclaresTemplate session after →
      ∃ token first second, DepartsAt DeclaresTemplate source.tokens token ∧
        (template.parse options source).diagnostics.errors = [first, second] ∧
        first.span = token.span ∧ second.span = token.span := by
    rintro _ rfl ⟨token, hdeparts, first, second, hreported, hfirst, hsecond, hspans⟩
    refine ⟨token, first, second, htokens ▸ hdeparts, ?_, hspans⟩
    change (template.session options source).diagnostics.errors = _
    unfold Diagnostics.errors Diagnostics.ofSeverity
    rw [hreported]
    simp [session, hfirst, hsecond]
  have hbody : Recognizes setting DeclaresTemplate (· = [.endOfSource]) (session.opened .undefined)
      (templateBody setting (session.opened .undefined)) := templateBody_recognizes hended hreads
  have hkind := (advance templateBody setting (session.opened .undefined)).building.kind
  have hsession : template.session options source =
      ((node .undefined templateBody >>= fun _ => expectEnd) setting session).2 := rfl
  rw [bind_run, Comparison.node_run] at hsession
  generalize templateBody setting (session.opened .undefined) = result at hbody hkind hsession
  cases hbody with
  | refused hrefuses => exact .inr (hrefused _ hsession hrefuses)
  | @accepted _ inner passed haccepts =>
      dsimp only at hsession
      have hend : Recognizes setting (· = [.endOfSource]) (· = [.endOfSource]) (session.closed inner)
          (expectEnd setting (session.closed inner)) := expectEnd_recognizes _
      generalize hrun : expectEnd setting (session.closed inner) = result at hend hsession
      cases hend with
      | refused hrefuses => exact .inr (hrefused _ hsession (haccepts.refuses hrefuses))
      | accepted =>
          have hinner : setting.Reads (session.closed inner).ahead :=
            hreads.suffix ⟨passed, haccepts.ahead.symm⟩
          obtain ⟨hafter, hnil⟩ := expectEnd_ok hinner hrun
          have hpassed : source.tokens = passed ++ [setting.finish] := by
            have hall : session.ahead = passed ++ inner.ahead := haccepts.ahead
            have hnone : inner.ahead = [] := hnil
            rw [htokens, hall, hnone, List.append_nil]
          have hroot : (template.parse options source).root = inner.building :=
            root_eq (by rw [hsession, hafter]; rfl)
          refine .inl ⟨?_, ?_, ?_, ?_⟩
          · rw [hpassed, List.map_append]
            exact (haccepts.left _).mpr rfl
          · change (template.session options source).diagnostics = _
            rw [hsession, hafter]
            exact haccepts.quiet
          · rw [hroot]
            exact hkind
          · have hnone : Node.names [setting.finish] = [] := rfl
            rw [hroot, haccepts.children, hpassed, Node.names_append, hnone, List.append_nil]
            rfl

/-- A declaration is read without an error exactly if its kinds are those of a declaration.  Then the
node holds its names; if they are not, two errors stand where the tokens depart from the language. -/
theorem template_parse (options : Options) (source : Source) :
    let outcome := template.parse options source
    (outcome.diagnostics.errors = [] ↔ DeclaresTemplate (source.tokens.map (·.kind))) ∧
      (DeclaresTemplate (source.tokens.map (·.kind)) →
        outcome.root.kind = .undefined ∧ outcome.root.children = Node.names source.tokens) ∧
      (¬DeclaresTemplate (source.tokens.map (·.kind)) →
        ∃ token first second, DepartsAt DeclaresTemplate source.tokens token ∧
          outcome.diagnostics.errors = [first, second] ∧
          first.span = token.span ∧ second.span = token.span) := by
  intro outcome
  rcases template_cases options source with ⟨hdeclares, hquiet, hroot⟩ |
    ⟨token, first, second, hdeparts, herrors, hspans⟩
  · have hclean : outcome.diagnostics.errors = [] := congrArg Diagnostics.errors hquiet
    exact ⟨⟨fun _ => hdeclares, fun _ => hclean⟩, fun _ => hroot, fun hnot => absurd hdeclares hnot⟩
  · have hnot : ¬DeclaresTemplate (source.tokens.map (·.kind)) := hdeparts.not_mem
    refine ⟨⟨fun hclean => ?_, fun h => absurd h hnot⟩, fun h => absurd h hnot, fun _ => ?_⟩
    · change outcome.diagnostics.errors = [first, second] at herrors
      rw [hclean] at herrors
      cases herrors
    · exact ⟨token, first, second, hdeparts, herrors, hspans⟩

/-- Two parameters, and a list that is closed by a longer operator. -/
theorem template_parse_parameters :
    let declared := template.parse {} "map<class K, V>".toList
    let broken := template.parse {} "map<K>>".toList
    (declared.diagnostics.errors = [] ∧ declared.root.kind = .undefined ∧
        declared.root.children = Node.names (Source.tokens "map<class K, V>".toList)) ∧
      ∃ token first second, DepartsAt DeclaresTemplate (Source.tokens "map<K>>".toList) token ∧
        broken.diagnostics.errors = [first, second] ∧
        first.span = token.span ∧ second.span = token.span := by
  have hdeclared : (Source.tokens "map<class K, V>".toList).map (·.kind) =
      [.identifier, .less, .keyword .class_, .identifier, .comma, .identifier, .greater,
        .endOfSource] := by
    decide +kernel
  have hbroken : (Source.tokens "map<K>>".toList).map (·.kind) =
      [.identifier, .less, .identifier, .operator .shiftRight, .endOfSource] := by
    decide +kernel
  obtain ⟨hclean, hroot, -⟩ := template_parse {} "map<class K, V>".toList
  obtain ⟨-, -, hrefused⟩ := template_parse {} "map<K>>".toList
  have hnames : DeclaresTemplate ((Source.tokens "map<class K, V>".toList).map (·.kind)) := by
    rw [hdeclared]
    exact ⟨_, rfl, .marked (.next .last)⟩
  refine ⟨⟨hclean.mpr hnames, hroot hnames⟩, hrefused ?_⟩
  rw [hbroken]
  rintro ⟨rest, heq, hrest⟩
  cases heq
  cases hrest

end Entry

end ScriptSyntax
