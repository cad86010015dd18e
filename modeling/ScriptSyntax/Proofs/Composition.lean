import ScriptSyntax.Proofs.Braces
import ScriptSyntax.Proofs.Continuation.Script
import ScriptSyntax.Proofs.Relocation

/-!
# Scripts put together

A script that is read without a report may be put in front of any other text.  Its own declarations
stay as they are, and those behind it are read as if they stood alone: broken ones are reported as
before, further on.  Text that starts no declaration costs one error between the two, and no more.
-/

namespace ScriptSyntax

open Grammar Grammar.Parse

/-- The source is empty, or ends with its last token, where a declaration may end. -/
def Source.EndsDeclared (source : Source) : Prop :=
  source = [] ∨ ∃ token, (source.tokensFrom 0).getLast? = some token ∧
    token.kind.endsDeclaration = true ∧ token.span.stop = source.size

/-- Behind a text that ends where a declaration may end, the tokens are those of what stands there,
further on. -/
theorem Source.EndsDeclared.tokensFrom_append {source : Source} (h : source.EndsDeclared)
    (behind : Source) : (source ++ '\n' :: behind).tokensFrom 0 =
      source.tokensFrom 0 ++ (behind.tokensFrom 0).map (Token.shifted (source.size + 1)) := by
  have hlast : source = [] ∨ ∃ token, (tokensAt 0 source).getLast? = some token ∧
      token.span.stop = 0 + source.size ∧ token.kind.goesOn = false := by
    refine h.imp_right ?_
    rintro ⟨token, htoken, hends, hstop⟩
    rw [tokensFrom_zero] at htoken
    exact ⟨token, htoken, by rw [hstop, Nat.zero_add],
      TokenKind.goesOn_of_endsDeclaration hends⟩
  have hblank : Lexeme.isBlank '\n' = true := rfl
  rw [tokensFrom_zero, tokensFrom_zero, tokensFrom_zero, tokensAt_append_of_last (.inl rfl) hlast,
    tokensAt_blank hblank, ← tokensAt_shifted, Nat.add_assoc]
  rfl

namespace Diagnostics

theorem ofSeverity_shifted {all before behind : Diagnostics} {distance rows : Nat}
    (severity : Severity)
    (h : all.reported = before.reported ++
      behind.reported.map (Diagnostic.shifted distance rows)) :
    all.ofSeverity severity = before.ofSeverity severity ++
      (behind.ofSeverity severity).map (Diagnostic.shifted distance rows) := by
  rw [ofSeverity, ofSeverity, ofSeverity, h, List.filter_append, List.filter_map]
  rfl

end Diagnostics

namespace Entry

/-! ## The rounds of a script -/

/-- The session in which the declarations of a script are read. -/
def scriptStart (source : Source) : Session :=
  ⟨source.tokensFrom 0, {}, .empty .script⟩

/-- The session behind all declarations. -/
def scriptSession (options : Options) (source : Source) : Session :=
  (repeatUpTo (byteCount (source.tokensFrom 0) + 1) (declarationStep options.maxDepth)
    (script.setting options source) (scriptStart source)).2

theorem parse_script (options : Options) (source : Source) :
    script.parse options source =
      ⟨(scriptSession options source).building, (scriptSession options source).diagnostics⟩ := by
  unfold parse session
  dsimp only
  have hrun : script.rule options.maxDepth (script.setting options source)
      ⟨source.tokensFrom script.start, {}, .empty .undefined⟩ =
      ((repeatRule (declarationStep options.maxDepth) (script.setting options source)
          (scriptStart source)).1,
        Session.closed ⟨source.tokensFrom 0, {}, .empty .undefined⟩
          (scriptSession options source)) := rfl
  rw [hrun]
  change Outcome.mk (((Node.empty .undefined).append _).children.headD _) _ = _
  rw [Node.children_append]
  rfl

section

variable {options : Options} {passed second : Source} {rounds : Nat} {t : Session}

/-- The declarations behind a text are read as they are alone. -/
theorem rounds_behind (hbreak : passed.getLast? = some '\n')
    (hahead : t.ahead = (second.tokensFrom 0).map (Token.shifted passed.size))
    (hrounds : byteCount t.ahead < rounds) :
    let after := (repeatUpTo rounds (declarationStep options.maxDepth)
      (script.setting options (passed ++ second)) t).2
    after.building.children = t.building.children ++
        (scriptSession options second).building.children.map (Node.shifted passed.size) ∧
      after.diagnostics.reported = t.diagnostics.reported ++
        (scriptSession options second).diagnostics.reported.map
          (Diagnostic.shifted passed.size (passed.count '\n')) := by
  by_cases hnil : second = []
  · subst hnil
    have hended (source : Source) : (script.setting options source).Ended := rfl
    have halone : scriptSession options [] = scriptStart [] :=
      congrArg Prod.snd (declarations_over (hended []) rfl)
    rw [declarations_over (hended _) hahead, halone]
    exact ⟨(List.append_nil _).symm, (List.append_nil _).symm⟩
  let M : Relocation :=
    { left := script.setting options second
      right := script.setting options (passed ++ second)
      passed := passed
      source_eq := rfl
      breaks := hbreak
      there := hnil
      options_eq := rfl
      application_eq := rfl
      lines_eq := rfl
      lines_eq' := rfl
      finish_eq := congrArg Token.endAt (Nat.zero_max _)
      finish_eq' := congrArg Token.endAt (Nat.zero_max _) }
  let L := M.lockstep t.diagnostics.reported
  let prior : L.script.Frame := (some t.building.children, false)
  have hstart : L.script.agree prior (scriptStart second) t := by
    refine ⟨rfl, ⟨⟨0, rfl⟩, hahead⟩, ?_, ?_, (List.append_nil _).symm⟩
    · exact (List.append_nil _).symm
    · rintro span ⟨⟩
  have hstep {s t : Session} (h : L.script.rested false prior s t) :
      L.script.Ends prior
        (fun again again' =>
          Comparison.Round (L.script.rested false prior) (L.script.rested false prior) again again')
        (declarationStep options.maxDepth M.left s) (declarationStep options.maxDepth M.right t) := by
    have hfinishes := ScriptComparison.scriptStep_finishes (S := L.script) options.maxDepth false
      (fun h => ScriptComparison.namespaceDeclaration_ends options.maxDepth h) h
    exact hfinishes.resolve_left fun hexhausts => hexhausts.1 trivial
  have hrelated {s t : Session} (h : L.script.rested false prior s t) :
      ∃ p, L.script.relate p prior s t := by
    rcases h with hdone | ⟨hcovered, -⟩
    · exact ⟨.settled, hdone⟩
    · exact ⟨.covered, hcovered⟩
  have hshorter {s t : Session} {tokens : List Token} (h : L.script.rested false prior s t)
      (hpasses : M.left.Passes s.ahead tokens) : byteCount tokens < byteCount s.ahead := by
    obtain ⟨p, hagree⟩ := hrelated h
    exact L.comparison.shorter hagree hpasses
  have hbytes : byteCount (second.tokensFrom 0) < rounds := by
    rwa [hahead, Relocation.byteCount_shifted] at hrounds
  have hends : L.script.Ends prior (fun _ _ => L.script.rested false prior)
      (repeatUpTo (byteCount (second.tokensFrom 0) + 1) (declarationStep options.maxDepth) M.left
        (scriptStart second))
      (repeatUpTo rounds (declarationStep options.maxDepth) M.right t) :=
    Comparison.repeatUpTo_ends hstep hshorter _ _ (.inl hstart) (Nat.lt_succ_self _) hbytes
  have hmoved : M.Moved t.diagnostics.reported (some t.building.children)
      (scriptSession options second)
      (repeatUpTo rounds (declarationStep options.maxDepth) M.right t).2 := by
    change M.Moved _ _ (repeatUpTo _ _ M.left _).2 _
    generalize repeatUpTo _ _ M.left (scriptStart second) = result at hends ⊢
    generalize repeatUpTo rounds (declarationStep options.maxDepth) M.right t = other at hends ⊢
    cases hends with
    | lost hlost => exact hlost.elim
    | ok hrested =>
        obtain ⟨p, hagree⟩ := hrelated hrested
        exact hagree.2.2
    | error _ hbroken =>
        obtain ⟨-, hmoved⟩ := hbroken.resolve_right fun h => Bool.false_ne_true h.1
        exact hmoved.resolve_right id
  exact ⟨hmoved.building, hmoved.reports⟩

variable {first behind : Source}

/-- Behind the declarations of a text without reports, those that stand behind it are next. -/
theorem rounds_front (behind : Source)
    (hquiet : (script.parse options first).diagnostics.reported = [])
    (hends : first.EndsDeclared) :
    ∃ rounds t,
      scriptSession options (first ++ '\n' :: behind) =
        (repeatUpTo rounds (declarationStep options.maxDepth)
          (script.setting options (first ++ '\n' :: behind)) t).2 ∧
      byteCount t.ahead < rounds ∧
      t.ahead = (behind.tokensFrom 0).map (Token.shifted (first.size + 1)) ∧
      t.building = (scriptSession options first).building ∧ t.diagnostics = {} := by
  let K : Continuation :=
    { left := script.setting options first
      right := script.setting options (first ++ '\n' :: behind)
      separator := '\n'
      behind := behind
      isSeparator := .inl rfl
      source_eq := rfl
      options_eq := rfl
      application_eq := rfl
      ended := rfl
      ended' := rfl
      whole := Nat.le_max_right _ _ }
  have hmore : K.more = (behind.tokensFrom 0).map (Token.shifted (first.size + 1)) := by
    rw [Source.tokensFrom_zero, ← Source.tokensAt_shifted, Nat.zero_add]
    exact Source.tokensAt_blank rfl behind
  have hreported : (scriptSession options first).diagnostics.reported = [] := by
    rw [parse_script] at hquiet
    exact hquiet
  have hfaults : (scriptSession options first).faults = [] := by
    unfold Session.faults
    rw [hreported]
    rfl
  have hdone : K.script.done () (scriptStart first) (scriptStart (first ++ '\n' :: behind)) := by
    rcases hends with rfl | hlast
    · exact ⟨⟨rfl, rfl, rfl, Source.tokensFrom_zero ('\n' :: behind)⟩, .inr rfl⟩
    · have hbefore : K.Before (K.left.source.tokensFrom 0) := ⟨⟨0, rfl⟩, hlast⟩
      exact ⟨⟨rfl, rfl, rfl, Continuation.tokensFrom_eq hbefore⟩, .inl hbefore⟩
  obtain ⟨rounds, hrounds, hsplit⟩ := Continuation.declarations_split options.maxDepth hdone
    (Nat.lt_succ_self _) (Nat.lt_succ_self _) hfaults
  exact ⟨rounds, (scriptSession options first).at K.more, congrArg Prod.snd hsplit, hrounds, hmore,
    rfl, congrArg Diagnostics.mk hreported⟩

/-- What the rounds over the text behind leave, as the outcome of the parse. -/
theorem parse_of_rounds {source : Source} (hsource : source = passed ++ second)
    (hbreak : passed.getLast? = some '\n')
    (hwhole : scriptSession options source = (repeatUpTo rounds (declarationStep options.maxDepth)
      (script.setting options source) t).2)
    (hrounds : byteCount t.ahead < rounds)
    (hahead : t.ahead = (second.tokensFrom 0).map (Token.shifted passed.size)) :
    let whole := script.parse options source
    let alone := script.parse options second
    let shifted := Diagnostic.shifted passed.size (passed.count '\n')
    whole.root.children = t.building.children ++ alone.root.children.map (Node.shifted passed.size) ∧
      whole.diagnostics.errors = t.diagnostics.errors ++ alone.diagnostics.errors.map shifted ∧
      whole.diagnostics.warnings = t.diagnostics.warnings ++ alone.diagnostics.warnings.map shifted ∧
      whole.diagnostics.infos = t.diagnostics.infos ++ alone.diagnostics.infos.map shifted := by
  subst hsource
  obtain ⟨hchildren, hreports⟩ := rounds_behind hbreak hahead hrounds
  rw [← hwhole] at hchildren hreports
  dsimp only
  rw [parse_script, parse_script]
  exact ⟨hchildren, Diagnostics.ofSeverity_shifted _ hreports,
    Diagnostics.ofSeverity_shifted _ hreports, Diagnostics.ofSeverity_shifted _ hreports⟩

end

/-- A script without reports that ends where a declaration may end can be put in front of any text:
the declarations are its own and then those of the text, and the reports are those of the text, so
much further on. -/
theorem parse_append (options : Options) {first : Source} (second : Source)
    (hquiet : (script.parse options first).diagnostics.reported = [])
    (hends : first.EndsDeclared) :
    let whole := script.parse options (first ++ '\n' :: second)
    let alone := script.parse options second
    let shifted := Diagnostic.shifted (first.size + 1) (first.count '\n' + 1)
    whole.root.children = (script.parse options first).root.children ++
        alone.root.children.map (Node.shifted (first.size + 1)) ∧
      whole.diagnostics.errors = alone.diagnostics.errors.map shifted ∧
      whole.diagnostics.warnings = alone.diagnostics.warnings.map shifted ∧
      whole.diagnostics.infos = alone.diagnostics.infos.map shifted := by
  obtain ⟨rounds, t, hwhole, hrounds, hahead, hbuilding, hdiagnostics⟩ :=
    rounds_front second hquiet hends
  have hsize : Source.size (first ++ ['\n']) = first.size + 1 := by
    rw [Source.size_append]
    rfl
  have hcount : (first ++ ['\n']).count '\n' = first.count '\n' + 1 := by
    rw [List.count_append]
    rfl
  have hparse := @parse_of_rounds options (first ++ ['\n']) second rounds t _ (by simp)
    List.getLast?_concat hwhole hrounds (by rw [hsize, hahead])
  rw [hsize, hcount, hbuilding, hdiagnostics] at hparse
  rw [parse_script options first]
  exact hparse

/-- A function, and behind it a type alone: the two reports about the type stand in the second row. -/
theorem parse_append_brokenType :
    let first : Source := ['i', 'n', 't', ' ', 'f', '(', ')', '{', '}']
    let whole := script.parse {} (first ++ '\n' :: ['i', 'n', 't'])
    whole.root.children.map (·.kind) = [.function, .function] ∧
      whole.diagnostics.errors.map (fun report => (report.span, report.row, report.column)) =
        [(⟨13, 13⟩, 2, 4), (⟨13, 13⟩, 2, 4)] := by
  have hlast : Source.EndsDeclared ['i', 'n', 't', ' ', 'f', '(', ')', '{', '}'] :=
    .inr ⟨⟨.closeBrace, ⟨8, 9⟩, "\x7d"⟩, by decide +kernel, rfl, rfl⟩
  obtain ⟨hchildren, herrors, -, -⟩ :=
    parse_append {} ['i', 'n', 't'] (by decide +kernel) hlast
  refine ⟨?_, ?_⟩
  · rw [hchildren]
    decide +kernel
  · rw [herrors]
    decide +kernel

end Entry

/-! ## Broken text -/

/-- A token of the kind may start a declaration, or is a string that is not terminated. -/
def TokenKind.opensDeclaration (kind : TokenKind) : Bool :=
  kind.isIdentifier || kind.isPrimitiveType || kind = .scope || kind = .unterminatedString ||
    [Keyword.import_, .enum, .typedef, .class_, .mixin, .interface, .funcdef, .const, .auto,
      .namespace_].any (kind = .keyword ·)

/-- The source is broken at its first token, and has to be passed over up to its end, where a
semicolon or a block ends. -/
structure Source.Broken (source : Source) (token : Token) : Prop where
  opening : token.kind.opensDeclaration = false
  tokens : ∃ junk ending, source.tokensFrom 0 = token :: junk ++ ending ∧
    (∀ other ∈ token :: junk,
      other.kind ≠ .semicolon ∧ other.kind ≠ .openBrace ∧ other.kind ≠ .closeBrace) ∧
    ((∃ last, ending = [last] ∧ last.kind = .semicolon) ∨ IsBlock ending)
  last : ∃ last, (source.tokensFrom 0).getLast? = some last ∧ last.span.stop = source.size

namespace Grammar

theorem IsBlock.shifted {block : List Token} (h : IsBlock block) (distance : Nat) :
    IsBlock (block.map (Token.shifted distance)) := by
  have hopened (tokens : List Token) : opened (tokens.map (Token.shifted distance)) = opened tokens := by
    unfold opened
    rw [List.countP_map]
    rfl
  have hclosed (tokens : List Token) : closed (tokens.map (Token.shifted distance)) = closed tokens := by
    unfold closed
    rw [List.countP_map]
    rfl
  refine ⟨?_, ?_, ?_⟩
  · rw [List.head?_map, Option.any_map]
    exact h.opening
  · rw [hopened, hclosed, h.balanced]
  · intro taken rest hsplit htaken hrest
    obtain ⟨taken, rest, rfl, rfl, rfl⟩ := List.map_eq_append_iff.mp hsplit
    rw [hopened, hclosed]
    refine h.first taken rest rfl ?_ ?_
    · rintro rfl
      exact htaken rfl
    · rintro rfl
      exact hrest rfl

section

variable {opening : Token} {junk ending behind : List Token}

/-- After an error in broken text reading goes on behind its end. -/
theorem resume_broken (hjunk : ∀ token ∈ opening :: junk,
      token.kind ≠ .semicolon ∧ token.kind ≠ .openBrace ∧ token.kind ≠ .closeBrace)
    (hending : (∃ last, ending = [last] ∧ last.kind = .semicolon) ∨ IsBlock ending) :
    resume false (opening :: junk ++ ending ++ behind) = behind := by
  have hpassed : ∀ token ∈ opening :: junk, (!isStop false token) = true := by
    intro token hmem
    obtain ⟨hsemicolon, hopen, -⟩ := hjunk token hmem
    simp [isStop, hsemicolon, hopen]
  have hnext : nextStop false (opening :: junk ++ ending ++ behind) =
      nextStop false (ending ++ behind) := by
    unfold nextStop
    rw [List.append_assoc, List.dropWhile_append_of_pos hpassed]
  unfold resume
  rw [hnext]
  rcases hending with ⟨last, rfl, hlast⟩ | hblock
  · have hstop : nextStop false ([last] ++ behind) = last :: behind :=
      List.dropWhile_cons_of_neg (by simp [isStop, hlast])
    rw [hstop]
    simp only [hlast]
  · obtain ⟨brace, body, rfl, hbrace, hcloses⟩ := hblock.closes
    have hstop : nextStop false (brace :: body ++ behind) = brace :: (body ++ behind) :=
      List.dropWhile_cons_of_neg (by simp [isStop, hbrace])
    rw [hstop]
    simp only [hbrace]
    exact hcloses.skipBlock behind

namespace Parse

theorem scriptItem_broken {room : Nat} {nested : Parse Unit} {setting : Setting} {s : Session}
    {rest : List Token} (hopening : opening.kind.opensDeclaration = false)
    (hsemicolon : opening.kind ≠ .semicolon) (hahead : s.ahead = opening :: rest) :
    scriptItem room nested s.ahead setting s =
      (.error .syntaxError, setting.reports .error (.unexpectedKind opening.kind) s) := by
  simp only [TokenKind.opensDeclaration, Bool.or_eq_false_iff, decide_eq_false_iff_not, List.any_cons,
    List.any_nil] at hopening
  obtain ⟨⟨⟨⟨hname, htype⟩, hscope⟩, hstring⟩, himport, henum, htypedef, hclass, hmixin, hinterface,
    hfuncdef, hconst, hauto, hnamespace, -⟩ := hopening
  have hhead : s.ahead.headD setting.finish = opening := by
    rw [hahead]
    rfl
  unfold scriptItem
  rw [read_bind, hhead]
  have hplain : opening.isTypeName = false := by
    rw [Token.isTypeName, hname, htype]
    rfl
  simp only [hplain, Bool.false_eq_true, ↓reduceIte]
  -- each kind that is told apart may start a declaration
  split <;> try contradiction
  rfl

theorem declarationStep_broken {room : Nat} {setting : Setting} {s : Session}
    (hopening : opening.kind.opensDeclaration = false)
    (hjunk : ∀ token ∈ opening :: junk,
      token.kind ≠ .semicolon ∧ token.kind ≠ .openBrace ∧ token.kind ≠ .closeBrace)
    (hending : (∃ last, ending = [last] ∧ last.kind = .semicolon) ∨ IsBlock ending)
    (hthere : opening.kind ≠ .endOfSource)
    (hahead : s.ahead = opening :: junk ++ ending ++ behind) :
    declarationStep room setting s =
      (.ok true, (setting.reports .error (.unexpectedKind opening.kind) s).at behind) := by
  have hsame : s.ahead.dropWhile (·.hasRole .declarationModifier) = s.ahead := by
    rw [hahead]
    refine List.dropWhile_cons_of_neg ?_
    intro hrole
    rw [TokenKind.opensDeclaration, kind_of_hasRole hrole] at hopening
    cases hopening
  have hhead : s.ahead.headD setting.finish = opening := by
    rw [hahead]
    rfl
  have hgoes : endsText false opening = false := by
    simpa [endsText, TokenKind.isEnd] using hthere
  have hitem := @scriptItem_broken opening room (namespaceDeclaration room) setting s _ hopening
    (hjunk opening List.mem_cons_self).1 hahead
  rw [declarationStep, ScriptComparison.scriptStep_run, hsame, hhead, hgoes, if_neg (by simp),
    bind_run]
  have hrecover : recovering false (scriptItem room (namespaceDeclaration room) s.ahead) setting s =
      (.ok (), (setting.reports .error (.unexpectedKind opening.kind) s).at behind) := by
    unfold recovering
    rw [bind_run, attempt_run, hitem]
    have hresume : resume false s.ahead = behind := by
      rw [hahead]
      exact resume_broken hjunk hending
    change (Except.ok (), Session.at _ (resume false s.ahead)) = _
    rw [hresume]
  rw [hrecover]
  rfl

end Parse

end

end Grammar

theorem Token.shifted_shifted (token : Token) (first second : Nat) :
    (token.shifted second).shifted first = token.shifted (first + second) := by
  unfold Token.shifted
  dsimp only
  congr 2 <;> omega

theorem Source.Broken.endsDeclared {source : Source} {token : Token} (h : source.Broken token) :
    source.EndsDeclared := by
  obtain ⟨last, hlast, hstop⟩ := h.last
  refine .inr ⟨last, hlast, ?_, hstop⟩
  obtain ⟨junk, ending, htokens, -, hending⟩ := h.tokens
  rw [htokens] at hlast
  rcases hending with ⟨semicolon, rfl, hkind⟩ | hblock
  · rw [List.getLast?_concat, Option.some.injEq] at hlast
    subst hlast
    rw [hkind]
    rfl
  · obtain ⟨brace, body, rfl, -, hcloses⟩ := hblock.closes
    obtain ⟨close, hclose, hclosing⟩ := hcloses.closingBrace? []
    have hkind := (mem_of_closingBrace? hclosing).2
    rw [List.getLast?_append_of_ne_nil _ (List.cons_ne_nil _ _), List.getLast?_cons, hclose,
      Option.getD_some, Option.some.injEq] at hlast
    subst hlast
    rw [hkind]
    rfl

namespace Entry

section

variable {options : Options} {first broken : Source} {token : Token}

/-- Behind a script without reports and broken text, the declarations of what stands there are next.
One error is reported. -/
theorem rounds_broken (second : Source)
    (hquiet : (script.parse options first).diagnostics.reported = [])
    (hends : first.EndsDeclared) (hbroken : broken.Broken token) :
    let source := first ++ '\n' :: (broken ++ '\n' :: second)
    let start := token.span.start + (first.size + 1)
    ∃ rounds t,
      scriptSession options source =
        (repeatUpTo rounds (declarationStep options.maxDepth) (script.setting options source) t).2 ∧
      byteCount t.ahead < rounds ∧
      t.ahead = (second.tokensFrom 0).map (Token.shifted (first.size + 1 + (broken.size + 1))) ∧
      t.building = (scriptSession options first).building ∧
      t.diagnostics = ⟨[⟨.error, (Message.unexpectedKind token.kind).text,
        token.span.shifted (first.size + 1), (LineIndex.ofSource source).row start,
        (LineIndex.ofSource source).column start⟩]⟩ := by
  intro source start
  obtain ⟨rounds, t, hwhole, hrounds, hahead, hbuilding, hdiagnostics⟩ :=
    rounds_front (broken ++ '\n' :: second) hquiet hends
  obtain ⟨junk, ending, htokens, hjunk, hending⟩ := hbroken.tokens
  have hreads : (script.setting options broken).Reads (token :: junk ++ ending) := ⟨0, htokens.symm⟩
  -- the broken text and the one behind it, where they stand
  have hsplit : t.ahead = token.shifted (first.size + 1) ::
        junk.map (Token.shifted (first.size + 1)) ++ ending.map (Token.shifted (first.size + 1)) ++
      (second.tokensFrom 0).map (Token.shifted (first.size + 1 + (broken.size + 1))) := by
    rw [hahead, hbroken.endsDeclared.tokensFrom_append, htokens]
    simp [Token.shifted_shifted]
  have hjunk' : ∀ other ∈ token.shifted (first.size + 1) ::
      junk.map (Token.shifted (first.size + 1)),
      other.kind ≠ .semicolon ∧ other.kind ≠ .openBrace ∧ other.kind ≠ .closeBrace := by
    intro other hmem
    obtain ⟨inner, hinner, rfl⟩ := List.mem_map.mp (List.map_cons ▸ hmem)
    exact hjunk inner hinner
  have hending' : (∃ last, ending.map (Token.shifted (first.size + 1)) = [last] ∧
      last.kind = .semicolon) ∨ IsBlock (ending.map (Token.shifted (first.size + 1))) := by
    rcases hending with ⟨last, rfl, hlast⟩ | hblock
    · exact .inl ⟨last.shifted (first.size + 1), rfl, hlast⟩
    · exact .inr (hblock.shifted _)
  have hstep := @declarationStep_broken (token.shifted (first.size + 1)) _ _ _ options.maxDepth
    (script.setting options source) t hbroken.opening hjunk' hending' hreads.ne_end hsplit
  obtain ⟨fewer, rfl⟩ : ∃ fewer, rounds = fewer + 1 := ⟨rounds - 1, by omega⟩
  refine ⟨fewer, ((script.setting options source).reports .error (.unexpectedKind token.kind) t).at _,
    ?_, ?_, rfl, hbuilding, ?_⟩
  · rw [repeatUpTo, bind_run, hstep] at hwhole
    exact hwhole
  · have hlength : 0 < (token.shifted (first.size + 1)).span.length := by
      have hlt := hreads.start_lt_stop
      unfold Span.length Token.shifted
      dsimp only
      omega
    rw [hsplit, byteCount_append, List.cons_append, byteCount_cons] at hrounds
    change byteCount ((second.tokensFrom 0).map _) < fewer
    omega
  · have hhead : (script.setting options source).head t = token.shifted (first.size + 1) :=
      Setting.head_cons hsplit
    change Diagnostics.mk (t.diagnostics.reported ++ [_]) = _
    rw [hdiagnostics, hhead]
    rfl

/-- Broken text between a script without reports and any text costs one error, at its first token.
The declarations and the other reports are those of the two texts. -/
theorem parse_append_broken (options : Options) {first broken : Source} {token : Token}
    (second : Source) (hquiet : (script.parse options first).diagnostics.reported = [])
    (hends : first.EndsDeclared) (hbroken : broken.Broken token) :
    let source := first ++ '\n' :: (broken ++ '\n' :: second)
    let whole := script.parse options source
    let alone := script.parse options second
    let distance := first.size + 1 + (broken.size + 1)
    let shifted := Diagnostic.shifted distance (first.count '\n' + 1 + (broken.count '\n' + 1))
    let start := token.span.start + (first.size + 1)
    whole.root.children = (script.parse options first).root.children ++
        alone.root.children.map (Node.shifted distance) ∧
      whole.diagnostics.errors =
        ⟨.error, (Message.unexpectedKind token.kind).text, token.span.shifted (first.size + 1),
          (LineIndex.ofSource source).row start, (LineIndex.ofSource source).column start⟩ ::
            alone.diagnostics.errors.map shifted ∧
      whole.diagnostics.warnings = alone.diagnostics.warnings.map shifted ∧
      whole.diagnostics.infos = alone.diagnostics.infos.map shifted := by
  obtain ⟨rounds, t, hwhole, hrounds, hahead, hbuilding, hdiagnostics⟩ :=
    rounds_broken second hquiet hends hbroken
  have hsize : Source.size (first ++ '\n' :: broken ++ ['\n']) =
      first.size + 1 + (broken.size + 1) := by
    have hbreak : Char.utf8Size '\n' = 1 := rfl
    simp only [Source.size_append, Source.size_cons, Source.size_nil, hbreak]
    omega
  have hcount : (first ++ '\n' :: broken ++ ['\n']).count '\n' =
      first.count '\n' + 1 + (broken.count '\n' + 1) := by
    simp only [List.count_append, List.count_cons_self, List.count_nil]
    omega
  have hparse := @parse_of_rounds options (first ++ '\n' :: broken ++ ['\n']) second rounds t _
    (by simp) List.getLast?_concat hwhole hrounds (by rw [hsize, hahead])
  rw [hsize, hcount, hbuilding, hdiagnostics] at hparse
  rw [parse_script options first]
  exact hparse

/-- An equals sign and a parenthesis between two variables. -/
theorem parse_append_strayParenthesis :
    let plain : Source := ['i', 'n', 't', ' ', 'a', ';']
    let whole := script.parse {} (plain ++ '\n' :: (['=', '(', ';'] ++ '\n' :: plain))
    whole.root.children.map (·.span) = [some ⟨0, 6⟩, some ⟨11, 17⟩] ∧
      whole.diagnostics.reported.length = 1 ∧
      whole.diagnostics.errors.map (fun report => (report.span, report.row, report.column)) =
        [(⟨7, 8⟩, 2, 1)] := by
  have hlast : Source.EndsDeclared ['i', 'n', 't', ' ', 'a', ';'] :=
    .inr ⟨⟨.semicolon, ⟨5, 6⟩, ";"⟩, by decide +kernel, rfl, rfl⟩
  have hbroken : Source.Broken ['=', '(', ';'] ⟨.assign, ⟨0, 1⟩, "="⟩ := by
    refine ⟨rfl, ⟨[⟨.openParen, ⟨1, 2⟩, "("⟩], [⟨.semicolon, ⟨2, 3⟩, ";"⟩], by decide +kernel, ?_,
      .inl ⟨_, rfl, rfl⟩⟩, ⟨.semicolon, ⟨2, 3⟩, ";"⟩, by decide +kernel, rfl⟩
    decide
  obtain ⟨hchildren, herrors, -, -⟩ := parse_append_broken {} ['i', 'n', 't', ' ', 'a', ';']
    (by decide +kernel) hlast hbroken
  refine ⟨?_, by decide +kernel, ?_⟩
  · rw [hchildren]
    decide +kernel
  · rw [herrors]
    decide +kernel

end

end Entry

end ScriptSyntax
