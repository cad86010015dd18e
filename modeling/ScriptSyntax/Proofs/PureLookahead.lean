import ScriptSyntax.Proofs.LookaheadFrames

/-!
# Looking ahead leaves no trace

The predicates on a cursor put together: each asks for what a scan asks for, and its cursor comes
back to what comes next.
-/

namespace ScriptSyntax

namespace Grammar

namespace Look

variable {setting : Setting} {reader : Reader} {cursor : RememberingCursor} {tokens : List Token}
  {token : Token} {α β : Type} {checkType : Token → Look Bool} {bound : Nat}

/-! ## Types -/

/-- Each round of the path passes the scope that the scan passes. -/
theorem typePath_finds (hclosed : setting.Closed) {room : Nat}
    (hcheck : ∀ name, Checks setting reader (checkType name) (templateList room name))
    {first second : Token} (hfirst : setting.Begins first tokens)
    (hsecond : setting.Begins second tokens.tail) (h : setting.Here cursor tokens.tail.tail)
    {count count' : Nat} (hcount : byteCount tokens < count) (hcount' : byteCount tokens < count') :
    Finds setting reader cursor (typePath checkType count first second) fun named _ =>
      ∃ path, (Scan.repeatUpTo count' (Scan.leadingScope room) setting).run tokens = some ((), path) ∧
        setting.Begins named.1 path ∧ setting.Begins named.2 path.tail := by
  induction count generalizing count' tokens first second cursor with
  | zero => exact absurd hcount (Nat.not_lt_zero _)
  | succ count ih =>
      obtain ⟨count', rfl⟩ := Nat.exists_eq_add_one_of_ne_zero (Nat.ne_zero_of_lt hcount')
      have hlast (hbody : (Scan.leadingScope room setting).run tokens = some (false, tokens))
          (after : RememberingCursor) : Finds setting reader after (pure (first, second)) fun named _ =>
          ∃ path, (Scan.repeatUpTo (count' + 1) (Scan.leadingScope room) setting).run tokens =
              some ((), path) ∧
            setting.Begins named.1 path ∧ setting.Begins named.2 path.tail := by
        rw [repeatUpTo_run, hbody]
        exact .pure ⟨tokens, rfl, hfirst, hsecond⟩
      have hagain {behind : List Token} {after : RememberingCursor}
          (hbody : (Scan.leadingScope room setting).run tokens = some (true, behind))
          (hafter : setting.Here after behind) : Finds setting reader after (do
            let first ← next
            let second ← next
            typePath checkType count first second) fun named _ =>
          ∃ path, (Scan.repeatUpTo (count' + 1) (Scan.leadingScope room) setting).run tokens =
              some ((), path) ∧
            setting.Begins named.1 path ∧ setting.Begins named.2 path.tail := by
        have hpasses := Scan.rounds_leadingScope room setting _ _ hclosed.ended hbody
        have hshorter := hfirst.reads.orderly.byteCount_lt hpasses
        rw [repeatUpTo_run, hbody]
        refine (next_finds hafter).bind ?_
        rintro name afterName ⟨hname, hafterName⟩
        refine (next_finds hafterName).bind ?_
        rintro mark afterMark ⟨hmark, hafterMark⟩
        exact ih hname hmark hafterMark (by omega) (by omega)
      have hrun := Scan.leadingScope_run room setting tokens
      dsimp only at hrun
      unfold typePath
      cases hidentifier : first.kind.isIdentifier with
      | false =>
          rw [← (hfirst.alike hclosed).kind, hidentifier] at hrun
          exact hlast hrun cursor
      | true =>
          rw [← (hfirst.alike hclosed).kind, hidentifier, if_pos rfl,
            ← (hsecond.alike hclosed).kind] at hrun
          simp only [↓reduceIte]
          split
          · rename_i hscope
            rw [if_pos hscope] at hrun
            exact hagain hrun h
          rename_i hscope
          rw [if_neg hscope] at hrun
          rw [Scan.bind_run] at hrun
          split
          · refine (rewind_finds hsecond).bind ?_
            rintro - after hafter
            have hname : first.kind ≠ .endOfSource := by
              rintro hend
              rw [hend] at hidentifier
              cases hidentifier
            rw [hfirst.headD_eq hname] at hrun
            refine (hcheck first hafter).bind ?_
            rintro answer afterList (⟨hnone, rfl⟩ | ⟨behind, hbehind, rfl, hafterList⟩)
            · rw [Option.map_eq_none_iff.mp hnone] at hrun
              exact hlast hrun afterList
            · obtain ⟨seen, hseen, rfl⟩ := Option.map_eq_some_iff.mp hbehind
              rw [hseen, Option.bind_some, Scan.require_run] at hrun
              refine (next_finds hafterList).bind ?_
              rintro mark afterMark ⟨hmark, hafterMark⟩
              rw [← (hmark.alike hclosed).kind] at hrun
              split
              · rename_i hkind
                rw [if_pos hkind] at hrun
                exact hagain hrun hafterMark
              · rename_i hkind
                rw [if_neg hkind] at hrun
                exact hlast hrun afterMark
          · rename_i hless
            have hplain : setting.listsArguments (tokens.headD setting.finish) tokens.tail = false := by
              rw [Setting.listsArguments, ← (hsecond.alike hclosed).kind]
              simp [hless]
            rw [templateList_plain hplain, Option.bind_some, Scan.require_run,
              ← (hsecond.alike hclosed).kind, if_neg hscope] at hrun
            exact hlast hrun cursor

/-- The name of a type, behind its qualifier. -/
def typeNameAhead (room : Nat) : Scan Token := do
  if (← Scan.peek).kind = .keyword .auto then Scan.next
  else do
    Scan.skipKind .scope
    scopedName room (byteCount (← get) + 1)

/-- What of a type follows its name. -/
def behindTypeName (room : Nat) (name : Token) : Scan Unit := do
  if !(name.isTypeName || name.kind = .keyword .auto) then failure
  templateList room name
  Scan.update skipSuffixes?

theorem behindTypeName_run (room : Nat) (name : Token) (tokens : List Token) :
    (behindTypeName room name setting).run tokens =
      if name.isTypeName || name.kind = .keyword .auto then
        ((templateList room name setting).run tokens).bind fun seen =>
          (skipSuffixes? seen.2).map fun behind => ((), behind)
      else none := by
  unfold behindTypeName
  cases name.isTypeName || decide (name.kind = .keyword .auto) with
  | false => rfl
  | true =>
      simp only [Bool.not_true, Bool.false_eq_true, ↓reduceIte]
      rw [Scan.bind_run]
      refine congrArg _ (funext fun seen => ?_)
      rw [Scan.update_run]

theorem typeAhead_run (room : Nat) (tokens : List Token) :
    (typeAhead room setting).run tokens =
      ((typeNameAhead room setting).run (setting.dropKind .const tokens)).bind fun named =>
        (behindTypeName room named.1 setting).run named.2 := by
  unfold typeAhead typeNameAhead
  rw [Scan.bind_run, Scan.skipKind_run, Option.bind_some, Scan.peek_bind, Scan.peek_bind]
  change (ite (((setting.dropKind .const tokens).headD setting.finish).kind = .keyword .auto)
    (_ >>= behindTypeName room) (_ >>= fun _ => _ >>= fun _ => _ >>= behindTypeName room)
    setting).run (setting.dropKind .const tokens) = _
  generalize setting.dropKind .const tokens = rest
  split
  · rfl
  · rw [Scan.bind_run, Scan.bind_run, Scan.skipKind_run]
    rfl

theorem typeNameAhead_run (room : Nat) (tokens : List Token) :
    (typeNameAhead room setting).run tokens =
      if (tokens.headD setting.finish).kind = .keyword .auto then
        some (tokens.headD setting.finish, tokens.tail)
      else
        let rest := setting.dropKind .scope tokens
        ((Scan.repeatUpTo (byteCount rest + 1) (Scan.leadingScope room) setting).run rest).map
          fun seen => (seen.2.headD setting.finish, seen.2.tail) := by
  unfold typeNameAhead
  rw [Scan.peek_bind]
  split
  · rfl
  · rw [Scan.bind_run, Scan.skipKind_run, Option.bind_some, Scan.get_bind, Scan.scopedName_run,
      Scan.bind_run, Option.map_eq_bind]
    rfl

theorem typeName_finds (hclosed : setting.Closed) (hbound : setting.source.size < bound) {room : Nat}
    (hcheck : ∀ name, Checks setting reader (checkType name) (templateList room name))
    {first : Token} (hfirst : setting.Begins first tokens) (h : setting.Here cursor tokens.tail) :
    Finds setting reader cursor (typeName bound checkType first) fun name after =>
      ∃ path, (typeNameAhead room setting).run tokens =
          some (path.headD setting.finish, path.tail) ∧
        setting.Begins name path ∧ setting.Here after path.tail := by
  rw [typeNameAhead_run, ← (hfirst.alike hclosed).kind]
  unfold typeName
  split
  · exact .pure ⟨tokens, rfl, hfirst, h⟩
  · refine (past_finds hclosed .scope hfirst h).bind ?_
    rintro name afterName ⟨hname, hafterName⟩
    refine (next_finds hafterName).bind ?_
    rintro second afterSecond ⟨hsecond, hafterSecond⟩
    have hcount := Nat.lt_of_le_of_lt hname.reads.byteCount_le hbound
    refine (typePath_finds hclosed hcheck hname hsecond hafterSecond hcount
      (Nat.lt_succ_self _)).bind ?_
    rintro ⟨last, behind⟩ afterPath ⟨path, hpath, hlast, hbehind⟩
    refine (rewind_finds hbehind).bind ?_
    rintro - after hafter
    refine .pure ⟨path, ?_, hlast, hafter⟩
    dsimp only
    rw [hpath]
    rfl

theorem next_starts (h : setting.Here cursor tokens) :
    Finds setting reader cursor next fun token after =>
      token = (cursor.next setting.source).1 ∧ setting.Begins token tokens ∧
        setting.Here after tokens.tail := by
  obtain ⟨value, after, hrun, hvalue⟩ := @next_finds setting reader cursor tokens h
  exact ⟨value, after, hrun, (congrArg Prod.fst hrun).symm, hvalue⟩

theorem rewind_return (token : Token) (value : α) :
    Finds setting reader cursor (do rewind token; return value) fun answer after =>
      answer = value ∧ after = .rewound token :=
  ⟨value, .rewound token, rfl, rfl, rfl⟩

/-- The type's end is the one that the scan finds, and the cursor is back. -/
theorem isType_finds (hclosed : setting.Closed) (hbound : setting.source.size < bound)
    {room levels : Nat} (hlevels : room ≤ levels)
    (hroom : room = setting.options.maxDepth - reader.depth) (h : setting.Here cursor tokens) :
    Finds setting reader cursor (isType bound levels) fun answer after =>
      after = .rewound (cursor.next setting.source).1 ∧
        (((typeAhead room setting).run tokens) = none ∧ answer = none ∨
          ∃ seen token, (typeAhead room setting).run tokens = some seen ∧ answer = some token ∧
            setting.Begins token seen.2 ∧ (seen.2.headD setting.finish).kind ≠ .ampersand) := by
  have hcheck (name : Token) := checkTemplateType_finds hclosed hbound hlevels hroom name
  rw [typeAhead_run]
  unfold isType
  refine (next_starts h).bind ?_
  rintro start afterStart ⟨rfl, hstart, hafterStart⟩
  refine (past_finds hclosed .const hstart hafterStart).bind ?_
  rintro first afterFirst ⟨hfirst, hafterFirst⟩
  refine (typeName_finds hclosed hbound hcheck hfirst hafterFirst).bind ?_
  rintro name afterName ⟨path, hpath, hname, hafterName⟩
  rw [hpath, Option.bind_some, behindTypeName_run]
  have halike := hname.alike hclosed
  rw [← halike.isTypeName, ← halike.kind]
  split
  case isFalse =>
    refine (rewind_return _ _).mono ?_
    rintro answer after ⟨rfl, rfl⟩
    exact ⟨rfl, .inl ⟨rfl, rfl⟩⟩
  rename_i htype
  have hended : name.kind ≠ .endOfSource := by
    intro hend
    simp [Token.isTypeName, hend, TokenKind.isIdentifier, TokenKind.isPrimitiveType] at htype
  rw [hname.headD_eq hended]
  refine (hcheck name hafterName).bind ?_
  rintro answer afterList (⟨hnone, rfl⟩ | ⟨behind, hbehind, rfl, hafterList⟩)
  · rw [Option.map_eq_none_iff.mp hnone]
    refine (rewind_return _ _).mono ?_
    rintro answer after ⟨rfl, rfl⟩
    exact ⟨rfl, .inl ⟨rfl, rfl⟩⟩
  · obtain ⟨seen, hseen, rfl⟩ := Option.map_eq_some_iff.mp hbehind
    rw [hseen, Option.bind_some]
    refine (next_behind hafterList).bind ?_
    rintro suffix afterSuffix ⟨hsuffix, hafterSuffix⟩
    have hcount := Nat.lt_of_le_of_lt hsuffix.reads.length_le hbound
    refine (typeSuffixes_finds hclosed hsuffix hafterSuffix hcount).bind ?_
    rintro answer afterSuffixes (⟨hnone, rfl⟩ | ⟨tokens, token, htokens, rfl, hbegins, -⟩)
    · rw [hnone]
      refine (rewind_return _ _).mono ?_
      rintro answer after ⟨rfl, rfl⟩
      exact ⟨rfl, .inl ⟨rfl, rfl⟩⟩
    · rw [htokens]
      refine (rewind_return _ _).mono ?_
      rintro answer after ⟨rfl, rfl⟩
      exact ⟨rfl, .inr ⟨_, token, rfl, rfl, hbegins, skipSuffixes?_kind hclosed.ended htokens⟩⟩

/-! ## Predicates -/

/-- The test answers whether the scan succeeds. -/
def Decides (setting : Setting) (reader : Reader) (test : Look Bool) (scan : Scan Unit) : Prop :=
  ∀ ⦃tokens : List Token⦄ ⦃cursor : RememberingCursor⦄, setting.Here cursor tokens →
    Finds setting reader cursor test fun answer _ =>
      answer = ((scan setting).run tokens).isSome

/-- The test answers whether the scan succeeds, and the cursor comes back. -/
def Asks (setting : Setting) (reader : Reader) (test : Look Bool) (scan : Scan Unit) : Prop :=
  ∀ ⦃tokens : List Token⦄ ⦃cursor : RememberingCursor⦄, setting.Here cursor tokens →
    Finds setting reader cursor test fun answer after =>
      answer = ((scan setting).run tokens).isSome ∧ after = .rewound (cursor.next setting.source).1

section

variable {test : Look Bool} {scan : Scan Unit}

theorem peek_finds (h : setting.Here cursor tokens) :
    Finds setting reader cursor peek fun token after =>
      token = (cursor.next setting.source).1 ∧ setting.Here after tokens := by
  refine (next_starts h).bind ?_
  rintro token afterToken ⟨rfl, hbegins, -⟩
  exact (rewind_finds hbegins).bind fun _ after hafter => .pure ⟨rfl, hafter⟩

theorem asking_asks (h : Decides setting reader test scan) : Asks setting reader (asking test) scan := by
  intro tokens cursor hhere
  refine (peek_finds hhere).bind ?_
  rintro start after ⟨rfl, hafter⟩
  refine (h hafter).bind ?_
  rintro answer last rfl
  exact rewind_return _ _

theorem behindType_decides (hclosed : setting.Closed) (hbound : setting.source.size < bound)
    {room levels : Nat} (hlevels : room ≤ levels)
    (hroom : room = setting.options.maxDepth - reader.depth)
    (htest : ∀ ⦃tokens : List Token⦄ ⦃cursor : RememberingCursor⦄, setting.Here cursor tokens →
      (tokens.headD setting.finish).kind ≠ .ampersand →
      Finds setting reader cursor test fun answer _ =>
        answer = ((scan setting).run tokens).isSome) :
    Decides setting reader (behindType bound levels test) (do typeAhead room; scan) := by
  intro tokens cursor h
  rw [Scan.bind_run]
  refine (isType_finds hclosed hbound hlevels hroom h).bind ?_
  rintro answer after ⟨-, (⟨hnone, rfl⟩ | ⟨seen, token, hseen, rfl, hbegins, hkind⟩)⟩
  · rw [hnone]
    exact .pure rfl
  · rw [hseen]
    refine (rewind_finds hbegins).bind ?_
    rintro - last hlast
    exact htest hlast hkind

theorem decides_skipIf (hclosed : setting.Closed) {pass : Token → Bool}
    (hpass : ∀ token other, token.Alike other → pass other = pass token)
    (h : Decides setting reader test scan) :
    Decides setting reader (do skipIf pass; test) (do Scan.skipIf pass; scan) := by
  intro tokens cursor hhere
  rw [Scan.bind_run, Scan.skipIf_run, Option.bind_some]
  refine (skipIf_finds hclosed pass hpass hhere).bind ?_
  rintro - after hafter
  exact h hafter

theorem verdict_isSome (tokens : List Token) (fails : Bool) :
    (((if fails then failure else pure () : Scan Unit) setting).run tokens).isSome = !fails := by
  cases fails <;> rfl

theorem decides_requireIdentifier (hclosed : setting.Closed) (h : Decides setting reader test scan) :
    Decides setting reader (do if (← next).kind.isIdentifier then test else return false)
      (do Scan.requireIdentifier; scan) := by
  intro tokens cursor hhere
  rw [Scan.bind_run, Scan.requireIdentifier_run]
  refine (next_finds hhere).bind ?_
  rintro token after ⟨hbegins, hafter⟩
  rw [← (hbegins.alike hclosed).kind]
  split
  · exact h hafter
  · exact .pure rfl

theorem decides_require (hclosed : setting.Closed) (kind : TokenKind)
    (h : Decides setting reader test scan) :
    Decides setting reader (do if (← next).kind = kind then test else return false)
      (do Scan.require kind; scan) := by
  intro tokens cursor hhere
  rw [Scan.bind_run, Scan.require_run]
  refine (next_finds hhere).bind ?_
  rintro token after ⟨hbegins, hafter⟩
  rw [← (hbegins.alike hclosed).kind]
  split
  · exact h hafter
  · exact .pure rfl

theorem decides_last (hclosed : setting.Closed) (kind : TokenKind) :
    Decides setting reader (do return (← next).kind = kind) (Scan.require kind) := by
  intro tokens cursor hhere
  rw [Scan.require_run]
  refine (next_finds hhere).bind ?_
  rintro token after ⟨hbegins, hafter⟩
  rw [← (hbegins.alike hclosed).kind]
  refine .pure ?_
  by_cases hkind : token.kind = kind
  · rw [if_pos hkind]
    exact decide_eq_true hkind
  · rw [if_neg hkind]
    exact decide_eq_false hkind

theorem decides_group (hbound : setting.source.size < bound) (h : Decides setting reader test scan) :
    Decides setting reader (do if ← skipParenthesized bound 1 then test else return false)
      (do Scan.update (skipGroup? 0); scan) := by
  intro tokens cursor hhere
  rw [Scan.bind_run, Scan.update_run]
  refine (skipParenthesized_finds 0 hhere (Nat.lt_of_le_of_lt hhere.reads.length_le hbound)).bind ?_
  rintro answer after (⟨hnone, rfl⟩ | ⟨behind, hbehind, rfl, hafter⟩)
  · rw [hnone]
    exact .pure rfl
  · rw [hbehind]
    exact h hafter

theorem skipAttributes_finds {bound : Nat} (h : setting.Here cursor tokens)
    (hbound : tokens.length < bound) :
    Finds setting reader cursor (skipAttributes bound) fun _ after =>
      setting.Here after (tokens.dropWhile (·.hasRole .methodAttribute)) := by
  induction bound generalizing tokens cursor with
  | zero => exact absurd hbound (Nat.not_lt_zero _)
  | succ bound ih =>
      refine (next_finds h).bind ?_
      rintro token after ⟨hbegins, hafter⟩
      cases tokens with
      | nil =>
          have hrole : token.hasRole .methodAttribute = false := by
            cases hrole : token.hasRole .methodAttribute with
            | false => rfl
            | true => cases (kind_of_hasRole hrole).symm.trans hbegins.kind_nil
          simp only [hrole, Bool.false_eq_true, ↓reduceIte]
          exact rewind_finds hbegins
      | cons first rest =>
          obtain rfl := hbegins.eq_head
          rw [List.dropWhile_cons]
          split
          · exact ih hafter (Nat.lt_of_succ_lt_succ hbound)
          · exact rewind_finds hbegins

theorem decides_skipAttributes (hbound : setting.source.size < bound)
    (h : Decides setting reader test scan) :
    Decides setting reader (do skipAttributes bound; test)
      (do modify fun tokens => tokens.dropWhile (·.hasRole .methodAttribute); scan) := by
  intro tokens cursor hhere
  refine (skipAttributes_finds hhere (Nat.lt_of_le_of_lt hhere.reads.length_le hbound)).bind ?_
  rintro - after hafter
  exact h hafter

end

/-- What follows the type of a variable. -/
def variableNameAhead : Scan Unit := do
  Scan.requireIdentifier
  match (← Scan.next).kind with
  | .assign | .semicolon | .comma => return
  | .openParen =>
      Scan.update (skipGroup? 0)
      let after := (← Scan.peek).kind
      if after = .openBrace || after.isIdentifier || after.isEnd then failure
  | _ => failure

theorem variableName_decides (hclosed : setting.Closed) (hbound : setting.source.size < bound) :
    Decides setting reader (variableName bound) variableNameAhead := by
  refine decides_requireIdentifier hclosed ?_
  intro tokens cursor h
  rw [Scan.next_bind]
  refine (next_finds h).bind ?_
  rintro mark afterMark ⟨hmark, hafterMark⟩
  rw [← (hmark.alike hclosed).kind]
  generalize mark.kind = kind
  split
  · exact .pure rfl
  · exact .pure rfl
  · exact .pure rfl
  · refine decides_group hbound ?_ hafterMark
    intro tokens cursor h
    rw [Scan.peek_bind]
    dsimp only
    rw [verdict_isSome]
    refine (next_finds h).bind ?_
    rintro token last ⟨htoken, -⟩
    rw [← (htoken.alike hclosed).kind]
    exact .pure rfl
  · refine .pure ?_
    simp_all
    rfl

theorem isVariable_asks (hclosed : setting.Closed) (hbound : setting.source.size < bound)
    {room levels : Nat} (hlevels : room ≤ levels)
    (hroom : room = setting.options.maxDepth - reader.depth) :
    Asks setting reader (isVariable bound levels) (variableAhead room) :=
  asking_asks (decides_skipIf hclosed (fun _ _ => Token.Alike.isAccessModifier)
    (behindType_decides hclosed hbound hlevels hroom fun _ _ h _ =>
      variableName_decides hclosed hbound h))

/-- What follows the type of a property. -/
def propertyNameAhead : Scan Unit := do
  Scan.requireIdentifier
  Scan.require .openBrace
  let token ← Scan.peek
  if !(token.kind = .closeBrace || token.isWord .get || token.isWord .set) then failure

theorem propertyName_decides (hclosed : setting.Closed) :
    Decides setting reader propertyName propertyNameAhead := by
  intro tokens cursor h
  unfold propertyName propertyNameAhead
  rw [Scan.bind_run, Scan.requireIdentifier_run]
  refine (next_finds h).bind ?_
  rintro name afterName ⟨hname, hafterName⟩
  refine (next_finds hafterName).bind ?_
  rintro opening afterOpening ⟨hopening, hafterOpening⟩
  rw [← (hname.alike hclosed).kind]
  cases name.kind.isIdentifier with
  | false => exact .pure rfl
  | true =>
      rw [if_pos rfl, Option.bind_some, Scan.bind_run, Scan.require_run,
        ← (hopening.alike hclosed).kind]
      by_cases hkind : opening.kind = .openBrace
      · simp only [hkind, decide_true, Bool.and_self, ↓reduceIte, Option.bind_some]
        rw [Scan.peek_bind, verdict_isSome, Bool.not_not]
        refine (next_finds hafterOpening).bind ?_
        rintro token last ⟨htoken, -⟩
        have halike := htoken.alike hclosed
        rw [← halike.kind, ← halike.isWord, ← halike.isWord]
        exact .pure rfl
      · simp only [hkind, decide_false, Bool.and_false, Bool.false_eq_true, ↓reduceIte]
        exact .pure rfl

theorem isVirtualProperty_asks (hclosed : setting.Closed) (hbound : setting.source.size < bound)
    {room levels : Nat} (hlevels : room ≤ levels)
    (hroom : room = setting.options.maxDepth - reader.depth) :
    Asks setting reader (isVirtualProperty bound levels) (propertyAhead room) :=
  asking_asks (decides_skipIf hclosed (fun _ _ => Token.Alike.isAccessModifier)
    (behindType_decides hclosed hbound hlevels hroom fun _ _ h _ =>
      propertyName_decides hclosed h))

/-- What follows the type of a function with a body. -/
def functionNameAhead (ofClass : Bool) : Scan Unit := do
  Scan.requireIdentifier
  Scan.require .openParen
  Scan.update (skipGroup? 0)
  if ofClass then Scan.skipKind .const
  modify fun tokens => tokens.dropWhile (·.hasRole .methodAttribute)
  Scan.require .openBrace

/-- A function with a body. -/
def functionAhead (room : Nat) : Scan Unit := do
  typeAhead room
  functionNameAhead false

theorem functionName_decides (hclosed : setting.Closed) (hbound : setting.source.size < bound)
    (ofClass : Bool) ⦃tokens : List Token⦄ ⦃cursor : RememberingCursor⦄
    (h : setting.Here cursor tokens) (hkind : (tokens.headD setting.finish).kind ≠ .ampersand) :
    Finds setting reader cursor (functionName bound ofClass) fun answer _ =>
      answer = ((functionNameAhead ofClass setting).run tokens).isSome := by
  have hbody : Decides setting reader
      (do skipAttributes bound; return (← next).kind = .openBrace)
      (do
        modify fun tokens => tokens.dropWhile (·.hasRole .methodAttribute)
        Scan.require .openBrace) :=
    decides_skipAttributes hbound (decides_last hclosed .openBrace)
  unfold functionName functionNameAhead
  rw [Scan.bind_run, Scan.requireIdentifier_run]
  refine (next_finds h).bind ?_
  rintro name after ⟨hname, hafter⟩
  rw [← (hname.alike hclosed).kind] at hkind ⊢
  rw [if_neg hkind]
  split
  case isFalse => exact .pure rfl
  refine decides_require hclosed .openParen (decides_group hbound ?_) hafter
  cases ofClass with
  | false => exact hbody
  | true => exact decides_skipIf hclosed (fun _ _ halike => by rw [halike.kind]) hbody

theorem isFunction_asks (hclosed : setting.Closed) (hbound : setting.source.size < bound)
    {room levels : Nat} (hlevels : room ≤ levels)
    (hroom : room = setting.options.maxDepth - reader.depth) :
    Asks setting reader (isFunction bound levels) (functionAhead room) :=
  asking_asks (behindType_decides hclosed hbound hlevels hroom
    (functionName_decides hclosed hbound false))

theorem constructorAhead_run (tokens : List Token) :
    (constructorAhead setting).run tokens =
      if (tokens.headD setting.finish).kind.isIdentifier &&
          (tokens.tail.headD setting.finish).kind = .openParen ||
        (tokens.headD setting.finish).kind = .tilde
      then some ((), tokens.tail) else none := by
  unfold constructorAhead
  rw [Scan.next_bind, Scan.peek_bind, Bool.or_comm]
  cases (tokens.headD setting.finish).kind.isIdentifier &&
      decide ((tokens.tail.headD setting.finish).kind = .openParen) ||
    decide ((tokens.headD setting.finish).kind = .tilde) <;> rfl

theorem isMethod_asks (hclosed : setting.Closed) (hbound : setting.source.size < bound)
    {room levels : Nat} (hlevels : room ≤ levels)
    (hroom : room = setting.options.maxDepth - reader.depth) :
    Asks setting reader (isMethod bound levels) (methodAhead room) := by
  refine asking_asks (decides_skipIf hclosed (fun _ _ => Token.Alike.isAccessModifier) ?_)
  intro tokens cursor h
  rw [Scan.bind_run, Scan.passes_run, Option.bind_some]
  refine (next_finds h).bind ?_
  rintro first afterFirst ⟨hfirst, hafterFirst⟩
  refine (next_finds hafterFirst).bind ?_
  rintro second afterSecond ⟨hsecond, hafterSecond⟩
  rw [constructorAhead_run, ← (hfirst.alike hclosed).kind, ← (hsecond.alike hclosed).kind]
  split
  · exact .pure rfl
  · refine (rewind_finds hfirst).bind ?_
    rintro - after hafter
    have hbehind : Decides setting reader (behindType bound levels (functionName bound true))
        (do typeAhead room; functionNameAhead true) :=
      behindType_decides hclosed hbound hlevels hroom (functionName_decides hclosed hbound true)
    exact hbehind hafter

theorem lambdaFrom_finds (hclosed : setting.Closed) (hbound : setting.source.size < bound)
    {start : Token} (hstart : setting.Begins start tokens) (h : setting.Here cursor tokens.tail) :
    Finds setting reader cursor (lambdaFrom bound start) fun answer _ =>
      answer = ((lambdaAhead setting).run tokens).isSome := by
  unfold lambdaFrom lambdaAhead
  rw [Scan.peek_bind, (hstart.alike hclosed).isWord]
  cases (tokens.headD setting.finish).isWord .function with
  | false => exact .pure rfl
  | true => exact decides_require hclosed .openParen (decides_group hbound (decides_last hclosed .openBrace)) h

theorem isLambda_asks (hclosed : setting.Closed) (hbound : setting.source.size < bound) :
    Asks setting reader (isLambda bound) lambdaAhead := by
  intro tokens cursor h
  refine (next_starts h).bind ?_
  rintro start after ⟨rfl, hstart, hafter⟩
  refine (lambdaFrom_finds hclosed hbound hstart hafter).bind ?_
  rintro answer last rfl
  exact rewind_return _ _

theorem isFunctionCall_asks (hclosed : setting.Closed) (hbound : setting.source.size < bound) :
    Asks setting reader (isFunctionCall bound) callAhead := by
  intro tokens cursor h
  unfold callAhead
  rw [Scan.bind_run, Scan.skipKind_run, Option.bind_some, Scan.modify_bind, Scan.bind_run,
    Scan.requireIdentifier_run]
  refine (next_starts h).bind ?_
  rintro start afterStart ⟨rfl, hstart, hafterStart⟩
  refine (past_finds hclosed .scope hstart hafterStart).bind ?_
  rintro first afterFirst ⟨hfirst, hafterFirst⟩
  refine (next_finds hafterFirst).bind ?_
  rintro second afterSecond ⟨hsecond, hafterSecond⟩
  have hcount := Nat.lt_of_le_of_lt hfirst.reads.length_le hbound
  refine (skipNames_finds hfirst hsecond hafterSecond hcount).bind ?_
  rintro ⟨name, mark⟩ afterNames ⟨hname, hmark, -⟩
  refine (rewind_return _ _).mono ?_
  rintro answer after ⟨rfl, rfl⟩
  refine ⟨?_, rfl⟩
  unfold Setting.dropKind at hname hmark
  dsimp only at hname hmark ⊢
  rw [← (hname.alike hclosed).kind]
  cases name.kind.isIdentifier with
  | false => rfl
  | true =>
      rw [if_pos rfl, Option.bind_some, Scan.require_run, ← (hmark.alike hclosed).kind]
      by_cases hkind : mark.kind = .openParen
      · simp [hkind]
      · simp [hkind]

/-- The list of arguments behind a name and a scope mark. -/
def scopeListAhead (room : Nat) (name : Token) : Scan Unit := do
  templateList room name
  Scan.require .scope

theorem scopeFrom_decides (hclosed : setting.Closed) (hbound : setting.source.size < bound)
    {room levels : Nat} (hlevels : room ≤ levels)
    (hroom : room = setting.options.maxDepth - reader.depth) (name : Token) :
    Decides setting reader (scopeFrom bound levels name) (scopeListAhead room name) := by
  intro tokens cursor h
  unfold scopeListAhead
  rw [Scan.bind_run]
  refine (checkTemplateType_finds hclosed hbound hlevels hroom name h).bind ?_
  rintro answer after (⟨hnone, rfl⟩ | ⟨behind, hbehind, rfl, hafter⟩)
  · rw [Option.map_eq_none_iff.mp hnone]
    exact .pure rfl
  · obtain ⟨seen, hseen, rfl⟩ := Option.map_eq_some_iff.mp hbehind
    rw [hseen]
    exact decides_last hclosed .scope hafter

theorem templateScopeAhead_run
    (hlists : setting.listsArguments (tokens.headD setting.finish) tokens.tail = true) (room : Nat) :
    (templateScopeAhead room setting).run tokens =
      (scopeListAhead room (tokens.headD setting.finish) setting).run tokens.tail := by
  unfold Setting.listsArguments at hlists
  unfold templateScopeAhead
  rw [Scan.next_bind, Scan.read_bind, Scan.peek_bind]
  simp only [hlists, Bool.not_true, Bool.false_eq_true, ↓reduceIte]
  rfl

/-- A template scope is looked for from the name on, wherever the cursor stands. -/
theorem isTemplateScope_finds (hclosed : setting.Closed) (hbound : setting.source.size < bound)
    {room levels : Nat} (hlevels : room ≤ levels)
    (hroom : room = setting.options.maxDepth - reader.depth) {name : Token}
    (hname : setting.Begins name tokens) :
    Finds setting reader cursor (isTemplateScope bound levels name) fun answer after =>
      answer = ((scopeListAhead room name setting).run tokens.tail).isSome ∧
        after = .rewound name := by
  refine (rewind_finds hname).bind ?_
  rintro - afterRewind hafterRewind
  refine (next_finds hafterRewind).bind ?_
  rintro token afterName ⟨-, hafterName⟩
  refine (scopeFrom_decides hclosed hbound hlevels hroom name hafterName).bind ?_
  rintro answer last rfl
  exact rewind_return _ _

/-- What a parser asks before it chooses a rule. -/
inductive Predicate
  | typeStarts
  | variableStarts
  | propertyStarts
  | functionStarts
  | methodStarts
  | lambdaStarts
  | callStarts
  deriving DecidableEq

namespace Predicate

/-- How a parser on a cursor asks. -/
def ask (bound levels : Nat) : Predicate → Look Bool
  | typeStarts => do return (← isType bound levels).isSome
  | variableStarts => isVariable bound levels
  | propertyStarts => isVirtualProperty bound levels
  | functionStarts => isFunction bound levels
  | methodStarts => isMethod bound levels
  | lambdaStarts => isLambda bound
  | callStarts => isFunctionCall bound

/-- What it asks for. -/
def scan (room : Nat) : Predicate → Scan Unit
  | typeStarts => typeAhead room
  | variableStarts => variableAhead room
  | propertyStarts => propertyAhead room
  | functionStarts => functionAhead room
  | methodStarts => methodAhead room
  | lambdaStarts => lambdaAhead
  | callStarts => callAhead

theorem asks (hclosed : setting.Closed) (hbound : setting.source.size < bound) {room levels : Nat}
    (hlevels : room ≤ levels) (hroom : room = setting.options.maxDepth - reader.depth)
    (predicate : Predicate) :
    Asks setting reader (predicate.ask bound levels) (predicate.scan room) := by
  cases predicate with
  | typeStarts =>
      intro tokens cursor h
      refine (isType_finds hclosed hbound hlevels hroom h).bind ?_
      rintro answer after ⟨rfl, (⟨hnone, rfl⟩ | ⟨seen, token, hseen, rfl, -⟩)⟩
      · exact .pure ⟨(congrArg Option.isSome hnone).symm, rfl⟩
      · exact .pure ⟨(congrArg Option.isSome hseen).symm, rfl⟩
  | variableStarts => exact isVariable_asks hclosed hbound hlevels hroom
  | propertyStarts => exact isVirtualProperty_asks hclosed hbound hlevels hroom
  | functionStarts => exact isFunction_asks hclosed hbound hlevels hroom
  | methodStarts => exact isMethod_asks hclosed hbound hlevels hroom
  | lambdaStarts => exact isLambda_asks hclosed hbound
  | callStarts => exact isFunctionCall_asks hclosed hbound

/-- Asking changes nothing of what the parser has reported, of how deep it is and of what it will
read, and the answer is that of the scan. -/
structure LeavesNoTrace (setting : Setting) (reader : Reader) (bound levels : Nat)
    (predicate : Predicate) : Prop where
  reader_eq : (predicate.ask bound levels setting reader).2 =
    { reader with cursor := (predicate.ask bound levels setting reader).2.cursor }
  deliver_eq : ∀ count, RememberingCursor.deliver setting.source count
      (predicate.ask bound levels setting reader).2.cursor =
    RememberingCursor.deliver setting.source count reader.cursor
  sees_eq : ∀ session : Session,
    session.ahead = setting.source.tokensFrom reader.cursor.position →
    Parse.sees (predicate.scan (setting.options.maxDepth - reader.depth)) setting session =
      (.ok (predicate.ask bound levels setting reader).1, session)

theorem leavesNoTrace (hclosed : setting.Closed) (hbound : setting.source.size < bound)
    {levels : Nat} (hlevels : setting.options.maxDepth - reader.depth ≤ levels)
    (hsound : reader.cursor.Sound setting.source) (predicate : Predicate) :
    predicate.LeavesNoTrace setting reader bound levels := by
  have hasks : Asks setting reader (predicate.ask bound levels) _ :=
    predicate.asks hclosed hbound hlevels rfl
  obtain ⟨answer, after, hrun, rfl, rfl⟩ := hasks ⟨hsound, rfl⟩
  change predicate.ask bound levels setting reader = _ at hrun
  refine ⟨by rw [hrun]; rfl, ?_, ?_⟩
  · rw [hrun]
    exact hsound.delivers.deliver_rewound hsound
  · intro session hsession
    rw [hrun, ← hsession]
    rfl

end Predicate

/-- No question that a parser asks ahead leaves a trace, whatever the parser has read, given back and
jumped over before.  Looking for a template scope sets the cursor to the name that it is given. -/
theorem lookahead_leaves_no_trace (entry : Entry) (options : Options) (source : Source)
    (reader : Reader) {seen : List Token} (hreached : RememberingCursor.Reached source reader.cursor seen)
    {bound levels : Nat} (hbound : source.size < bound) (hlevels : options.maxDepth ≤ levels) :
    (∀ predicate : Predicate,
      predicate.LeavesNoTrace (entry.setting options source) reader bound levels) ∧
    ∀ name ∈ seen,
      (isTemplateScope bound levels name (entry.setting options source) reader).2 =
          { reader with cursor := .rewound name } ∧
        RememberingCursor.deliver source 0 (.rewound name) = name ∧
        ∀ session : Session, session.ahead = source.tokensFrom name.span.start →
          (entry.setting options source).listsArguments name session.ahead.tail = true →
          Parse.sees (templateScopeAhead (options.maxDepth - reader.depth))
              (entry.setting options source) session =
            (.ok (isTemplateScope bound levels name (entry.setting options source) reader).1,
              session) := by
  have hclosed : (entry.setting options source).Closed := ⟨_, rfl⟩
  have hroom : (entry.setting options source).options.maxDepth - reader.depth ≤ levels :=
    Nat.le_trans (Nat.sub_le _ _) hlevels
  obtain ⟨hsound, hseen⟩ := hreached.sound
  refine ⟨fun predicate => predicate.leavesNoTrace hclosed hbound hroom hsound, ?_⟩
  intro name hname
  have hstands : source.Stands name := hseen name hname
  have hbegins : (entry.setting options source).Begins name _ := Setting.begins_of_stands hstands
  obtain ⟨answer, after, hrun, rfl, rfl⟩ :=
    @isTemplateScope_finds _ reader reader.cursor _ _ hclosed hbound _ _ hroom rfl _ hbegins
  change isTemplateScope bound levels name (entry.setting options source) reader = _ at hrun
  rw [hrun]
  refine ⟨rfl, ?_, ?_⟩
  · rw [RememberingCursor.deliver, (RememberingCursor.sound_rewound hstands).next_eq]
    exact congrArg Prod.fst hstands
  · intro session hsession hlists
    have hkind : name.kind = .identifier := by
      simp only [Setting.listsArguments, Setting.isTemplateName, TokenKind.isIdentifier,
        Bool.and_eq_true, decide_eq_true_iff] at hlists
      exact hlists.1.1
    have hhead : session.ahead.headD (entry.setting options source).finish = name := by
      rw [hsession]
      refine hbegins.headD_eq ?_
      rw [hkind]
      rintro ⟨⟩
    rw [← hhead] at hlists
    have hscan := templateScopeAhead_run hlists (options.maxDepth - reader.depth)
    rw [hhead, hsession] at hscan
    change (Except.ok (((templateScopeAhead _ _).run session.ahead).isSome), session) = _
    rw [hsession, hscan]
    rfl

/-- A parser that has read a name and reads on between the two bytes of `>>`. -/
theorem lookahead_between_brackets :
    let source := "array<array<int>> x;".toList
    let setting := Entry.script.setting {} source
    let name := (RememberingCursor.next source ⟨0, none⟩).1
    let reader : Reader := ⟨⟨16, none⟩, 1, {}, false, true⟩
    RememberingCursor.Reached source reader.cursor [name] ∧ Source.size source < 21 ∧
      ({} : Options).maxDepth ≤ 256 ∧
      (∀ predicate : Predicate, predicate.LeavesNoTrace setting reader 21 256) ∧
      (isTemplateScope 21 256 name setting reader).2 = { reader with cursor := .rewound name } := by
  have hreached : RememberingCursor.Reached "array<array<int>> x;".toList ⟨16, none⟩
      [(RememberingCursor.next "array<array<int>> x;".toList ⟨0, none⟩).1] :=
    .jump 16 (.next (.start 0))
  have htrace := lookahead_leaves_no_trace .script {} "array<array<int>> x;".toList
    ⟨⟨16, none⟩, 1, {}, false, true⟩ hreached (by decide : _ < 21) (by decide : _ ≤ 256)
  exact ⟨hreached, by decide, by decide, htrace.1, (htrace.2 _ (List.mem_singleton.mpr rfl)).1⟩

end Look

end Grammar

end ScriptSyntax
