import ScriptSyntax.Proofs.CursorLookahead
import ScriptSyntax.Proofs.Termination

/-!
# Steps of looking ahead

Each step of a predicate on a cursor finds what the step of the scan finds in the tokens that the
cursor will deliver, and changes nothing else than where the cursor stands.
-/

namespace ScriptSyntax

namespace Grammar

/-- The token stands at the head of the tokens, which are those that are read from its start. -/
structure Setting.Begins (setting : Setting) (token : Token) (tokens : List Token) : Prop where
  stands : setting.source.Stands token
  tokens_eq : setting.source.tokensFrom token.span.start = tokens
  head : tokens.head? = some token ∨ tokens = [] ∧ ∃ offset, token = .endAt offset

/-- The tokens are those that the cursor will deliver. -/
structure Setting.Here (setting : Setting) (cursor : RememberingCursor) (tokens : List Token) :
    Prop where
  sound : cursor.Sound setting.source
  tokens_eq : setting.source.tokensFrom cursor.position = tokens

/-- The cursor has just read the token, which stands at the head of the tokens. -/
structure Setting.Behind (setting : Setting) (cursor : RememberingCursor) (token : Token)
    (tokens : List Token) : Prop extends setting.Here cursor tokens.tail where
  position : tokens ≠ [] → cursor.position = token.span.stop

/-- The end stands for the end of the source. -/
def Setting.Closed (setting : Setting) : Prop :=
  ∃ offset, setting.finish = .endAt offset

theorem Setting.Closed.ended {setting : Setting} (h : setting.Closed) : setting.Ended := by
  obtain ⟨offset, hfinish⟩ := h
  rw [Setting.Ended, hfinish]
  rfl

theorem Setting.Begins.alike {setting : Setting} {token : Token} {tokens : List Token}
    (hclosed : setting.Closed) (h : setting.Begins token tokens) :
    (tokens.headD setting.finish).Alike token := by
  rcases h.head with hhead | ⟨rfl, offset, rfl⟩
  · rw [List.headD_eq_head?_getD, hhead]
    exact .refl token
  · obtain ⟨finish, hfinish⟩ := hclosed
    rw [List.headD_nil, hfinish]
    exact ⟨rfl, rfl⟩

/-- A token that has been read begins what is read where it starts. -/
theorem Setting.begins_of_stands {setting : Setting} {token : Token}
    (h : setting.source.Stands token) :
    setting.Begins token (setting.source.tokensFrom token.span.start) := by
  refine ⟨h, rfl, ?_⟩
  cases htokens : setting.source.tokensFrom token.span.start with
  | nil =>
      obtain ⟨position, hread, -⟩ := Source.tokenAt_end htokens
      exact .inr ⟨rfl, _, (Prod.mk.inj (h.symm.trans hread)).1⟩
  | cons first rest =>
      exact .inl (congrArg some (Prod.mk.inj (h.symm.trans (Source.tokenAt_cons htokens))).1.symm)

theorem Setting.Begins.here {setting : Setting} {token : Token} {tokens : List Token}
    (h : setting.Begins token tokens) : setting.Here (.rewound token) tokens :=
  ⟨RememberingCursor.sound_rewound h.stands, h.tokens_eq⟩

theorem Setting.Here.reads {setting : Setting} {cursor : RememberingCursor} {tokens : List Token}
    (h : setting.Here cursor tokens) : setting.Reads tokens :=
  ⟨cursor.position, h.tokens_eq.symm⟩

theorem Setting.Begins.reads {setting : Setting} {token : Token} {tokens : List Token}
    (h : setting.Begins token tokens) : setting.Reads tokens :=
  ⟨token.span.start, h.tokens_eq.symm⟩

/-- The end is read where there are no tokens. -/
theorem Setting.Begins.kind_nil {setting : Setting} {token : Token} (h : setting.Begins token []) :
    token.kind = .endOfSource := by
  rcases h.head with hhead | ⟨-, offset, rfl⟩
  · cases hhead
  · rfl

theorem Setting.Begins.eq_head {setting : Setting} {token first : Token} {rest : List Token}
    (h : setting.Begins token (first :: rest)) : token = first := by
  rcases h.head with hhead | ⟨hnil, -⟩
  · exact (Option.some.inj hhead).symm
  · cases hnil

theorem Setting.Begins.ne_end {setting : Setting} {token first : Token} {rest : List Token}
    (h : setting.Begins token (first :: rest)) : token.kind ≠ .endOfSource := by
  rw [h.eq_head]
  exact h.reads.ne_end

theorem Setting.Begins.headD_eq {setting : Setting} {token : Token} {tokens : List Token}
    (hbegins : setting.Begins token tokens) (hkind : token.kind ≠ .endOfSource) :
    tokens.headD setting.finish = token := by
  cases tokens with
  | nil => exact absurd hbegins.kind_nil hkind
  | cons first rest => exact hbegins.eq_head.symm

theorem Setting.Reads.byteCount_add_le {setting : Setting} {offset : Nat}
    (h : setting.source.tokensFrom offset ≠ []) :
    byteCount (setting.source.tokensFrom offset) + offset ≤ setting.source.size := by
  generalize htokens : setting.source.tokensFrom offset = tokens at h
  induction tokens generalizing offset with
  | nil => exact absurd rfl h
  | cons token rest ih =>
      obtain ⟨body, after, hholds, hstart, hrest⟩ := Source.tokensFrom_eq_cons htokens
      have hlt := hholds.start_lt_stop
      have hstop := hholds.stop_le_size
      rw [byteCount_cons, Span.length]
      cases rest with
      | nil =>
          change _ + 0 + _ ≤ _
          omega
      | cons next rest =>
          have hle := ih hrest.symm (List.cons_ne_nil _ _)
          omega

/-- There are no more bytes ahead than the source has. -/
theorem Setting.Reads.byteCount_le {setting : Setting} {tokens : List Token}
    (h : setting.Reads tokens) : byteCount tokens ≤ setting.source.size := by
  obtain ⟨offset, rfl⟩ := h
  by_cases hnil : setting.source.tokensFrom offset = []
  · rw [hnil]
    exact Nat.zero_le _
  · exact Nat.le_trans (Nat.le_add_right _ _) (Setting.Reads.byteCount_add_le hnil)

/-- There are no more tokens ahead than the source has bytes. -/
theorem Setting.Reads.length_le {setting : Setting} {tokens : List Token}
    (h : setting.Reads tokens) : tokens.length ≤ setting.source.size := by
  suffices hlength : tokens.length ≤ byteCount tokens from Nat.le_trans hlength h.byteCount_le
  induction tokens with
  | nil => exact Nat.le_refl _
  | cons token rest ih =>
      have hlt := h.start_lt_stop
      have hrest := ih h.tail
      rw [byteCount_cons, Span.length, List.length_cons]
      omega

/-- The reader with its cursor somewhere else. -/
def Reader.moved (reader : Reader) (cursor : RememberingCursor) : Reader :=
  { reader with cursor }

namespace Look

variable {setting : Setting} {reader : Reader} {cursor : RememberingCursor} {tokens : List Token}
  {token : Token} {α β : Type}

/-- What the action answers, and where it leaves the cursor; it changes nothing else. -/
def Finds (setting : Setting) (reader : Reader) (cursor : RememberingCursor) (look : Look α)
    (post : α → RememberingCursor → Prop) : Prop :=
  ∃ value after, look setting (reader.moved cursor) = (value, reader.moved after) ∧ post value after

theorem Finds.pure {value : α} {post : α → RememberingCursor → Prop} (h : post value cursor) :
    Finds setting reader cursor (pure value) post :=
  ⟨value, cursor, rfl, h⟩

theorem Finds.mono {look : Look α} {post post' : α → RememberingCursor → Prop}
    (h : Finds setting reader cursor look post)
    (hpost : ∀ value after, post value after → post' value after) :
    Finds setting reader cursor look post' := by
  obtain ⟨value, after, hrun, hvalue⟩ := h
  exact ⟨value, after, hrun, hpost value after hvalue⟩

theorem Finds.bind {look : Look α} {rest : α → Look β} {post : α → RememberingCursor → Prop}
    {post' : β → RememberingCursor → Prop} (h : Finds setting reader cursor look post)
    (hrest : ∀ value after, post value after → Finds setting reader after (rest value) post') :
    Finds setting reader cursor (look >>= rest) post' := by
  obtain ⟨value, after, hrun, hvalue⟩ := h
  obtain ⟨result, last, hlast, hresult⟩ := hrest value after hvalue
  refine ⟨result, last, ?_, hresult⟩
  change rest (look setting (reader.moved cursor)).1 setting (look setting (reader.moved cursor)).2 = _
  rw [hrun]
  exact hlast

theorem Finds.read_bind {rest : Setting → Look β} {post : β → RememberingCursor → Prop}
    (h : Finds setting reader cursor (rest setting) post) :
    Finds setting reader cursor (read >>= rest) post :=
  h

theorem next_behind (h : setting.Here cursor tokens) :
    Finds setting reader cursor next fun token after =>
      setting.Begins token tokens ∧ setting.Behind after token tokens := by
  obtain ⟨hsound, rfl⟩ := h
  refine ⟨_, _, rfl, ?_⟩
  change setting.Begins (cursor.next setting.source).1 _ ∧
    setting.Behind (cursor.next setting.source).2 _ _
  have hdelivers := hsound.delivers
  have hnext := hsound.next_eq
  refine ⟨⟨hdelivers.stands, hdelivers.tokens, ?_⟩, ?_⟩
  · rw [hnext]
    cases htokens : setting.source.tokensFrom cursor.position with
    | nil =>
        obtain ⟨position, hread, -⟩ := Source.tokenAt_end htokens
        rw [hread]
        exact .inr ⟨rfl, _, rfl⟩
    | cons token rest =>
        rw [Source.tokenAt_cons htokens]
        exact .inl rfl
  · rw [hnext]
    refine ⟨⟨hsound, ?_⟩, ?_⟩
    · dsimp only
      cases htokens : setting.source.tokensFrom cursor.position with
      | nil =>
          obtain ⟨position, hread, hnil, -⟩ := Source.tokenAt_end htokens
          rw [hread]
          exact hnil
      | cons token rest =>
          rw [Source.tokenAt_cons htokens]
          exact (Source.stands_of_tokensFrom htokens).2.2
    · intro hne
      obtain ⟨token, rest, htokens⟩ := List.exists_cons_of_ne_nil hne
      have hread := congrArg Prod.fst hnext
      rw [Source.tokenAt_cons htokens] at hread ⊢
      exact congrArg (·.span.stop) hread.symm

theorem next_finds (h : setting.Here cursor tokens) :
    Finds setting reader cursor next fun token after =>
      setting.Begins token tokens ∧ setting.Here after tokens.tail :=
  (next_behind h).mono fun _ _ hread => ⟨hread.1, hread.2.toHere⟩

theorem rewind_finds (h : setting.Begins token tokens) :
    Finds setting reader cursor (rewind token) fun _ after => setting.Here after tokens :=
  ⟨(), .rewound token, rfl, h.here⟩

theorem jump_finds (offset : Nat) :
    Finds setting reader cursor (jump offset) fun _ after =>
      setting.Here after (setting.source.tokensFrom offset) ∧ after.position = offset := by
  refine ⟨(), ⟨offset, none⟩, rfl, ⟨?_, rfl⟩, rfl⟩
  intro token htoken
  cases htoken

/-! ## Flat runs -/

/-- The answer says whether there are tokens behind what is passed, and the cursor is there. -/
def Answers (setting : Setting) (behind : Option (List Token)) (answer : Bool)
    (cursor : RememberingCursor) : Prop :=
  behind = none ∧ answer = false ∨
    ∃ tokens, behind = some tokens ∧ answer = true ∧ setting.Here cursor tokens

/-- The token that is answered is the first one behind what is passed, and it has been read. -/
def Answers? (setting : Setting) (behind : Option (List Token)) (answer : Option Token)
    (cursor : RememberingCursor) : Prop :=
  behind = none ∧ answer = none ∨
    ∃ tokens token, behind = some tokens ∧ answer = some token ∧ setting.Begins token tokens ∧
      setting.Behind cursor token tokens

theorem past_finds (hclosed : setting.Closed) (kind : TokenKind) (hbegins : setting.Begins token tokens)
    (h : setting.Here cursor tokens.tail) :
    Finds setting reader cursor (past kind token) fun other after =>
      setting.Begins other (setting.dropKind kind tokens) ∧
        setting.Here after (setting.dropKind kind tokens).tail := by
  unfold past Setting.dropKind
  rw [(hbegins.alike hclosed).kind]
  split
  · exact next_finds h
  · exact .pure ⟨hbegins, h⟩

theorem skipIf_finds (hclosed : setting.Closed) (test : Token → Bool)
    (htest : ∀ token other, token.Alike other → test other = test token)
    (h : setting.Here cursor tokens) :
    Finds setting reader cursor (skipIf test) fun _ after =>
      setting.Here after (if test (tokens.headD setting.finish) then tokens.tail else tokens) := by
  refine (next_finds h).bind ?_
  rintro token after ⟨hbegins, hafter⟩
  rw [htest _ _ (hbegins.alike hclosed)]
  cases test (tokens.headD setting.finish) with
  | true => exact .pure hafter
  | false => exact rewind_finds hbegins

theorem skipParenthesized_finds {bound : Nat} (level : Nat) (h : setting.Here cursor tokens)
    (hbound : tokens.length < bound) :
    Finds setting reader cursor (skipParenthesized bound (level + 1))
      (Answers setting (skipGroup? level tokens)) := by
  induction bound generalizing tokens level cursor with
  | zero => exact absurd hbound (Nat.not_lt_zero _)
  | succ bound ih =>
      refine (next_finds h).bind ?_
      rintro token after ⟨hbegins, hafter⟩
      cases tokens with
      | nil =>
          rw [hbegins.kind_nil]
          exact .pure (.inl ⟨rfl, rfl⟩)
      | cons first rest =>
          have hended := hbegins.ne_end
          have hshorter : rest.length < bound := Nat.lt_of_succ_lt_succ hbound
          rw [skipGroup?.eq_def, ← hbegins.eq_head]
          dsimp only
          split
          · rename_i hkind
            rw [hkind]
            exact ih (level + 1) hafter hshorter
          · rename_i hkind
            cases level with
            | zero =>
                rw [hkind]
                exact .pure (.inr ⟨rest, rfl, rfl, hafter⟩)
            | succ level =>
                rw [hkind]
                exact ih level hafter hshorter
          · rename_i hkind
            exact absurd hkind hended
          · rename_i hopen hclose hend
            split
            · exact absurd ‹_› hopen
            · exact absurd ‹_› hclose
            · exact absurd ‹_› hclose
            · exact ih _ hafter hshorter

theorem skipNames_finds {first second : Token} {bound : Nat}
    (hfirst : setting.Begins first tokens) (hsecond : setting.Begins second tokens.tail)
    (h : setting.Here cursor tokens.tail.tail) (hbound : tokens.length < bound) :
    Finds setting reader cursor (skipNames bound first second) fun named after =>
      setting.Begins named.1 (skipScopes tokens) ∧ setting.Begins named.2 (skipScopes tokens).tail ∧
        setting.Here after (skipScopes tokens).tail.tail := by
  induction bound generalizing tokens first second cursor with
  | zero => exact absurd hbound (Nat.not_lt_zero _)
  | succ bound ih =>
      unfold skipNames
      match tokens with
      | [] =>
          rw [hfirst.kind_nil]
          exact .pure ⟨hfirst, hsecond, h⟩
      | [name] =>
          rw [hsecond.kind_nil]
          simp only [reduceCtorEq, decide_false, Bool.and_false, Bool.false_eq_true, ↓reduceIte]
          exact .pure ⟨hfirst, hsecond, h⟩
      | name :: mark :: rest =>
          rw [skipScopes, hfirst.eq_head, hsecond.eq_head]
          by_cases hscope : name.kind = .identifier ∧ mark.kind = .scope
          · simp only [hscope, TokenKind.isIdentifier, decide_true, Bool.and_self, and_self,
              ↓reduceIte]
            refine (next_finds h).bind ?_
            rintro other after ⟨hother, hafter⟩
            refine (next_finds hafter).bind ?_
            rintro another last ⟨hanother, hlast⟩
            simp only [List.tail_cons, List.length_cons] at hother hanother hlast hbound
            exact ih hother hanother hlast (by omega)
          · have hnone : ((name.kind.isIdentifier && decide (mark.kind = .scope)) = true) = False := by
              simpa [TokenKind.isIdentifier] using hscope
            simp only [hnone, ↓reduceIte, if_neg hscope]
            exact .pure ⟨hfirst.eq_head ▸ hfirst, hsecond.eq_head ▸ hsecond, h⟩

theorem argumentSuffixes_finds {bound : Nat} (hbegins : setting.Begins token tokens)
    (h : setting.Behind cursor token tokens) (hbound : tokens.length < bound) :
    Finds setting reader cursor (argumentSuffixes bound token)
      (Answers? setting (skipArgumentSuffixes? tokens)) := by
  induction bound generalizing tokens token cursor with
  | zero => exact absurd hbound (Nat.not_lt_zero _)
  | succ bound ih =>
      unfold argumentSuffixes
      match tokens with
      | [] =>
          rw [hbegins.kind_nil]
          exact .pure (.inr ⟨[], token, rfl, rfl, hbegins, h⟩)
      | first :: rest =>
          obtain rfl := hbegins.eq_head
          have hrest : setting.Here cursor rest := h.toHere
          rw [List.length_cons] at hbound
          by_cases hhandle : token.kind = .handle
          · rw [Parse.skipArgumentSuffixes?_handle hhandle]
            simp only [hhandle, ↓reduceIte]
            refine (next_behind hrest).bind ?_
            rintro other after ⟨hother, hafter⟩
            exact ih hother hafter (by omega)
          by_cases hbracket : token.kind = .openBracket
          · simp only [hbracket, reduceCtorEq, ↓reduceIte]
            refine (next_behind hrest).bind ?_
            rintro close after ⟨hclose, hafter⟩
            cases rest with
            | nil =>
                rw [hclose.kind_nil, skipArgumentSuffixes?.eq_def]
                dsimp only
                rw [hbracket]
                exact .pure (.inl ⟨rfl, rfl⟩)
            | cons second rest =>
                obtain rfl := hclose.eq_head
                by_cases hmatch : close.kind = .closeBracket
                · rw [Parse.skipArgumentSuffixes?_openBracket hbracket hmatch]
                  simp only [hmatch, ↓reduceIte]
                  refine (next_behind hafter.toHere).bind ?_
                  rintro other last ⟨hother, hlast⟩
                  simp only [List.tail_cons, List.length_cons] at hother hlast hbound
                  exact ih hother hlast (by omega)
                · have hnone : skipArgumentSuffixes? (token :: close :: rest) = none := by
                    rw [skipArgumentSuffixes?.eq_def]
                    dsimp only
                    rw [hbracket]
                    simp only [hmatch, ↓reduceIte]
                  simp only [hmatch, ↓reduceIte]
                  exact .pure (.inl ⟨hnone, rfl⟩)
          · simp only [hhandle, hbracket, ↓reduceIte]
            rw [Parse.skipArgumentSuffixes?_other hhandle hbracket]
            exact .pure (.inr ⟨_, token, rfl, rfl, hbegins, h⟩)

theorem skipKind_finds (hclosed : setting.Closed) (kind : TokenKind) (h : setting.Here cursor tokens) :
    Finds setting reader cursor (skipIf (·.kind = kind)) fun _ after =>
      setting.Here after (setting.dropKind kind tokens) := by
  refine (skipIf_finds hclosed (·.kind = kind) ?_ h).mono ?_
  · intro token other halike
    rw [halike.kind]
  · rintro - after hafter
    simpa [Setting.dropKind] using hafter

theorem skipSuffixes?_handle (setting : Setting) {rest : List Token} (h : token.kind = .handle) :
    skipSuffixes? (token :: rest) = skipSuffixes? (setting.dropKind .const rest) := by
  rw [Parse.skipSuffixes?_handle h]
  cases rest with
  | nil => simp [Setting.dropKind]
  | cons qualifier rest => simp [Setting.dropKind]

/-- References are passed with the type. -/
theorem skipSuffixes?_kind (hended : setting.Ended) {behind : List Token}
    (h : skipSuffixes? tokens = some behind) : (behind.headD setting.finish).kind ≠ .ampersand := by
  have hnil : (([] : List Token).headD setting.finish).kind ≠ .ampersand := by
    rw [List.headD_nil, hended]
    rintro ⟨⟩
  fun_induction skipSuffixes? tokens with
  | case1 =>
      cases h
      exact hnil
  | case2 token hkind qualifier rest hconst ih => exact ih h
  | case3 token hkind qualifier rest hconst ih => exact ih h
  | case4 token hkind =>
      cases h
      exact hnil
  | case5 token rest hkind ih => exact ih h
  | case6 token hkind close rest hclose ih => exact ih h
  | case7 => cases h
  | case8 => cases h
  | case9 =>
      cases h
      assumption

theorem typeSuffixes_finds (hclosed : setting.Closed) {bound : Nat}
    (hbegins : setting.Begins token tokens) (h : setting.Behind cursor token tokens)
    (hbound : tokens.length < bound) :
    Finds setting reader cursor (typeSuffixes bound token)
      (Answers? setting (skipSuffixes? tokens)) := by
  induction bound generalizing tokens token cursor with
  | zero => exact absurd hbound (Nat.not_lt_zero _)
  | succ bound ih =>
      unfold typeSuffixes
      match tokens with
      | [] =>
          rw [hbegins.kind_nil]
          exact .pure (.inr ⟨[], token, rfl, rfl, hbegins, h⟩)
      | first :: rest =>
          obtain rfl := hbegins.eq_head
          have hrest : setting.Here cursor rest := h.toHere
          rw [List.length_cons] at hbound
          by_cases hhandle : token.kind = .handle
          · rw [skipSuffixes?_handle setting hhandle]
            simp only [hhandle, ↓reduceIte]
            refine (skipKind_finds hclosed .const hrest).bind ?_
            rintro - after hafter
            refine (next_behind hafter).bind ?_
            rintro other last ⟨hother, hlast⟩
            have hle := (dropKind_suffix setting .const rest).length_le
            exact ih hother hlast (by omega)
          by_cases hampersand : token.kind = .ampersand
          · rw [Parse.skipSuffixes?_ampersand hampersand]
            simp only [hampersand, reduceCtorEq, ↓reduceIte]
            refine (next_behind hrest).bind ?_
            rintro other last ⟨hother, hlast⟩
            exact ih hother hlast (by omega)
          by_cases hbracket : token.kind = .openBracket
          · simp only [hbracket, reduceCtorEq, ↓reduceIte]
            refine (next_behind hrest).bind ?_
            rintro close after ⟨hclose, hafter⟩
            rw [Parse.skipSuffixes?_openBracket hbracket]
            cases rest with
            | nil =>
                rw [hclose.kind_nil]
                exact .pure (.inl ⟨rfl, rfl⟩)
            | cons second rest =>
                obtain rfl := hclose.eq_head
                by_cases hmatch : close.kind = .closeBracket
                · simp only [hmatch, List.head?_cons, Option.map_some, ↓reduceIte]
                  refine (next_behind hafter.toHere).bind ?_
                  rintro other last ⟨hother, hlast⟩
                  rw [List.tail_cons] at hother hlast
                  rw [List.length_cons] at hbound
                  exact ih hother hlast (by rw [List.tail_cons]; omega)
                · simp only [hmatch, List.head?_cons, Option.map_some, Option.some.injEq, ↓reduceIte]
                  exact .pure (.inl ⟨rfl, rfl⟩)
          · simp only [hhandle, hampersand, hbracket, ↓reduceIte]
            rw [Parse.skipSuffixes?_other hhandle hampersand hbracket]
            exact .pure (.inr ⟨_, token, rfl, rfl, hbegins, h⟩)

/-! ## Template lists -/

theorem opensGreater_iff (hbegins : setting.Begins token tokens) :
    (setting.source.suffix? token.span.start).bind List.head? = some '>' ↔
      tokens ≠ [] ∧ token.kind.startsWithGreater = true := by
  cases tokens with
  | nil =>
      simp only [ne_eq, not_true_eq_false, false_and, iff_false]
      intro hhead
      obtain ⟨rest, hrest, hgreater⟩ := Option.bind_eq_some_iff.mp hhead
      obtain ⟨-, hstop⟩ := Prod.mk.inj
        ((Source.tokenAt_nil hrest hbegins.tokens_eq).symm.trans hbegins.stands)
      rcases hbegins.head with hnone | ⟨-, offset, rfl⟩
      · cases hnone
      · have hsize := Source.suffix?_size_le hrest
        have hnil : rest = [] := by
          by_cases hne : rest = []
          · exact hne
          · have hpos := Source.size_pos hne
            change setting.source.size = offset at hstop
            change offset + _ = setting.source.size at hsize
            omega
        rw [hnil] at hgreater
        cases hgreater
  | cons first rest =>
      obtain rfl := hbegins.eq_head
      obtain ⟨⟨body, after, hholds⟩, -⟩ := hbegins.reads.cons
      rw [hholds.found]
      simp only [Option.bind_some, ne_eq, reduceCtorEq, not_false_eq_true, true_and]
      constructor
      · intro hhead
        obtain ⟨text, htext⟩ := List.head?_eq_some_iff.mp hhead
        have hclassify := hholds.classified
        rw [htext, Lexeme.classify_greater] at hclassify
        rw [← (Prod.mk.inj hclassify).1]
        exact Lexeme.angle_startsWithGreater text
      · intro hkind
        obtain ⟨others, rfl⟩ := hholds.greater_cons hkind
        rfl

/-- The answer says whether the tokens behind the arguments close a list, and then the cursor is
behind the first byte of the token that closes it. -/
def Closes (setting : Setting) (listed : Option (List Token)) (answer : Bool)
    (cursor : RememberingCursor) : Prop :=
  listed.bind setting.afterGreater? = none ∧ answer = false ∨
    ∃ tokens closing behind, listed = some tokens ∧ setting.Begins closing tokens ∧
      setting.afterGreater? tokens = some behind ∧ answer = true ∧ setting.Here cursor behind ∧
      cursor.position = closing.span.start + 1

theorem Closes.answers {listed : Option (List Token)} {answer : Bool}
    (h : Closes setting listed answer cursor) :
    Answers setting (listed.bind setting.afterGreater?) answer cursor := by
  rcases h with h | ⟨tokens, closing, behind, rfl, -, hbehind, hanswer, hhere, -⟩
  · exact .inl h
  · exact .inr ⟨behind, hbehind, hanswer, hhere⟩

theorem closeList_finds (hbegins : setting.Begins token tokens)
    (h : setting.Behind cursor token tokens) :
    Finds setting reader cursor (closeList token) (Closes setting (some tokens)) := by
  have hopens : Finds setting reader cursor (opensGreater token) fun answer after =>
      answer = decide (tokens ≠ [] ∧ token.kind.startsWithGreater = true) ∧ after = cursor :=
    .read_bind (.pure ⟨by rw [decide_eq_decide]; exact opensGreater_iff hbegins, rfl⟩)
  refine hopens.bind ?_
  rintro answer after ⟨rfl, rfl⟩
  cases tokens with
  | nil => exact .pure (.inl ⟨rfl, rfl⟩)
  | cons first rest =>
      obtain rfl := hbegins.eq_head
      have hbehind := hbegins.reads.afterGreater?
      cases hgreater : token.kind.startsWithGreater with
      | false =>
          rw [hgreater] at hbehind
          exact .pure (.inl ⟨hbehind, rfl⟩)
      | true =>
          rw [hgreater, if_pos rfl] at hbehind
          simp only [ne_eq, reduceCtorEq, not_false_eq_true, and_self, decide_true, ↓reduceIte]
          by_cases hlength : token.span.length = 1
          · simp only [hlength, not_true_eq_false, ↓reduceIte]
            have hstop : token.span.start + 1 = token.span.stop := by
              rw [Span.length] at hlength
              omega
            have hposition : after.position = token.span.start + 1 :=
              (h.position (List.cons_ne_nil _ _)).trans hstop.symm
            exact .pure (.inr ⟨_, token, _, rfl, hbegins, hbehind, rfl,
              ⟨h.sound, by rw [hposition]⟩, hposition⟩)
          · simp only [hlength, not_false_eq_true, ↓reduceIte]
            refine (jump_finds _).bind ?_
            rintro - last ⟨hlast, hposition⟩
            exact .pure (.inr ⟨_, token, _, rfl, hbegins, hbehind, rfl, hlast, hposition⟩)

/-- The tokens behind a template argument with its suffixes. -/
def behindArgument (setting : Setting) (inner : Token → Scan Unit) (tokens : List Token) :
    Option (List Token) :=
  let named := behindScopes setting tokens
  let name := named.headD setting.finish
  if name.isTypeName then
    ((inner name setting).run named.tail).bind fun seen => skipArgumentSuffixes? seen.2
  else none

/-- The check finds what the scan finds. -/
def Checks (setting : Setting) (reader : Reader) (check : Look Bool) (scan : Scan Unit) : Prop :=
  ∀ ⦃tokens : List Token⦄ ⦃cursor : RememberingCursor⦄, setting.Here cursor tokens →
    Finds setting reader cursor check
      (Answers setting (((scan setting).run tokens).map (·.2)))

variable {checkType : Token → Look Bool} {inner : Token → Scan Unit} {bound : Nat}

theorem checkArgument_finds (hclosed : setting.Closed) (hbound : setting.source.size < bound)
    (hinner : ∀ name, Checks setting reader (checkType name) (inner name))
    (h : setting.Here cursor tokens) :
    Finds setting reader cursor (checkArgument bound checkType)
      (Answers? setting (behindArgument setting inner tokens)) := by
  have hlength {tokens : List Token} {cursor : RememberingCursor} (h : setting.Here cursor tokens) :
      tokens.length < bound :=
    Nat.lt_of_le_of_lt h.reads.length_le hbound
  refine (next_finds h).bind ?_
  rintro start afterStart ⟨hstart, hafterStart⟩
  refine (past_finds hclosed .const hstart hafterStart).bind ?_
  rintro qualified afterQualified ⟨hqualified, hafterQualified⟩
  refine (past_finds hclosed .scope hqualified hafterQualified).bind ?_
  rintro first afterFirst ⟨hfirst, hafterFirst⟩
  refine (next_finds hafterFirst).bind ?_
  rintro second afterSecond ⟨hsecond, hafterSecond⟩
  refine (skipNames_finds hfirst hsecond hafterSecond
    (Nat.lt_of_le_of_lt hfirst.reads.length_le hbound)).bind ?_
  rintro ⟨name, other⟩ afterNames ⟨hname, hother, -⟩
  refine (rewind_finds hother).bind ?_
  rintro - afterName hafterName
  have halike := hname.alike hclosed
  unfold behindArgument
  change setting.Begins name (behindScopes setting tokens) at hname
  change setting.Here afterName (behindScopes setting tokens).tail at hafterName
  change ((behindScopes setting tokens).headD setting.finish).Alike name at halike
  generalize behindScopes setting tokens = named at hname hafterName halike
  dsimp only
  rw [halike.isTypeName]
  cases htype : (named.headD setting.finish).isTypeName with
  | false => exact .pure (.inl ⟨rfl, rfl⟩)
  | true =>
      simp only [↓reduceIte]
      obtain ⟨first, rest, rfl⟩ : ∃ first rest, named = first :: rest := by
        cases named with
        | nil =>
            obtain ⟨offset, hfinish⟩ := hclosed
            rw [List.headD_nil, hfinish] at htype
            cases htype
        | cons first rest => exact ⟨first, rest, rfl⟩
      obtain rfl := hname.eq_head
      rw [List.headD_cons]
      refine (hinner name hafterName).bind ?_
      rintro answer afterList (⟨hnone, rfl⟩ | ⟨behind, hbehind, rfl, hafterList⟩)
      · rw [Option.map_eq_none_iff.mp hnone]
        exact .pure (.inl ⟨rfl, rfl⟩)
      · obtain ⟨seen, hseen, rfl⟩ := Option.map_eq_some_iff.mp hbehind
        rw [hseen, Option.bind_some]
        refine (next_behind hafterList).bind ?_
        rintro suffix afterSuffix ⟨hsuffix, hafterSuffix⟩
        exact argumentSuffixes_finds hsuffix hafterSuffix (hlength hafterList)

theorem templateArgument_eq (inner : Token → Scan Unit) (setting : Setting) (tokens : List Token) :
    (templateArgument inner setting).run tokens =
      (behindArgument setting inner tokens).map fun behind =>
        if (behind.headD setting.finish).kind = .comma then (true, behind.tail)
        else (false, behind) := by
  rw [templateArgument_run]
  unfold behindArgument
  dsimp only
  split
  · rw [Option.map_bind]
    rfl
  · rfl

/-- By the rounds of the scan: each round of the check is one of them. -/
theorem checkArguments_finds (hclosed : setting.Closed) (hbound : setting.source.size < bound)
    (hinner : ∀ name, Checks setting reader (checkType name) (inner name))
    (hrounds : Scan.Rounds (templateArgument inner))
    {result : Option (Unit × List Token)}
    (hrepeats : Scan.Repeats (templateArgument inner) setting tokens result) {count : Nat}
    (hcount : byteCount tokens < count) (h : setting.Here cursor tokens) :
    Finds setting reader cursor (checkArguments bound checkType count)
      (Closes setting (result.map (·.2))) := by
  obtain ⟨count, rfl⟩ := Nat.exists_eq_add_one_of_ne_zero (Nat.ne_zero_of_lt hcount)
  have hround := checkArgument_finds hclosed hbound hinner h
  induction hrepeats generalizing count cursor with
  | last hbody =>
      rw [templateArgument_eq] at hbody
      obtain ⟨behind, hbehind, hlast⟩ := Option.map_eq_some_iff.mp hbody
      rw [hbehind] at hround
      refine hround.bind ?_
      rintro answer after (⟨hnone, -⟩ | ⟨tokens, token, hsome, rfl, hbegins, hafter⟩)
      · cases hnone
      cases hsome
      dsimp only
      rw [(hbegins.alike hclosed).kind]
      split at hlast
      · cases hlast
      · cases hlast
        rename_i hcomma
        rw [if_neg hcomma]
        exact closeList_finds hbegins hafter
  | failed hbody =>
      rw [templateArgument_eq, Option.map_eq_none_iff] at hbody
      rw [hbody] at hround
      refine hround.bind ?_
      rintro answer after (⟨-, rfl⟩ | ⟨tokens, token, hsome, -⟩)
      · exact .pure (.inl ⟨rfl, rfl⟩)
      · cases hsome
  | again hbody hrest ih =>
      have hpasses := hrounds setting _ _ hclosed.ended hbody
      have hshorter := h.reads.orderly.byteCount_lt hpasses
      rw [templateArgument_eq] at hbody
      obtain ⟨behind, hbehind, hagain⟩ := Option.map_eq_some_iff.mp hbody
      rw [hbehind] at hround
      refine hround.bind ?_
      rintro answer after (⟨hnone, -⟩ | ⟨tokens, token, hsome, rfl, hbegins, hafter⟩)
      · cases hnone
      cases hsome
      dsimp only
      rw [(hbegins.alike hclosed).kind]
      split at hagain
      · cases hagain
        rename_i hcomma
        rw [if_pos hcomma]
        obtain ⟨count, rfl⟩ := Nat.exists_eq_add_one_of_ne_zero (show count ≠ 0 by omega)
        exact ih hafter.toHere count (by omega)
          (checkArgument_finds hclosed hbound hinner hafter.toHere)
      · cases hagain

theorem Finds.nested {look : Look Bool} {post : Bool → RememberingCursor → Prop}
    (h : Finds setting { reader with depth := reader.depth + 1 } cursor look post) :
    Finds setting reader cursor (nested look) post := by
  obtain ⟨value, after, hrun, hvalue⟩ := h
  refine ⟨value, after, ?_, hvalue⟩
  change look setting { reader.moved cursor with depth := reader.depth + 1 } = _ at hrun
  unfold Look.nested
  change ((look setting { reader.moved cursor with depth := reader.depth + 1 }).1,
    { (look setting { reader.moved cursor with depth := reader.depth + 1 }).2 with
      depth := (look setting { reader.moved cursor with depth := reader.depth + 1 }).2.depth - 1 }) = _
  rw [hrun]
  rfl

theorem Finds.get_bind {rest : Reader → Look β} {post : β → RememberingCursor → Prop}
    (h : Finds setting reader cursor (rest (reader.moved cursor)) post) :
    Finds setting reader cursor (get >>= rest) post :=
  h

theorem checkList_plain (hclosed : setting.Closed) {name : Token}
    (hplain : setting.listsArguments name tokens = false) (arguments : Look Bool)
    (h : setting.Here cursor tokens) :
    Finds setting reader cursor (checkList arguments name) fun answer after =>
      answer = true ∧ setting.Here after tokens := by
  unfold checkList
  refine .read_bind ?_
  cases htemplate : setting.isTemplateName name with
  | false => exact .pure ⟨rfl, h⟩
  | true =>
      simp only [↓reduceIte]
      refine (next_finds h).bind ?_
      rintro opening after ⟨hbegins, hafter⟩
      have hless : opening.kind ≠ .less := by
        simpa [Setting.listsArguments, htemplate, (hbegins.alike hclosed).kind] using hplain
      rw [if_neg hless]
      refine (rewind_finds hbegins).bind ?_
      rintro - last hlast
      exact .pure ⟨rfl, hlast⟩

theorem checkList_lists (hclosed : setting.Closed) {name : Token}
    (hlists : setting.listsArguments name tokens = true) {arguments : Look Bool}
    {post : Bool → RememberingCursor → Prop} (h : setting.Here cursor tokens)
    (hdeep : ∀ after, setting.options.maxDepth ≤ reader.depth → post false after)
    (hpost : ∀ after, reader.depth < setting.options.maxDepth → setting.Here after tokens.tail →
      Finds setting { reader with depth := reader.depth + 1 } after arguments post) :
    Finds setting reader cursor (checkList arguments name) post := by
  unfold Setting.listsArguments at hlists
  rw [Bool.and_eq_true, decide_eq_true_iff] at hlists
  unfold checkList
  refine .read_bind ?_
  rw [hlists.1, if_pos rfl]
  refine (next_finds h).bind ?_
  rintro opening after ⟨hbegins, hafter⟩
  rw [if_pos ((hbegins.alike hclosed).kind.trans hlists.2)]
  refine .read_bind (.get_bind ?_)
  split
  · rename_i hle
    exact .pure (hdeep after hle)
  · rename_i hle
    exact (hpost after (Nat.lt_of_not_le hle) hafter).nested

/-- A list is checked up to the first byte of the token that closes it. -/
theorem checkTemplateType_closes (hclosed : setting.Closed) (hbound : setting.source.size < bound)
    {room levels : Nat} {name : Token} (hlists : setting.listsArguments name tokens = true)
    (hdepth : reader.depth < setting.options.maxDepth)
    (hinner : ∀ name, Checks setting { reader with depth := reader.depth + 1 }
      (checkTemplateType bound levels name) (templateList room name))
    (h : setting.Here cursor tokens) :
    Finds setting reader cursor (checkTemplateType bound (levels + 1) name)
      (Closes setting (((Scan.repeatUpTo (byteCount tokens.tail + 1)
        (templateArgument (templateList room)) setting).run tokens.tail).map (·.2))) := by
  unfold checkTemplateType
  refine checkList_lists hclosed hlists h (fun after hle => absurd hdepth (Nat.not_lt.mpr hle)) ?_
  intro after hlt hafter
  have hrounds := Scan.rounds_templateArgument room
  have hrepeats : Scan.Repeats _ setting tokens.tail ((Scan.repeatUpTo
      (byteCount tokens.tail + 1) (templateArgument (templateList room)) setting).run _) :=
    Scan.repeatScan_repeats hrounds hclosed.ended hafter.reads
  have hcount := Nat.lt_of_le_of_lt hafter.reads.byteCount_le hbound
  exact checkArguments_finds hclosed hbound hinner hrounds hrepeats hcount hafter

/-- By induction on the room: an inner list has one level less of it. -/
theorem checkTemplateType_finds (hclosed : setting.Closed) (hbound : setting.source.size < bound)
    {room levels : Nat} (hlevels : room ≤ levels)
    (hroom : room = setting.options.maxDepth - reader.depth) (name : Token) :
    Checks setting reader (checkTemplateType bound levels name) (templateList room name) := by
  intro tokens cursor h
  induction room generalizing reader levels name tokens cursor with
  | zero =>
      obtain ⟨arguments, hcheck⟩ :
          ∃ arguments, checkTemplateType bound levels = checkList arguments := by
        cases levels <;> exact ⟨_, rfl⟩
      rw [hcheck]
      cases hlists : setting.listsArguments name tokens with
      | false =>
          rw [templateList_plain hlists]
          refine (checkList_plain hclosed hlists _ h).mono ?_
          rintro answer after ⟨rfl, hafter⟩
          exact .inr ⟨tokens, rfl, rfl, hafter⟩
      | true =>
          rw [templateList_zero hlists]
          exact checkList_lists hclosed hlists h (fun after hle => .inl ⟨rfl, rfl⟩)
            fun after hlt hafter => by omega
  | succ room ih =>
      obtain ⟨levels, rfl⟩ := Nat.exists_eq_add_one_of_ne_zero (show levels ≠ 0 by omega)
      cases hlists : setting.listsArguments name tokens with
      | false =>
          rw [templateList_plain hlists]
          refine (checkList_plain hclosed hlists _ h).mono ?_
          rintro answer after ⟨rfl, hafter⟩
          exact .inr ⟨tokens, rfl, rfl, hafter⟩
      | true =>
          rw [templateList_succ hlists, Option.map_bind]
          have hinner (name : Token) : Checks setting { reader with depth := reader.depth + 1 }
              (checkTemplateType bound levels name) (templateList room name) :=
            ih (by omega) (show room = setting.options.maxDepth - (reader.depth + 1) by omega) name
          refine (checkTemplateType_closes hclosed hbound hlists (by omega) hinner h).mono ?_
          intro answer last hcloses
          have hanswer := hcloses.answers
          simpa [Function.comp_def, Option.bind_map] using hanswer

end Look

end Grammar

end ScriptSyntax
