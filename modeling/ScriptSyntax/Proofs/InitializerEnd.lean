import ScriptSyntax.Proofs.Braces
import ScriptSyntax.Proofs.Comparison.Invariant

/-!
# Where an initializer ends

An initializer that is parsed without an error goes on up to a semicolon or a closing brace that no
brace inside it matches.  The place does not move while the initializer is read: every rule passes
as many closing braces as opening ones, and semicolons only inside braces.
-/

namespace ScriptSyntax

namespace Node

/-- The span of the node, if it has one, stops at such a place. -/
def StopsAt (place : Nat → Prop) (node : Node) : Prop :=
  ∀ span, node.span = some span → place span.stop

variable {place : Nat → Prop} {node child : Node}

theorem stopsAt_empty (kind : NodeKind) : (empty kind).StopsAt place := by
  intro span hspan
  cases hspan

/-- A hull stops where one of its spans does. -/
theorem stop_hull {old new : Span} (hold : place old.stop) (hnew : place new.stop) :
    place (old.hull new).stop := by
  simp only [Span.hull]
  rcases Nat.le_total old.stop new.stop with hle | hle
  · rwa [Nat.max_eq_right hle]
  · rwa [Nat.max_eq_left hle]

theorem StopsAt.widen (h : node.StopsAt place) {span : Span} (hspan : place span.stop) :
    (node.widen span).StopsAt place :=
  span_of_widen (P := (place ·.stop)) h (fun _ => hspan) fun hold => stop_hull hold hspan

theorem StopsAt.imprinted (h : node.StopsAt place) {token : Token} (htoken : place token.span.stop)
    (imprint : Grammar.Imprint) : (node.imprinted token imprint).StopsAt place := by
  cases imprint with
  | none => exact h
  | span => exact h.widen htoken
  | anchor =>
      have hanchored : ({ node with token := some token.kind } : Node).StopsAt place := h
      exact hanchored.widen htoken

theorem StopsAt.append (h : node.StopsAt place) (hchild : child.StopsAt place) :
    (node.append child).StopsAt place :=
  span_of_append (P := (place ·.stop)) h hchild stop_hull

theorem StopsAt.widen_all (h : node.StopsAt place) {tokens : List Token}
    (htokens : ∀ token ∈ tokens, place token.span.stop) :
    (tokens.foldl (fun node token => node.widen token.span) node).StopsAt place := by
  induction tokens generalizing node with
  | nil => exact h
  | cons token rest ih =>
      refine ih (h.widen (htokens token List.mem_cons_self)) ?_
      exact fun other hmem => htokens other (List.mem_cons_of_mem _ hmem)

theorem StopsAt.mono {place' : Nat → Prop} (h : node.StopsAt place)
    (hplace : ∀ stop, place stop → place' stop) : node.StopsAt place' :=
  fun span hspan => hplace _ (h span hspan)

end Node

namespace Grammar

/-! ## The end of the text -/

/-- From the first semicolon or closing brace outside all blocks on, where `level` blocks are open.
If there is none, the number of blocks that are open at the end. -/
def textEnd : Nat → List Token → List Token × Nat
  | level, [] => ([], level)
  | level, token :: rest =>
      match token.kind, level with
      | .openBrace, level => textEnd (level + 1) rest
      | .closeBrace, 0 => (token :: rest, 0)
      | .closeBrace, level + 1 => textEnd level rest
      | .semicolon, 0 => (token :: rest, 0)
      | _, level => textEnd level rest

section TextEnd

variable {token : Token} {tokens rest : List Token} {level : Nat}

theorem textEnd_openBrace (h : token.kind = .openBrace) :
    textEnd level (token :: rest) = textEnd (level + 1) rest := by
  rw [textEnd.eq_def]
  simp only [h]

theorem textEnd_closeBrace (h : token.kind = .closeBrace) :
    textEnd (level + 1) (token :: rest) = textEnd level rest := by
  rw [textEnd.eq_def]
  simp only [h]

theorem textEnd_stop (h : token.kind = .semicolon ∨ token.kind = .closeBrace) :
    textEnd 0 (token :: rest) = (token :: rest, 0) := by
  rw [textEnd.eq_def]
  rcases h with h | h <;> simp only [h]

theorem textEnd_other (hopen : token.kind ≠ .openBrace) (hclose : token.kind ≠ .closeBrace)
    (hsemicolon : level = 0 → token.kind ≠ .semicolon) :
    textEnd level (token :: rest) = textEnd level rest := by
  rw [textEnd.eq_def]
  dsimp only
  split
  · contradiction
  · contradiction
  · contradiction
  · rename_i hkind
    exact absurd hkind (hsemicolon rfl)
  · rfl

theorem textEnd_plain (h : token.kind.isPlain = true) :
    textEnd level (token :: rest) = textEnd level rest := by
  have hother {kind : TokenKind} (hkind : kind.isPlain = false) : token.kind ≠ kind := by
    intro heq
    rw [heq, hkind] at h
    cases h
  exact textEnd_other (hother rfl) (hother rfl) fun _ => hother rfl

theorem textEnd_append {passed : List Token} (h : ∀ token ∈ passed, token.kind.isPlain = true) :
    textEnd level (passed ++ rest) = textEnd level rest := by
  induction passed with
  | nil => rfl
  | cons token passed ih =>
      rw [List.cons_append, textEnd_plain (h token List.mem_cons_self)]
      exact ih fun other hmem => h other (List.mem_cons_of_mem _ hmem)

/-- A block that is captured up to its closing brace lies before the end of the text around it. -/
theorem textEnd_group {outer : Nat}
    (h : (Capture.group .openBrace .closeBrace level tokens).ending = .complete) :
    textEnd (level + outer + 1) tokens =
      textEnd outer (Capture.group .openBrace .closeBrace level tokens).rest := by
  induction tokens generalizing level with
  | nil => cases h
  | cons token rest ih =>
      unfold Capture.group at h ⊢
      by_cases hopen : token.kind = .openBrace
      · rw [if_pos hopen] at h ⊢
        rw [textEnd_openBrace hopen, Capture.rest_take, ← ih h]
        congr 1
        omega
      rw [if_neg hopen] at h ⊢
      by_cases hclose : token.kind = .closeBrace
      · rw [if_pos hclose] at h ⊢
        rw [textEnd_closeBrace hclose]
        cases level with
        | zero => rw [Nat.zero_add, Capture.rest_take, Capture.rest_stop]
        | succ level =>
            rw [Capture.rest_take, ← ih h]
            congr 1
            omega
      rw [if_neg hclose] at h ⊢
      have hlevel : level + outer + 1 ≠ 0 := Nat.succ_ne_zero _
      rw [textEnd_other hopen hclose (fun heq => absurd heq hlevel)]
      by_cases hstring : token.kind = .unterminatedString
      · rw [if_pos hstring] at h
        cases h
      · rw [if_neg hstring] at h ⊢
        exact ih h

/-- What is captured of a group ends with the bracket that closes it. -/
theorem Capture.taken_group_of_complete {opening closing : TokenKind}
    (h : (Capture.group opening closing level tokens).ending = .complete) :
    ∃ passed last, (Capture.group opening closing level tokens).taken = passed ++ [last] ∧
      last.kind = closing := by
  fun_induction Capture.group opening closing level tokens with
  | case1 => cases h
  | case3 token rest hopen hclose => exact ⟨[], token, rfl, hclose⟩
  | case5 => cases h
  | case2 level token rest _ ih | case4 token rest _ _ level ih | case6 level token rest _ _ _ ih =>
      obtain ⟨passed, last, htaken, hkind⟩ := ih h
      exact ⟨token :: passed, last, by rw [taken_take, htaken, List.cons_append], hkind⟩

theorem Capture.taken_group_ne_nil
    (h : (Capture.group .openBrace .closeBrace level tokens).ending = .complete) :
    (Capture.group .openBrace .closeBrace level tokens).taken ≠ [] := by
  obtain ⟨passed, last, htaken, -⟩ := taken_group_of_complete h
  simp [htaken]

/-- A semicolon at the end of the tokens is reached with all blocks closed, or some block is open
there. -/
theorem textEnd_ne_of_semicolon {last : Token} (hlast : tokens.getLast? = some last)
    (hkind : last.kind = .semicolon) : textEnd level tokens ≠ ([], 0) := by
  induction tokens generalizing level with
  | nil => cases hlast
  | cons token rest ih =>
      by_cases hrest : rest = []
      · subst hrest
        rw [List.getLast?_singleton, Option.some.injEq] at hlast
        rw [hlast]
        cases level with
        | zero => simp [textEnd_stop (.inl hkind)]
        | succ level => simp [textEnd, hkind]
      have hmore (level : Nat) : textEnd level rest ≠ ([], 0) := by
        refine ih ?_
        rwa [List.getLast?_cons_of_ne_nil hrest] at hlast
      rw [textEnd.eq_def]
      dsimp only
      split
      · exact hmore _
      · simp
      · exact hmore _
      · simp
      · exact hmore _

end TextEnd

namespace Setting

variable {setting : Setting} {tokens ahead next rest : List Token} {token last : Token}
  {n stop : Nat}

/-- The tokens that end with a token that is no angle bracket still do where they are read anew. -/
theorem Reads.getLast?_of_leads (h : setting.Reads tokens) (hleads : setting.Leads tokens next)
    (hlast : next.getLast? = some last) (hangle : last.kind.isAngle = false) :
    tokens.getLast? = some last := by
  induction hleads with
  | refl => exact hlast
  | tail hbefore hstep ih =>
      refine ih ?_
      have hreads := h.leads hbefore
      rcases hstep with ⟨token, rfl⟩ | hgreater
      · rw [List.getLast?_cons, hlast]
        rfl
      · obtain ⟨token, rest, rfl, hkind, rfl⟩ := hreads.of_afterGreater? hgreater
        obtain ⟨offset, hoffset⟩ := hreads
        obtain ⟨freshAngles, staleAngles, common, hsynced⟩ :=
          Source.resynced_of_startsWithGreater hoffset.symm hkind
        rw [hsynced.fresh_eq] at hlast
        have hcommon : common ≠ [] := by
          rintro rfl
          rw [List.append_nil] at hlast
          rw [hsynced.freshAngle last (List.mem_of_getLast? hlast)] at hangle
          cases hangle
        have hsome := List.getLast?_eq_some_getLast hcommon
        rw [List.getLast?_append, hsome, Option.some_or] at hlast
        rw [hsynced.stale_eq, ← List.cons_append, List.getLast?_append, hsome, Option.some_or]
        exact hlast

theorem isPlain_of_isAngle {kind : TokenKind} (h : kind.isAngle = true) : kind.isPlain = true := by
  cases kind <;> simp_all [TokenKind.isAngle, TokenKind.startsWithGreater, TokenKind.isPlain]

/-- Reading anew behind the first byte of an operator leaves the end of the text where it is. -/
theorem Reads.textEnd_afterGreater (h : setting.Reads tokens)
    (hgreater : setting.afterGreater? tokens = some next) :
    textEnd n next = textEnd n tokens := by
  obtain ⟨token, rest, rfl, hkind, rfl⟩ := h.of_afterGreater? hgreater
  obtain ⟨offset, hoffset⟩ := h
  obtain ⟨freshAngles, staleAngles, common, hsynced⟩ :=
    Source.resynced_of_startsWithGreater hoffset.symm hkind
  have hangle : token.kind.isAngle = true := by
    unfold TokenKind.isAngle
    split <;> first | rfl | exact hkind
  rw [textEnd_plain (isPlain_of_isAngle hangle), hsynced.fresh_eq, hsynced.stale_eq,
    textEnd_append fun other hmem => isPlain_of_isAngle (hsynced.freshAngle other hmem),
    textEnd_append fun other hmem => isPlain_of_isAngle (hsynced.staleAngle other hmem)]

theorem vocabulary_mark : ∀ entry ∈ Lexeme.vocabulary, entry.2 = .comma ∨ entry.2 = .closeBrace →
    entry.1 = [','] ∨ entry.1 = ['}'] := by
  decide

/-- A comma and a closing brace are one byte long. -/
theorem Reads.stop_of_mark (h : setting.Reads (token :: rest))
    (hkind : token.kind = .comma ∨ token.kind = .closeBrace) :
    token.span.stop = token.span.start + 1 := by
  obtain ⟨⟨body, after, hholds⟩, -⟩ := h.cons
  have hvocabulary : token.kind.inVocabulary = true := by
    rcases hkind with hkind | hkind <;> rw [hkind] <;> rfl
  rw [hholds.stop]
  rcases vocabulary_mark _ (hholds.mem_vocabulary hvocabulary) hkind with hbody | hbody
  · change body = [','] at hbody
    rw [hbody]
    rfl
  · change body = ['}'] at hbody
    rw [hbody]
    rfl

/-! ## How far a node reaches -/

/-- A node that stops there does not reach over the tokens ahead, except over a next token that is
noted before it is passed.  Outside all braces, what ends an initializer is not noted. -/
inductive Limits (setting : Setting) (n : Nat) (ahead : List Token) (stop : Nat) : Prop
  | before (h : stop ≤ (ahead.headD setting.finish).span.start)
  | inside {token : Token} {rest : List Token} (hahead : ahead = token :: rest)
      (hstop : stop ≤ token.span.stop) (hgreater : token.kind.startsWithGreater = false)
      (hends : n = 0 → Capture.endsInitializer token.kind = false)

theorem Limits.le_stop (h : setting.Limits n (token :: rest) stop)
    (hreads : setting.Reads (token :: rest)) : stop ≤ token.span.stop := by
  cases h with
  | before h => exact Nat.le_trans h (Nat.le_of_lt hreads.start_lt_stop)
  | inside hahead hstop =>
      cases hahead
      exact hstop

theorem Limits.leads (hwhole : setting.Whole) (hreads : setting.Reads ahead)
    (h : setting.Limits n ahead stop) (hleads : setting.Leads ahead next) :
    setting.Limits n next stop := by
  rcases Relation.ReflTransGen.cases_head hleads with rfl | ⟨middle, hstep, hmore⟩
  · exact h
  have hlater := (hreads.step hstep).start_le hwhole hmore
  cases h with
  | before hstart =>
      have hmiddle := hreads.start_le hwhole (.single hstep)
      exact .before (by omega)
  | @inside token rest hahead hstop hgreater =>
      subst hahead
      rcases hstep with ⟨_, heq⟩ | hanew
      · cases heq
        have hbehind := le_start_of_tokensFrom hwhole hreads.stop_le_size
        rw [← hreads.cons.2] at hbehind
        exact .before (by omega)
      · rw [hreads.afterGreater?, hgreater] at hanew
        cases hanew

theorem Limits.behind (hwhole : setting.Whole) (hreads : setting.Reads (token :: rest))
    (hstop : stop ≤ token.span.stop) : setting.Limits n rest stop := by
  have hbehind := le_start_of_tokensFrom hwhole hreads.stop_le_size
  rw [← hreads.cons.2] at hbehind
  exact .before (by omega)

/-- Behind a token that is passed, all that stopped at it or before is out of reach. -/
theorem Limits.later (hwhole : setting.Whole) (hreads : setting.Reads (token :: rest))
    (hstop : stop ≤ token.span.stop) (hleads : setting.Leads rest next) :
    setting.Limits n next stop := by
  have hbehind : setting.Limits n rest stop := .behind hwhole hreads hstop
  exact hbehind.leads hwhole hreads.tail hleads

/-- A place at which a node may stop: tokens are read from it, and it limits those ahead. -/
structure Marks (setting : Setting) (tokens : List Token) (n : Nat) (ahead : List Token)
    (stop : Nat) : Prop where
  place : setting.Leads tokens (setting.source.tokensFrom stop)
  limit : setting.Limits n ahead stop

end Setting

/-- A session in an initializer that starts with the tokens. -/
structure InInitializer (setting : Setting) (tokens : List Token) (n : Nat) (session : Session) :
    Prop where
  reached : setting.Leads tokens session.ahead
  ending : textEnd n session.ahead = textEnd 0 tokens
  building : session.building.StopsAt (setting.Marks tokens n session.ahead)

namespace InInitializer

variable {setting : Setting} {tokens : List Token} {n m : Nat} {session : Session}

theorem reads (hreads : setting.Reads tokens) (h : InInitializer setting tokens n session) :
    setting.Reads session.ahead :=
  hreads.leads h.reached

/-- Going on behind the next token, which may leave an imprint. -/
theorem passed (hended : setting.Ended) (hwhole : setting.Whole) (hreads : setting.Reads tokens)
    (h : InInitializer setting tokens n session) (imprint : Imprint)
    (hkind : (setting.head session).kind ≠ .endOfSource)
    (hending : textEnd m session.ahead.tail = textEnd n session.ahead) :
    InInitializer setting tokens m (setting.passed imprint session) := by
  have hahead := hended.ahead_cons hkind
  have hsession := h.reads hreads
  rw [hahead] at hsession
  have hreached : setting.Leads tokens session.ahead.tail :=
    h.reached.trans (setting.leads_tail _)
  refine ⟨hreached, hending.trans h.ending, ?_⟩
  refine Node.StopsAt.imprinted (h.building.mono ?_) ?_ imprint
  · rintro stop ⟨hplace, hlimit⟩
    rw [hahead] at hlimit
    exact ⟨hplace, .behind hwhole hsession (hlimit.le_stop hsession)⟩
  · refine ⟨?_, .behind hwhole hsession (Nat.le_refl _)⟩
    rw [← hsession.cons.2]
    exact hreached

theorem enter (hended : setting.Ended) (hwhole : setting.Whole) (hreads : setting.Reads tokens)
    (h : InInitializer setting tokens n session) (imprint : Imprint)
    (hhead : (setting.head session).kind = .openBrace) :
    InInitializer setting tokens (n + 1) (setting.passed imprint session) := by
  have hend : (setting.head session).kind ≠ .endOfSource := by simp [hhead]
  refine h.passed hended hwhole hreads imprint hend ?_
  conv => rhs; rw [hended.ahead_cons hend, textEnd_openBrace hhead]

theorem leave (hended : setting.Ended) (hwhole : setting.Whole) (hreads : setting.Reads tokens)
    (h : InInitializer setting tokens (n + 1) session) (imprint : Imprint)
    (hhead : (setting.head session).kind = .closeBrace) :
    InInitializer setting tokens n (setting.passed imprint session) := by
  have hend : (setting.head session).kind ≠ .endOfSource := by simp [hhead]
  refine h.passed hended hwhole hreads imprint hend ?_
  conv => rhs; rw [hended.ahead_cons hend, textEnd_closeBrace hhead]

/-- The next token may be noted before it is passed. -/
theorem marks_head (hended : setting.Ended) (hreads : setting.Reads tokens)
    (h : InInitializer setting tokens n session)
    (hkind : (setting.head session).kind ≠ .endOfSource)
    (hgreater : (setting.head session).kind.startsWithGreater = false)
    (hends : n = 0 → Capture.endsInitializer (setting.head session).kind = false) :
    setting.Marks tokens n session.ahead (setting.head session).span.stop := by
  have hahead := hended.ahead_cons hkind
  have hsession := h.reads hreads
  rw [hahead] at hsession
  refine ⟨?_, .inside hahead (Nat.le_refl _) hgreater hends⟩
  rw [← hsession.cons.2]
  exact h.reached.trans (setting.leads_tail _)

theorem shortened (hwhole : setting.Whole) (hreads : setting.Reads tokens)
    (h : InInitializer setting tokens n session) {next : List Token}
    (hgreater : setting.afterGreater? session.ahead = some next) :
    InInitializer setting tokens n (setting.shortened next session) := by
  have hsession := h.reads hreads
  have hstep : setting.Leads session.ahead next := .single (.inr hgreater)
  have hreached := h.reached.trans hstep
  refine ⟨hreached, (hsession.textEnd_afterGreater hgreater).trans h.ending, ?_⟩
  refine Node.StopsAt.widen (h.building.mono ?_) ?_
  · rintro stop ⟨hplace, hlimit⟩
    exact ⟨hplace, hlimit.leads hwhole hsession hstep⟩
  · obtain ⟨token, rest, hahead, -, rfl⟩ := hsession.of_afterGreater? hgreater
    have hhead : setting.head session = token := Setting.head_cons hahead
    rw [hhead]
    rw [hahead] at hsession
    have hstart : token.span.start + 1 ≤ setting.source.size :=
      Nat.le_trans hsession.start_lt_stop hsession.stop_le_size
    exact ⟨hreached, .before (Setting.le_start_of_tokensFrom hwhole hstart)⟩

/-- An element that was left out in a list covers the mark behind it. -/
theorem slotted (hended : setting.Ended) (hreads : setting.Reads tokens)
    (h : InInitializer setting tokens (n + 1) session)
    (hhead : (setting.head session).kind = .comma ∨ (setting.head session).kind = .closeBrace) :
    InInitializer setting tokens (n + 1) (Comparison.slotted setting session) := by
  have hkind : (setting.head session).kind ≠ .endOfSource := by
    rcases hhead with hhead | hhead <;> simp [hhead]
  have hgreater : (setting.head session).kind.startsWithGreater = false := by
    rcases hhead with hhead | hhead <;> rw [hhead] <;> rfl
  have hmarks := h.marks_head hended hreads hkind hgreater (fun h => absurd h (Nat.succ_ne_zero n))
  have hsession := h.reads hreads
  rw [hended.ahead_cons hkind] at hsession
  rw [hsession.stop_of_mark hhead] at hmarks
  exact ⟨h.reached, h.ending, Node.StopsAt.widen h.building hmarks⟩

/-- A block that is captured to its end is passed as a whole. -/
theorem captured (hwhole : setting.Whole) (hreads : setting.Reads tokens)
    (h : InInitializer setting tokens (n + 1) session) {block : Capture}
    (hblock : block = Capture.group .openBrace .closeBrace 0 session.ahead)
    (hcomplete : block.ending = .complete) :
    InInitializer setting tokens n (Parse.captured block session) := by
  have hsession := h.reads hreads
  have hsplit : block.taken ++ block.rest = session.ahead :=
    hblock ▸ Capture.group_append _ _ 0 session.ahead
  have hleads := setting.leads_of_suffix (Parse.suffix_of_append hsplit)
  have hending : textEnd n block.rest = textEnd (n + 1) session.ahead := by
    subst hblock
    have hgroup : textEnd (0 + n + 1) session.ahead = _ := textEnd_group hcomplete
    rwa [Nat.zero_add, eq_comm] at hgroup
  refine ⟨h.reached.trans hleads, hending.trans h.ending, ?_⟩
  refine Node.StopsAt.widen_all (h.building.mono ?_) ?_
  · rintro stop ⟨hplace, hlimit⟩
    obtain ⟨token, rest, htaken⟩ : ∃ token rest, block.taken = token :: rest :=
      List.exists_cons_of_ne_nil (hblock ▸ Capture.taken_group_ne_nil (hblock ▸ hcomplete))
    rw [← hsplit, htaken, List.cons_append] at hlimit hsession
    exact ⟨hplace, .later hwhole hsession (hlimit.le_stop hsession)
      (setting.leads_of_suffix (List.suffix_append rest block.rest))⟩
  · intro token hmem
    obtain ⟨before, behind, htaken⟩ := List.append_of_mem hmem
    have hsuffix : token :: (behind ++ block.rest) <:+ session.ahead :=
      ⟨before, by rw [← hsplit, htaken]; simp⟩
    have hrest : setting.Reads (token :: (behind ++ block.rest)) := hsession.suffix hsuffix
    refine ⟨?_, .later hwhole hrest (Nat.le_refl _)
      (setting.leads_of_suffix (List.suffix_append behind block.rest))⟩
    rw [← hrest.cons.2]
    exact (h.reached.trans (setting.leads_of_suffix hsuffix)).trans (setting.leads_tail _)

end InInitializer

/-- That a session is in the initializer, as an invariant of runs that report no error. -/
def initializerInvariant (setting : Setting) (hended : setting.Ended) (hwhole : setting.Whole)
    (tokens : List Token) (hreads : setting.Reads tokens) : Invariant where
  setting := setting
  holds := InInitializer setting tokens
  strict := True
  passes kind := kind.isPlain = true
  ended := hended
  whole := hwhole
  reads h := h.reads hreads
  pass := by
    intro n s imprint h hkind
    have hend := Comparison.ne_end_of_isPlain hkind
    refine h.passed hended hwhole hreads imprint hend ?_
    conv => rhs; rw [hended.ahead_cons hend, textEnd_plain hkind]
  note := by
    intro n s imprint h hkind
    obtain ⟨hplain, hcomma, hgreater⟩ := hkind.resolve_left fun hlenient => hlenient trivial
    have hends : Capture.endsInitializer (setting.head s).kind = false := by
      unfold Capture.endsInitializer
      generalize (setting.head s).kind = kind at hplain hcomma
      simp only [Bool.or_eq_false_iff, decide_eq_false_iff_not]
      refine ⟨⟨hcomma, ?_⟩, ?_⟩ <;>
      · rintro rfl
        cases hplain
    exact ⟨h.reached, h.ending, h.building.imprinted (h.marks_head hended hreads
      (Comparison.ne_end_of_isPlain hplain) hgreater fun _ => hends) imprint⟩
  label h := ⟨h.reached, h.ending, h.building⟩
  greater h hgreater := h.shortened hwhole hreads hgreater
  opened kind h := ⟨h.reached, h.ending, Node.stopsAt_empty kind⟩
  closed := by
    intro n s kind after h hadvance hafter
    refine ⟨hafter.reached, hafter.ending, Node.StopsAt.append (h.building.mono ?_) hafter.building⟩
    rintro stop ⟨hplace, hlimit⟩
    exact ⟨hplace, hlimit.leads hwhole (h.reads hreads) hadvance.forward⟩
  report _ hlenient := absurd trivial hlenient

/-- The invariant of an initializer, with what the rules for expressions need. -/
def initializerValueInvariant (setting : Setting) (hended : setting.Ended) (hwhole : setting.Whole)
    (tokens : List Token) (hreads : setting.Reads tokens) : ValueInvariant where
  toInvariant := initializerInvariant setting hended hwhole tokens hreads
  plain h := h
  enter imprint h hhead := InInitializer.enter hended hwhole hreads h imprint hhead
  leave imprint h hhead := InInitializer.leave hended hwhole hreads h imprint hhead
  weaken hlenient := absurd trivial hlenient
  slot h hhead := InInitializer.slotted hended hreads h hhead
  warn h := ⟨h.reached, h.ending, h.building⟩
  capturedBlock := Invariant.capturedBlock_keeps
    (fun h hhead => InInitializer.enter hended hwhole hreads h .span hhead)
    (fun h hblock hcomplete => InInitializer.captured hwhole hreads h hblock hcomplete)
    (fun hlenient => absurd trivial hlenient)

/-- A value that is assigned without an error being reported ends in the initializer. -/
theorem assignedValue_inInitializer {setting : Setting} {tokens : List Token}
    {session after : Session} (hended : setting.Ended) (hwhole : setting.Whole)
    (hreads : setting.Reads tokens) (room : Nat) (h : InInitializer setting tokens 0 session)
    (hquiet : session.faults = [])
    (hrun : (Parse.assignedValue (valueRules room) setting session).2 = after)
    (hclean : after.faults = []) : InInitializer setting tokens 0 after := by
  let I := initializerValueInvariant setting hended hwhole tokens hreads
  let S := I.comparison
  have hagree : S.agree (0 : Nat) session session := ⟨rfl, h, fun _ => hquiet⟩
  have hrules : S.KeepsValues (valueRules room) := Comparison.valueRules_keeps room
  have hends : S.Ends (0 : Nat) (fun _ _ => S.agree (0 : Nat))
      (Parse.assignedValue (valueRules room) setting session)
      (Parse.assignedValue (valueRules room) setting session) :=
    (Comparison.assignedValue_keeps hrules).ends hagree
  generalize Parse.assignedValue (valueRules room) setting session = result at hends hrun
  subst hrun
  cases hends with
  | lost hlost => exact absurd hclean hlost.2
  | ok hpost => exact hpost.2.1
  | error hlenient => exact absurd trivial hlenient

/-- An initializer whose node stops before the semicolon at the end of the source ends there. -/
theorem InInitializer.ahead_of_stop {setting : Setting} {tokens : List Token} {session : Session}
    {stop : Nat} {span : Span} (hreads : setting.Reads tokens)
    (h : InInitializer setting tokens 0 session)
    (hends : (setting.head session).kind = .endOfSource ∨
      Capture.endsInitializer (setting.head session).kind = true)
    (hsource : setting.source.suffix? stop = some [';'])
    (hspan : session.building.span = some span) (hstop : span.stop = stop) :
    session.ahead = [⟨.semicolon, ⟨stop, stop + 1⟩, ";"⟩] ∧
      textEnd 0 tokens = ([⟨.semicolon, ⟨stop, stop + 1⟩, ";"⟩], 0) := by
  have hlast : setting.source.tokensFrom stop = [⟨.semicolon, ⟨stop, stop + 1⟩, ";"⟩] := by
    rw [Source.tokensFrom_of_suffix? hsource]
    rfl
  obtain ⟨hplace, hlimit⟩ := h.building span hspan
  rw [hstop] at hplace hlimit
  rw [hlast] at hplace
  have hsession := h.reads hreads
  have hahead : session.ahead = [⟨.semicolon, ⟨stop, stop + 1⟩, ";"⟩] := by
    cases htokens : session.ahead with
    | nil =>
        have hending := h.ending
        rw [htokens] at hending
        have hsemicolon := hreads.getLast?_of_leads hplace rfl rfl
        exact absurd hending.symm (textEnd_ne_of_semicolon hsemicolon rfl)
    | cons token rest =>
        have hhead : setting.head session = token := Setting.head_cons htokens
        rw [hhead] at hends
        rw [htokens] at hlimit hsession
        have hbefore : stop ≤ token.span.start := by
          cases hlimit with
          | before hstart => exact hstart
          | inside hahead hstop hgreater hinner =>
              cases hahead
              rcases hends with hend | hend
              · exact absurd hend hsession.ne_end
              · rw [hinner rfl] at hend
                cases hend
        have hsize := Source.suffix?_size_le hsource
        have hlt := hsession.start_lt_stop
        have hle := hsession.stop_le_size
        have hstart : token.span.start = stop := by
          have hsemicolon : Source.size [';'] = 1 := rfl
          omega
        obtain ⟨⟨body, after, hholds⟩, hrest⟩ := hsession.cons
        rw [hrest, ← hholds.tokensFrom_start, hstart, hlast]
  refine ⟨hahead, ?_⟩
  have hending := h.ending
  rw [hahead, textEnd_stop (.inl rfl)] at hending
  exact hending.symm

end Grammar

end ScriptSyntax
