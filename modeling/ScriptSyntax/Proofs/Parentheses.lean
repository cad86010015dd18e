import ScriptSyntax.Proofs.Comparison.Declaration
import ScriptSyntax.Proofs.Comparison.Invariant
import ScriptSyntax.Proofs.Continuation

/-!
# Groups in parentheses

A function has its parameters in the first parentheses behind where it starts, and a list of them
that is read without an error is closed where a count of parentheses closes it.  So a function whose
first group is not closed is never read without an error.
-/

namespace ScriptSyntax.Grammar

theorem skipGroup?_other {token : Token} {rest : List Token} {level : Nat}
    (hopen : token.kind ≠ .openParen) (hclose : token.kind ≠ .closeParen) :
    skipGroup? level (token :: rest) = skipGroup? level rest := by
  rw [skipGroup?.eq_def]
  dsimp only
  split <;> simp_all

/-- Past the first group in parentheses. -/
def firstGroup? (tokens : List Token) : Option (List Token) :=
  skipGroup? 0 (tokens.dropWhile (·.kind ≠ .openParen)).tail

theorem firstGroup?_other {token : Token} {rest : List Token} (hopen : token.kind ≠ .openParen) :
    firstGroup? (token :: rest) = firstGroup? rest := by
  unfold firstGroup?
  rw [List.dropWhile_cons_of_pos (by simpa using hopen)]

theorem firstGroup?_openParen {token : Token} {rest : List Token} (hopen : token.kind = .openParen) :
    firstGroup? (token :: rest) = skipGroup? 0 rest := by
  unfold firstGroup?
  rw [List.dropWhile_cons_of_neg (by simpa using hopen), List.tail_cons]

/-- What is read off tokens of which only the parentheses matter. -/
def Blind {σ : Type} (f : List Token → σ) : Prop :=
  ∀ token rest, token.kind ≠ .openParen → token.kind ≠ .closeParen → f (token :: rest) = f rest

theorem blind_firstGroup? : Blind firstGroup? :=
  fun _ _ hopen _ => firstGroup?_other hopen

theorem blind_skipGroup? : Blind fun tokens level => skipGroup? level tokens :=
  fun _ _ hopen hclose => funext fun _ => skipGroup?_other hopen hclose

namespace Blind

variable {σ α β : Type} {f : List Token → σ} {setting : Setting} {tokens rest : List Token}
  {token : Token}

theorem append (h : Blind f) {passed : List Token}
    (hpassed : ∀ token ∈ passed, token.kind ≠ .openParen ∧ token.kind ≠ .closeParen) :
    f (passed ++ rest) = f rest := by
  induction passed with
  | nil => rfl
  | cons token passed ih =>
      obtain ⟨hopen, hclose⟩ := hpassed token List.mem_cons_self
      rw [List.cons_append, h token _ hopen hclose]
      exact ih fun other hmem => hpassed other (List.mem_cons_of_mem _ hmem)

/-- Reading anew behind the first byte of an operator leaves the parentheses as they are. -/
theorem afterGreater? (h : Blind f) {next : List Token} (hreads : setting.Reads tokens)
    (hgreater : setting.afterGreater? tokens = some next) : f next = f tokens := by
  obtain ⟨token, rest, rfl, hkind, rfl⟩ := hreads.of_afterGreater? hgreater
  obtain ⟨offset, hoffset⟩ := hreads
  obtain ⟨freshAngles, staleAngles, common, hsynced⟩ :=
    Source.resynced_of_startsWithGreater hoffset.symm hkind
  have hangle {token : Token} (h : token.kind.isAngle = true) :
      token.kind ≠ .openParen ∧ token.kind ≠ .closeParen := by
    refine ⟨?_, ?_⟩ <;>
    · intro hparen
      rw [hparen] at h
      cases h
  have hparen : token.kind ≠ .openParen ∧ token.kind ≠ .closeParen := by
    refine ⟨?_, ?_⟩ <;>
    · intro hparen
      rw [hparen] at hkind
      cases hkind
  rw [h token rest hparen.1 hparen.2, hsynced.fresh_eq, hsynced.stale_eq,
    h.append fun other hmem => hangle (hsynced.freshAngle other hmem),
    h.append fun other hmem => hangle (hsynced.staleAngle other hmem)]

theorem tail (h : Blind f) {kind : TokenKind} (hkind : (tokens.headD setting.finish).kind = kind)
    (hopen : kind ≠ .openParen) (hclose : kind ≠ .closeParen) : f tokens.tail = f tokens := by
  cases tokens with
  | nil => rfl
  | cons token rest =>
      subst hkind
      exact (h token rest hopen hclose).symm

theorem skipScopes (h : Blind f) (tokens : List Token) : f (skipScopes tokens) = f tokens := by
  fun_induction Grammar.skipScopes tokens with
  | case1 name separator rest hscope ih =>
      obtain ⟨hname, hseparator⟩ := hscope
      rw [ih, h name _ (by simp [hname]) (by simp [hname]),
        h separator _ (by simp [hseparator]) (by simp [hseparator])]
  | case2 => rfl
  | case3 => rfl

theorem skipArgumentSuffixes? (h : Blind f) (hskip : skipArgumentSuffixes? tokens = some rest) :
    f rest = f tokens := by
  fun_induction Grammar.skipArgumentSuffixes? tokens with
  | case1 =>
      cases hskip
      rfl
  | case2 token behind hkind ih => rw [ih hskip, h token _ (by simp [hkind]) (by simp [hkind])]
  | case3 token close behind hkind hclose ih =>
      rw [ih hskip, h token _ (by simp [hkind]) (by simp [hkind]),
        h close _ (by simp [hclose]) (by simp [hclose])]
  | case4 => cases hskip
  | case5 => cases hskip
  | case6 =>
      cases hskip
      rfl

theorem skipSuffixes? (h : Blind f) (hskip : skipSuffixes? tokens = some rest) :
    f rest = f tokens := by
  fun_induction Grammar.skipSuffixes? tokens with
  | case1 =>
      cases hskip
      rfl
  | case2 token qualifier behind hkind hconst ih =>
      rw [ih hskip, h token _ (by simp [hkind]) (by simp [hkind]),
        h qualifier _ (by simp [hconst]) (by simp [hconst])]
  | case3 token qualifier behind hkind hconst ih =>
      rw [ih hskip, h token _ (by simp [hkind]) (by simp [hkind])]
  | case4 token hkind =>
      cases hskip
      rw [h token _ (by simp [hkind]) (by simp [hkind])]
  | case5 token behind hkind ih => rw [ih hskip, h token _ (by simp [hkind]) (by simp [hkind])]
  | case6 token close behind hkind hclose ih =>
      rw [ih hskip, h token _ (by simp [hkind]) (by simp [hkind]),
        h close _ (by simp [hclose]) (by simp [hclose])]
  | case7 => cases hskip
  | case8 => cases hskip
  | case9 =>
      cases hskip
      rfl

/-! ## Scans -/

/-- The scan passes no parenthesis. -/
def Skims (f : List Token → σ) (setting : Setting) (scan : Scan α) : Prop :=
  ∀ tokens value rest, setting.Reads tokens → (scan setting).run tokens = some (value, rest) →
    f rest = f tokens ∧ setting.Reads rest

theorem Skims.bind {scan : Scan α} {next : α → Scan β} (hscan : Skims f setting scan)
    (hnext : ∀ value, Skims f setting (next value)) : Skims f setting (scan >>= next) := by
  intro tokens value rest hreads hrun
  rw [Scan.bind_run] at hrun
  obtain ⟨⟨first, middle⟩, hfirst, hlast⟩ := Option.bind_eq_some_iff.mp hrun
  obtain ⟨hmiddle, hreading⟩ := hscan _ _ _ hreads hfirst
  obtain ⟨hrest, hlasting⟩ := hnext first _ _ _ hreading hlast
  exact ⟨hrest.trans hmiddle, hlasting⟩

theorem skims_pure (value : α) : Skims f setting (pure value : Scan α) := by
  rintro tokens _ _ hreads ⟨⟩
  exact ⟨rfl, hreads⟩

theorem Skims.ite {condition : Prop} [Decidable condition] {yes no : Scan α}
    (hyes : Skims f setting yes) (hno : Skims f setting no) :
    Skims f setting (if condition then yes else no) := by
  split
  · exact hyes
  · exact hno

theorem skims_peek {next : Token → Scan α} (hnext : ∀ token, Skims f setting (next token)) :
    Skims f setting (Scan.peek >>= next) := by
  intro tokens value rest hreads hrun
  rw [Scan.peek_bind] at hrun
  exact hnext _ _ _ _ hreads hrun

/-- What follows the next token, where it fails if that token is a parenthesis. -/
theorem skims_next (h : Blind f) {next : Token → Scan α}
    (hnext : ∀ token, Skims f setting (next token))
    (hfails : ∀ token tokens, token.kind = .openParen ∨ token.kind = .closeParen →
      (next token setting).run tokens = none) : Skims f setting (Scan.next >>= next) := by
  intro tokens value rest hreads hrun
  rw [Scan.next_bind] at hrun
  by_cases hparen : (tokens.headD setting.finish).kind = .openParen ∨
      (tokens.headD setting.finish).kind = .closeParen
  · rw [hfails _ _ hparen] at hrun
    cases hrun
  · rw [not_or] at hparen
    obtain ⟨hrest, hreading⟩ := hnext _ _ _ _ hreads.tail hrun
    exact ⟨hrest.trans (h.tail rfl hparen.1 hparen.2), hreading⟩

theorem skims_skipIf (h : Blind f) {test : Token → Bool} (htest : ∀ token, test token = true →
    token.kind ≠ .openParen ∧ token.kind ≠ .closeParen) : Skims f setting (Scan.skipIf test) := by
  intro tokens value rest hreads hrun
  rw [Scan.skipIf_run] at hrun
  cases hrun
  split
  · rename_i hhead
    obtain ⟨hopen, hclose⟩ := htest _ hhead
    exact ⟨h.tail rfl hopen hclose, hreads.tail⟩
  · exact ⟨rfl, hreads⟩

theorem skims_skipKind (h : Blind f) {kind : TokenKind} (hopen : kind ≠ .openParen)
    (hclose : kind ≠ .closeParen) : Skims f setting (Scan.skipKind kind) := by
  refine skims_skipIf h fun token htoken => ?_
  rw [of_decide_eq_true htoken]
  exact ⟨hopen, hclose⟩

theorem skims_require (h : Blind f) {kind : TokenKind} (hopen : kind ≠ .openParen)
    (hclose : kind ≠ .closeParen) : Skims f setting (Scan.require kind) := by
  intro tokens value rest hreads hrun
  rw [Scan.require_run] at hrun
  split at hrun
  · rename_i hkind
    cases hrun
    exact ⟨h.tail hkind hopen hclose, hreads.tail⟩
  · cases hrun

theorem skims_requireIdentifier (h : Blind f) : Skims f setting Scan.requireIdentifier := by
  intro tokens value rest hreads hrun
  rw [Scan.requireIdentifier_run] at hrun
  split at hrun
  · rename_i hname
    have hkind : (tokens.headD setting.finish).kind = .identifier := by
      simpa [TokenKind.isIdentifier] using hname
    cases hrun
    exact ⟨h.tail hkind (by simp) (by simp), hreads.tail⟩
  · cases hrun

theorem skims_update {change : List Token → Option (List Token)}
    (hchange : ∀ {tokens rest}, setting.Reads tokens → change tokens = some rest →
      f rest = f tokens ∧ setting.Reads rest) : Skims f setting (Scan.update change) := by
  intro tokens value rest hreads hrun
  rw [Scan.update_run] at hrun
  obtain ⟨next, hnext, hend⟩ := Option.map_eq_some_iff.mp hrun
  cases hend
  exact hchange hreads hnext

theorem skims_skipSuffixes? (h : Blind f) :
    Skims f setting (Scan.update Grammar.skipSuffixes?) :=
  skims_update fun hreads hskip => ⟨h.skipSuffixes? hskip, hreads.suffix (Parse.skipSuffixes?_suffix hskip)⟩

theorem skims_modify_skipScopes (h : Blind f) :
    Skims f setting (modify Grammar.skipScopes : Scan PUnit) := by
  rintro tokens _ _ hreads ⟨⟩
  exact ⟨h.skipScopes tokens, hreads.suffix (skipScopes_suffix tokens)⟩

theorem skims_repeatUpTo {body : Scan Bool} (hbody : Skims f setting body) (count : Nat) :
    Skims f setting (Scan.repeatUpTo count body) := by
  induction count with
  | zero => exact skims_pure ()
  | succ count ih => exact hbody.bind fun _ => Skims.ite ih (skims_pure ())

theorem isTypeName_of_parenthesis {token : Token}
    (h : token.kind = .openParen ∨ token.kind = .closeParen) : token.isTypeName = false := by
  unfold Token.isTypeName
  rcases h with hkind | hkind <;>
  · rw [hkind]
    rfl

theorem skims_templateArgument (h : Blind f) {list : Token → Scan Unit}
    (hlist : ∀ name, Skims f setting (list name)) :
    Skims f setting (templateArgument list) := by
  refine (skims_skipKind h (by simp) (by simp)).bind fun _ =>
    (skims_skipKind h (by simp) (by simp)).bind fun _ =>
    (skims_modify_skipScopes h).bind fun _ => skims_next h (fun name => ?_) ?_
  · refine Skims.ite (by rintro _ _ _ _ ⟨⟩) ?_
    refine (hlist name).bind fun _ => Skims.bind (skims_update fun hreads hskip => ?_) fun _ => ?_
    · exact ⟨h.skipArgumentSuffixes? hskip, hreads.suffix (skipArgumentSuffixes?_suffix hskip)⟩
    · intro tokens value rest hreads hrun
      rw [Scan.peek_bind] at hrun
      split at hrun
      · rename_i hcomma
        cases hrun
        exact ⟨h.tail hcomma (by simp) (by simp), hreads.tail⟩
      · cases hrun
        exact ⟨rfl, hreads⟩
  · intro name tokens hparen
    simp only [isTypeName_of_parenthesis hparen, Bool.not_false, ↓reduceIte]
    rfl

theorem skims_templateList (h : Blind f) (room : Nat) (name : Token) :
    Skims f setting (templateList room name) := by
  induction room generalizing name with
  | zero =>
      intro tokens value rest hreads hrun
      cases hlists : setting.listsArguments name tokens with
      | true =>
          rw [templateList_zero hlists] at hrun
          cases hrun
      | false =>
          rw [templateList_plain hlists] at hrun
          cases hrun
          exact ⟨rfl, hreads⟩
  | succ room ih =>
      intro tokens value rest hreads hrun
      cases hlists : setting.listsArguments name tokens with
      | true =>
          rw [templateList_succ hlists] at hrun
          obtain ⟨⟨_, listed⟩, hlisted, hclosing⟩ := Option.bind_eq_some_iff.mp hrun
          obtain ⟨behind, hbehind, hend⟩ := Option.map_eq_some_iff.mp hclosing
          cases hend
          have hless : (tokens.headD setting.finish).kind = .less := by
            unfold Setting.listsArguments at hlists
            simp only [Bool.and_eq_true, decide_eq_true_eq] at hlists
            exact hlists.2
          have htail : f tokens.tail = f tokens := h.tail hless (by simp) (by simp)
          obtain ⟨hmiddle, hreading⟩ := skims_repeatUpTo (skims_templateArgument h ih) _ _ _ _
            hreads.tail hlisted
          refine ⟨?_, hreading.step (.inr hbehind)⟩
          rw [h.afterGreater? hreading hbehind, hmiddle, htail]
      | false =>
          rw [templateList_plain hlists] at hrun
          cases hrun
          exact ⟨rfl, hreads⟩

theorem skims_leadingScope (h : Blind f) (room : Nat) :
    Skims f setting (Scan.leadingScope room) := by
  intro tokens value rest hreads hrun
  rw [Scan.leadingScope_run] at hrun
  dsimp only at hrun
  split at hrun
  case isFalse =>
    cases hrun
    exact ⟨rfl, hreads⟩
  rename_i hname
  have hkind : (tokens.headD setting.finish).kind = .identifier := by
    simpa [TokenKind.isIdentifier] using hname
  have htail : f tokens.tail = f tokens := h.tail hkind (by simp) (by simp)
  split at hrun
  · rename_i hscope
    cases hrun
    exact ⟨(h.tail hscope (by simp) (by simp)).trans htail, hreads.tail.tail⟩
  split at hrun
  · rename_i seen hseen
    cases hrun
    have hlist : Skims f setting (do
        templateList room (tokens.headD setting.finish)
        Scan.require .scope) :=
      (skims_templateList h room _).bind fun _ => skims_require h (by simp) (by simp)
    obtain ⟨hrest, hreading⟩ := hlist _ _ _ hreads.tail hseen
    exact ⟨hrest.trans htail, hreading⟩
  · cases hrun
    exact ⟨rfl, hreads⟩

/-- A scoped name, and what follows it where it fails if that name is a parenthesis. -/
theorem skims_scopedName (h : Blind f) (room : Nat) {next : Token → Scan α}
    (hnext : ∀ token, Skims f setting (next token))
    (hfails : ∀ token tokens, token.kind = .openParen ∨ token.kind = .closeParen →
      (next token setting).run tokens = none) :
    Skims f setting (do
      let name ← scopedName room (byteCount (← get) + 1)
      next name) := by
  intro tokens value rest hreads hrun
  rw [Scan.get_bind, Scan.bind_run, Scan.scopedName_run, Scan.bind_run, Option.bind_assoc] at hrun
  have hscopes : Skims f setting
      (Scan.repeatUpTo (byteCount tokens + 1) (Scan.leadingScope room) >>= fun _ =>
        Scan.next >>= next) :=
    (skims_repeatUpTo (skims_leadingScope h room) _).bind fun _ => skims_next h hnext hfails
  exact hscopes tokens value rest hreads hrun

theorem skims_typeAhead (h : Blind f) (room : Nat) : Skims f setting (typeAhead room) := by
  refine (skims_skipKind h (by simp) (by simp)).bind fun _ => skims_peek fun token => ?_
  have hnamed (name : Token) : Skims f setting (do
      if !(name.isTypeName || name.kind = .keyword .auto) then failure
      templateList room name
      Scan.update Grammar.skipSuffixes?) := by
    refine Skims.ite (by rintro _ _ _ _ ⟨⟩) ?_
    exact (skims_templateList h room name).bind fun _ => skims_skipSuffixes? h
  have hfails (name : Token) (tokens : List Token)
      (hparen : name.kind = .openParen ∨ name.kind = .closeParen) :
      ((do
        if !(name.isTypeName || name.kind = .keyword .auto) then failure
        templateList room name
        Scan.update Grammar.skipSuffixes? : Scan Unit) setting).run tokens = none := by
    have hauto : name.kind ≠ .keyword .auto := by
      rcases hparen with hkind | hkind <;> simp [hkind]
    simp only [isTypeName_of_parenthesis hparen, hauto, decide_false, Bool.or_self, Bool.not_false,
      ↓reduceIte]
    rfl
  refine Skims.ite (skims_next h hnamed hfails) ?_
  exact (skims_skipKind h (by simp) (by simp)).bind fun _ => skims_scopedName h room hnamed hfails

theorem skims_declaratorAhead (h : Blind f) (room : Nat) :
    Skims f setting (Continuation.declaratorAhead room) := by
  refine (skims_skipIf h fun token hmodifier => ?_).bind fun _ => (skims_typeAhead h room).bind
    fun _ => skims_requireIdentifier h
  simp only [Token.isAccessModifier, Bool.or_eq_true, decide_eq_true_eq] at hmodifier
  rcases hmodifier with hkind | hkind <;> simp [hkind]

/-! ## Rules -/

/-- That what is read off the tokens ahead stays as it is, until an error is reported. -/
def invariant (h : Blind f) (hended : setting.Ended) (hwhole : setting.Whole) (found : σ) :
    Invariant where
  setting := setting
  holds _ session := setting.Reads session.ahead ∧ f session.ahead = found
  strict := True
  passes kind := kind ≠ .openParen ∧ kind ≠ .closeParen
  ended := hended
  whole := hwhole
  reads hholds := hholds.1
  pass _ hholds hkind := ⟨hholds.1.tail, (h.tail rfl hkind.1 hkind.2).trans hholds.2⟩
  note _ hholds _ := hholds
  label hholds := hholds
  greater hholds hgreater :=
    ⟨hholds.1.step (.inr hgreater), (h.afterGreater? hholds.1 hgreater).trans hholds.2⟩
  opened _ hholds := hholds
  closed _ _ hafter := hafter
  report _ hstrict := absurd trivial hstrict

variable {h : Blind f} {hended : setting.Ended} {hwhole : setting.Whole} {found : σ}

instance readsTypes : (h.invariant hended hwhole found).comparison.ReadsTypes := by
  refine Invariant.readsTypes fun {kind} hkind => ⟨?_, ?_⟩ <;>
  · rintro rfl
    cases hkind

end Blind

open Parse Comparison

theorem skipGroup?_step {opened inner : List Bracket} {token : Token}
    (h : Capture.argumentStep opened token.kind = .more inner) (level : Nat) (rest : List Token) :
    skipGroup? (level + opened.count .paren) (token :: rest) =
      skipGroup? (level + inner.count .paren) rest := by
  have hother (hopen : token.kind ≠ .openParen) (hclose : token.kind ≠ .closeParen)
      (hsame : inner.count .paren = opened.count .paren) :
      skipGroup? (level + opened.count .paren) (token :: rest) =
        skipGroup? (level + inner.count .paren) rest := by
    rw [skipGroup?_other hopen hclose, hsame]
  unfold Capture.argumentStep at h
  split at h <;> cases h
  case h_1 hkind =>
      rw [skipGroup?.eq_def]
      simp only [hkind, List.count_cons_self]
      rfl
  case h_3 hkind =>
      rw [skipGroup?.eq_def]
      simp only [hkind, List.count_cons_self]
      rfl
  case h_11 hopen _ _ _ _ hparen hempty hbrace _ _ =>
      refine hother hopen (fun hclose => ?_) rfl
      rcases inner with _ | ⟨_ | _, outer⟩
      · exact hempty hclose rfl
      · exact hparen outer hclose rfl
      · exact hbrace outer hclose rfl
  all_goals
    rename_i hkind
    exact hother (by simp [hkind]) (by simp [hkind]) (by simp)

/-- A default argument that is captured whole leaves the groups around it as they are. -/
theorem skipGroup?_argument {opened : List Bracket} {tokens : List Token}
    (h : (Capture.argument opened tokens).ending = .complete) (level : Nat) :
    skipGroup? (level + opened.count .paren) tokens =
      skipGroup? level (Capture.argument opened tokens).rest := by
  rw [Capture.argument_eq_walk] at h ⊢
  induction tokens generalizing opened with
  | nil => cases h
  | cons token rest ih =>
      rw [Capture.walk] at h ⊢
      cases hstep : Capture.argumentStep opened token.kind with
      | complete =>
          have hopened : opened = [] := by
            unfold Capture.argumentStep at hstep
            split at hstep <;> first | rfl | cases hstep
          subst hopened
          rfl
      | fault message =>
          rw [hstep] at h
          cases h
      | last => exact absurd hstep (Capture.argumentStep_ne_last _ _)
      | more inner =>
          rw [hstep] at h
          rw [skipGroup?_step hstep]
          exact ih h

section

variable {setting : Setting} {s : Session}

/-- Default arguments leave the group around them as it is. -/
theorem Blind.defaultArgument_keeps (hended : setting.Ended) (hwhole : setting.Whole)
    (found : Nat → Option (List Token)) :
    (blind_skipGroup?.invariant hended hwhole found).comparison.Keeps defaultArgument := by
  apply Keeps.node
  constructor
  rintro n _ s ⟨rfl, ⟨hreads, hfound⟩, hquiet⟩
  rw [ahead_bind, ahead_bind]
  by_cases hending : (Capture.argument [] s.ahead).ending = .complete
  · rw [capture_run, capture_run, hending]
    have hrest : (Capture.argument [] s.ahead).rest <:+ s.ahead :=
      ⟨_, Capture.argument_append [] s.ahead⟩
    have hgroup (level : Nat) : skipGroup? level (Capture.argument [] s.ahead).rest = found level := by
      rw [← skipGroup?_argument hending level]
      exact congrFun hfound level
    exact .ok ⟨rfl, ⟨hreads.suffix hrest, funext hgroup⟩, hquiet⟩
  · exact .of_faults (not_not_intro trivial) (capture_faulty hending .expression s.ahead setting s)

/-- The first group of what looks like a function is the one behind its name. -/
theorem firstGroup?_of_unclosed {room : Nat} {tokens : List Token} (hreads : setting.Reads tokens)
    (h : Continuation.Unclosed room setting tokens) : firstGroup? tokens = none := by
  obtain ⟨paren, rest, hrun, hparen, hgroup⟩ := h
  obtain ⟨hfirst, -⟩ := Blind.skims_declaratorAhead blind_firstGroup? room _ _ _ hreads hrun
  rw [← hfirst, firstGroup?_openParen hparen, hgroup]

theorem Invariant.faults_of_never {α : Type} {I : Invariant} {n : I.comparison.Frame}
    {result : Except Interruption α × Session} (hstrict : I.strict)
    (h : I.comparison.Ends n (fun _ _ _ _ => False) result result) : result.2.faults ≠ [] := by
  cases h with
  | lost hlost => exact hlost.2
  | ok hfalse => exact hfalse.elim
  | error hlenient => exact absurd hstrict hlenient

theorem expects_faults (setting : Setting) (message : Message) (session : Session) :
    (setting.expects message session).faults ≠ [] :=
  List.ne_nil_of_length_pos (Nat.lt_of_le_of_lt (Nat.zero_le _)
    (faults_lt_reports setting (.insteadFound (setting.head session))
      (setting.reports .error message session)))

theorem node_faults {kind : NodeKind} {rule : Parse Unit} :
    (node kind rule setting s).2.faults = (rule setting (s.opened kind)).2.faults := rfl

/-- A list of parameters that is read without an error is a group in parentheses. -/
theorem parameterList_faults (hended : setting.Ended) (hwhole : setting.Whole) (room : Nat)
    (hreads : setting.Reads s.ahead) (hquiet : s.faults = [])
    (hgroup : firstGroup? s.ahead = none) : (parameterList room setting s).2.faults ≠ [] := by
  unfold parameterList
  rw [node_faults, coverRequired_eq, bind_run, nextIs_bind]
  have hsame : (setting.head (s.opened .parameterList)).kind = (setting.head s).kind := rfl
  rw [hsame]
  by_cases hhead : (setting.head s).kind = .openParen
  case neg =>
    simp only [hhead, decide_false, Bool.false_eq_true, ↓reduceIte]
    exact expects_faults _ _ _
  simp only [hhead, decide_true, ↓reduceIte]
  let I := blind_skipGroup?.invariant hended hwhole fun level => skipGroup? level s.ahead.tail
  have hunclosed : skipGroup? 0 s.ahead.tail = none := by
    rw [hended.ahead_cons (by simp [hhead])] at hgroup
    rwa [firstGroup?_openParen hhead] at hgroup
  have hclosed {n : I.comparison.Frame} {t t' : Session} (h : I.comparison.agree n t t') :
      (setting.head t).kind ≠ .closeParen := by
    intro hkind
    obtain ⟨-, ⟨-, hfound⟩, -⟩ := h
    have hnone : skipGroup? 0 t.ahead = none := (congrFun hfound 0).trans hunclosed
    rw [hended.ahead_cons (by simp [hkind]), skipGroup?.eq_def] at hnone
    simp [hkind] at hnone
  have hpasses {kind : TokenKind} (hopen : kind ≠ .openParen) (hclose : kind ≠ .closeParen) :
      I.comparison.passes kind := ⟨hopen, hclose⟩
  have hparameter : I.comparison.Keeps (parameter room) :=
    parameter_keeps room (hpasses (by simp) (by simp)) (Blind.defaultArgument_keeps hended hwhole _)
  have hlist {n : I.comparison.Frame} {t t' : Session} (h : I.comparison.agree n t t') :
      I.comparison.Ends n (fun _ _ _ _ => False)
        ((do
          commaSeparated (parameter room)
          if ← nextIs .closeParen then cover
          else failExpected (.expectedEitherKind .closeParen .comma)) setting t)
        ((do
          commaSeparated (parameter room)
          if ← nextIs .closeParen then cover
          else failExpected (.expectedEitherKind .closeParen .comma)) setting t') := by
    refine (commaSeparated_keeps hparameter (hpasses (by simp) (by simp))).bind h ?_
    intro listed listed' hlisted
    apply ifNext_ends hlisted
    · exact fun hkind => absurd hkind (hclosed hlisted)
    · exact fun _ => failExpected_ends hlisted _ (by simp [Message.expectedEitherKind])
  let base : I.comparison.Frame := (0 : Nat)
  have hopened : I.comparison.agree base (setting.passed .span (s.opened .parameterList))
      (setting.passed .span (s.opened .parameterList)) :=
    ⟨rfl, ⟨hreads.tail, rfl⟩, fun _ => hquiet⟩
  change Session.faults (Prod.snd ((nextIs .closeParen >>= _ : Parse Unit) setting
    (setting.passed .span (s.opened .parameterList)))) ≠ []
  rw [nextIs_bind, if_neg (by simpa using hclosed hopened), nextIs_bind, peekSecond_bind]
  split
  · rename_i hvoid
    simp only [Bool.and_eq_true, decide_eq_true_eq] at hvoid
    have hskipped := (I.pass .none hopened.2.1 (hvoid.1 ▸ hpasses (by simp) (by simp)))
    exact absurd hvoid.2 (hclosed (n := base) ⟨rfl, hskipped, hopened.2.2⟩)
  · exact Invariant.faults_of_never trivial (hlist hopened)

/-- A function whose first group in parentheses is not closed is read with an error. -/
theorem globalFunction_faults (hended : setting.Ended) (hwhole : setting.Whole) (room : Nat)
    (hreads : setting.Reads s.ahead) (hquiet : s.faults = [])
    (hgroup : firstGroup? s.ahead = none) : (globalFunction room setting s).2.faults ≠ [] := by
  let I := blind_firstGroup?.invariant hended hwhole none
  let base : I.comparison.Frame := (0 : Nat)
  have hagree : I.comparison.agree base s s := ⟨rfl, ⟨hreads, hgroup⟩, fun _ => hquiet⟩
  refine Invariant.faults_of_never (I := I) (n := base) trivial ?_
  refine node_ends (by simp) hagree (fun hopened => ?_) fun _ _ _ _ _ hfalse => hfalse
  refine (names_keeps fun h => by rw [isWord_congr h, isWord_congr h]).bind hopened ?_
  intro shared shared' hshared
  refine (returnType_keeps room).bind hshared ?_
  intro typed typed' htyped
  refine reads_identifier.bind htyped ?_
  rintro named _ ⟨rfl, ⟨hnaming, hnone⟩, hnamed⟩
  refine .never (.of_lost ⟨trivial, ?_⟩)
  exact parameterList_faults hended hwhole room hnaming (hnamed trivial) hnone

end

end ScriptSyntax.Grammar
