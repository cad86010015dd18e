import Mathlib.Data.List.Basic
import ScriptSyntax.Proofs.Reading
import ScriptSyntax.Proofs.Separators
import ScriptSyntax.Proofs.Termination

/-!
# Text with more text behind it

A text that ends with a semicolon or a closing brace keeps its tokens when more text stands behind
it.  No scan for a type passes such a mark, so a scan that starts in the text does the same whatever
stands behind.  Only a group in parentheses may run out of the text, and then it is not closed in it.
-/

namespace ScriptSyntax

/-- The marks that a declaration may end with. -/
def TokenKind.endsDeclaration (kind : TokenKind) : Bool :=
  kind = .semicolon || kind = .closeBrace

theorem TokenKind.endsDeclaration_eq_false {kind : TokenKind} :
    kind.endsDeclaration = false ↔ kind ≠ .semicolon ∧ kind ≠ .closeBrace := by
  simp [endsDeclaration]

theorem TokenKind.goesOn_of_endsDeclaration {kind : TokenKind}
    (h : kind.endsDeclaration = true) : kind.goesOn = false := by
  simp only [endsDeclaration, Bool.or_eq_true, decide_eq_true_eq] at h
  rcases h with rfl | rfl <;> rfl

namespace Grammar

namespace Setting

variable {setting : Setting} {tokens next : List Token} {last : Token}

/-- Reading anew behind the first byte of an operator comes to the same last token, unless that is
an operator which is read anew. -/
theorem Reads.last_of_afterGreater? {last : Token} (h : setting.Reads tokens)
    (hgreater : setting.afterGreater? tokens = some next) (hlast : tokens.getLast? = some last)
    (hkind : last.kind.isAngle = false) : next.getLast? = some last := by
  obtain ⟨token, rest, rfl, hstarts, rfl⟩ := h.of_afterGreater? hgreater
  obtain ⟨offset, hoffset⟩ := h
  obtain ⟨fresh, stale, common, hsynced⟩ := Source.resynced_of_startsWithGreater hoffset.symm hstarts
  have hcommon : common ≠ [] := by
    rintro rfl
    have hangle : last.kind.isAngle = true := by
      rw [hsynced.stale_eq, List.append_nil] at hlast
      rcases List.mem_cons.mp (List.mem_of_getLast? hlast) with rfl | hmem
      · unfold TokenKind.isAngle
        split <;> simp_all
      · exact hsynced.staleAngle last hmem
    rw [hangle] at hkind
    cases hkind
  rw [hsynced.fresh_eq, List.getLast?_append_of_ne_nil _ hcommon]
  rwa [hsynced.stale_eq, ← List.cons_append, List.getLast?_append_of_ne_nil _ hcommon] at hlast

theorem Reads.last_or_isAngle {last : Token} (h : setting.Reads tokens)
    (hgreater : setting.afterGreater? tokens = some next) (hlast : next.getLast? = some last) :
    tokens.getLast? = some last ∨ last.kind.isAngle = true := by
  obtain ⟨token, rest, rfl, hstarts, rfl⟩ := h.of_afterGreater? hgreater
  obtain ⟨offset, hoffset⟩ := h
  obtain ⟨fresh, stale, common, hsynced⟩ := Source.resynced_of_startsWithGreater hoffset.symm hstarts
  rw [hsynced.fresh_eq] at hlast
  by_cases hcommon : common = []
  · rw [hcommon, List.append_nil] at hlast
    exact .inr (hsynced.freshAngle last (List.mem_of_getLast? hlast))
  · rw [List.getLast?_append_of_ne_nil _ hcommon] at hlast
    rw [hsynced.stale_eq, ← List.cons_append, List.getLast?_append_of_ne_nil _ hcommon]
    exact .inl hlast

end Setting

/-- The setting of a text, and that of the text with more behind it. -/
structure Continuation where
  left : Setting
  right : Setting
  separator : Char
  behind : Source
  isSeparator : Lexeme.IsSeparator separator
  source_eq : right.source = left.source ++ separator :: behind
  options_eq : right.options = left.options
  application_eq : right.application = left.application
  ended : left.Ended
  ended' : right.Ended
  whole : left.Whole

namespace Continuation

variable (K : Continuation)

/-- The tokens of what stands behind the text. -/
def more : List Token :=
  Source.tokensAt K.left.source.size (K.separator :: K.behind)

/-- Tokens that are read from the text up to its end, where a declaration may end. -/
structure Before (tokens : List Token) : Prop where
  reads : K.left.Reads tokens
  last : ∃ token, tokens.getLast? = some token ∧ token.kind.endsDeclaration = true ∧
    token.span.stop = K.left.source.size

variable {α β : Type} {K} {tokens rest : List Token} {token : Token}

open Parse

/-- The tokens of the text stand in front of those behind it, unless the last one goes on. -/
theorem tokensFrom_append {offset : Nat}
    (htoken : (K.left.source.tokensFrom offset).getLast? = some token)
    (hstop : token.span.stop = K.left.source.size) (hkind : token.kind.goesOn = false) :
    K.right.source.tokensFrom offset = K.left.source.tokensFrom offset ++ K.more := by
  cases hsuffix : K.left.source.suffix? offset with
  | none => simp [Source.tokensFrom, hsuffix] at htoken
  | some rest =>
      obtain ⟨before, hsplit, hsize⟩ := Source.suffix?_eq_some_iff.mp hsuffix
      have hcontinued : K.right.source.suffix? offset = some (rest ++ K.separator :: K.behind) :=
        Source.suffix?_eq_some_iff.mpr ⟨before, by rw [K.source_eq, hsplit, List.append_assoc], hsize⟩
      have htotal : offset + Source.size rest = K.left.source.size := by
        rw [hsplit, Source.size_append, hsize]
      rw [Source.tokensFrom_of_suffix? hsuffix] at htoken ⊢
      have htokens := @Source.tokensAt_append_of_last rest K.behind offset _ K.isSeparator
        (.inr ⟨token, htoken, hstop.trans htotal.symm, hkind⟩)
      rw [Source.tokensFrom_of_suffix? hcontinued, htokens, htotal]
      rfl

theorem tokensFrom_eq {offset : Nat} (h : K.Before (K.left.source.tokensFrom offset)) :
    K.right.source.tokensFrom offset = K.left.source.tokensFrom offset ++ K.more := by
  obtain ⟨token, htoken, hends, hstop⟩ := h.last
  exact tokensFrom_append htoken hstop (TokenKind.goesOn_of_endsDeclaration hends)

namespace Before

theorem ne_nil (h : K.Before tokens) : tokens ≠ [] := by
  rintro rfl
  obtain ⟨token, htoken, -⟩ := h.last
  cases htoken

theorem reads_right (h : K.Before tokens) : K.right.Reads (tokens ++ K.more) := by
  obtain ⟨offset, rfl⟩ := h.reads
  exact ⟨offset, (tokensFrom_eq h).symm⟩

theorem suffix (h : K.Before tokens) (hsuffix : rest <:+ tokens) (hne : rest ≠ []) :
    K.Before rest := by
  obtain ⟨last, hlast, hends⟩ := h.last
  refine ⟨h.reads.suffix hsuffix, last, ?_, hends⟩
  obtain ⟨passed, rfl⟩ := hsuffix
  rwa [List.getLast?_append_of_ne_nil _ hne] at hlast

/-- The last token is one that a declaration may end with. -/
theorem ends_of_singleton (h : K.Before [token]) : token.kind.endsDeclaration = true := by
  obtain ⟨last, hlast, hends, -⟩ := h.last
  cases hlast
  exact hends

theorem rest_ne_nil (h : K.Before (token :: rest)) (hkind : token.kind.endsDeclaration = false) :
    rest ≠ [] := by
  rintro rfl
  rw [h.ends_of_singleton] at hkind
  cases hkind

theorem of_cons (h : K.Before (token :: rest)) (hkind : token.kind.endsDeclaration = false) :
    K.Before rest :=
  h.suffix (List.suffix_cons _ _) (h.rest_ne_nil hkind)

theorem headD_eq (h : K.Before tokens) :
    (tokens ++ K.more).headD K.right.finish = tokens.headD K.left.finish := by
  obtain ⟨token, rest, rfl⟩ := List.exists_cons_of_ne_nil h.ne_nil
  rfl

theorem tail_eq (h : K.Before tokens) : (tokens ++ K.more).tail = tokens.tail ++ K.more := by
  obtain ⟨token, rest, rfl⟩ := List.exists_cons_of_ne_nil h.ne_nil
  rfl

theorem tail (h : K.Before tokens)
    (hkind : (tokens.headD K.left.finish).kind.endsDeclaration = false) : K.Before tokens.tail := by
  obtain ⟨token, rest, rfl⟩ := List.exists_cons_of_ne_nil h.ne_nil
  exact h.of_cons hkind

theorem head_ne_end (h : K.Before tokens) : (tokens.headD K.left.finish).kind ≠ .endOfSource := by
  obtain ⟨token, rest, rfl⟩ := List.exists_cons_of_ne_nil h.ne_nil
  exact h.reads.ne_end

/-- Reading anew behind the first byte of an operator comes to the same end. -/
theorem afterGreater? (h : K.Before tokens) :
    K.right.afterGreater? (tokens ++ K.more) =
        (K.left.afterGreater? tokens).map (· ++ K.more) ∧
      ∀ next, K.left.afterGreater? tokens = some next → K.Before next := by
  obtain ⟨token, rest, rfl⟩ := List.exists_cons_of_ne_nil h.ne_nil
  have hright := h.reads_right
  rw [List.cons_append] at hright ⊢
  rw [h.reads.afterGreater?, hright.afterGreater?]
  by_cases hkind : token.kind.startsWithGreater = true
  · have hnext : K.Before (K.left.source.tokensFrom (token.span.start + 1)) := by
      obtain ⟨last, hlast, hends, hstop⟩ := h.last
      have hangle : last.kind.isAngle = false := by
        simp only [TokenKind.endsDeclaration, Bool.or_eq_true, decide_eq_true_eq] at hends
        rcases hends with heq | heq <;>
        · rw [heq]
          rfl
      have hgreater : K.left.afterGreater? (token :: rest) =
          some (K.left.source.tokensFrom (token.span.start + 1)) := by
        rw [h.reads.afterGreater?, if_pos hkind]
      exact ⟨⟨_, rfl⟩, last, h.reads.last_of_afterGreater? hgreater hlast hangle, hends, hstop⟩
    rw [if_pos hkind, if_pos hkind]
    refine ⟨congrArg some (tokensFrom_eq hnext), ?_⟩
    intro next heq
    obtain rfl := Option.some.inj heq
    exact hnext
  · rw [if_neg hkind, if_neg hkind]
    exact ⟨rfl, by simp⟩

end Before

/-! ## Functions on tokens -/

theorem skipScopes_before (h : K.Before tokens) :
    skipScopes (tokens ++ K.more) = skipScopes tokens ++ K.more ∧ K.Before (skipScopes tokens) := by
  fun_induction skipScopes tokens with
  | case1 name separator behind hscope ih =>
      rw [List.cons_append, List.cons_append, skipScopes, if_pos hscope]
      obtain ⟨hname, hseparator⟩ := hscope
      have hrest := (h.of_cons (by rw [hname]; rfl)).of_cons (by rw [hseparator]; rfl)
      exact ih hrest
  | case2 name separator behind hscope =>
      rw [List.cons_append, List.cons_append, skipScopes, if_neg hscope]
      exact ⟨rfl, h⟩
  | case3 tokens hshort =>
      obtain ⟨token, rest, rfl⟩ := List.exists_cons_of_ne_nil h.ne_nil
      cases rest with
      | cons second rest => exact (hshort _ _ _ rfl).elim
      | nil =>
          have hkind : token.kind ≠ .identifier := by
            intro heq
            have hends := h.ends_of_singleton
            rw [heq] at hends
            cases hends
          refine ⟨?_, h⟩
          rw [List.singleton_append]
          unfold skipScopes
          split
          · rename_i heq
            obtain ⟨rfl, hmore⟩ := List.cons.inj heq
            rw [if_neg (mt And.left hkind), hmore]
          · rfl

theorem dropWhile_before {test : Token → Bool} (h : K.Before tokens)
    (htest : ∀ token, test token = true → token.kind.endsDeclaration = false) :
    (tokens ++ K.more).dropWhile test = tokens.dropWhile test ++ K.more ∧
      K.Before (tokens.dropWhile test) := by
  induction tokens with
  | nil => exact absurd rfl h.ne_nil
  | cons token rest ih =>
      rw [List.cons_append, List.dropWhile_cons, List.dropWhile_cons]
      split
      · rename_i hpassed
        exact ih (h.of_cons (htest token hpassed))
      · exact ⟨rfl, h⟩

/-- What a function that may fail answers about tokens of the text, and about the same tokens with
more behind them. -/
def Extends (K : Continuation) (found found' : Option (List Token)) : Prop :=
  found' = found.map (· ++ K.more) ∧ ∀ tokens, found = some tokens → K.Before tokens

theorem extends_none : K.Extends none none :=
  ⟨rfl, by simp⟩

theorem extends_some (h : K.Before tokens) : K.Extends (some tokens) (some (tokens ++ K.more)) := by
  refine ⟨rfl, ?_⟩
  rintro _ heq
  cases heq
  exact h

theorem skipArgumentSuffixes?_before (h : K.Before tokens) :
    K.Extends (skipArgumentSuffixes? tokens) (skipArgumentSuffixes? (tokens ++ K.more)) := by
  fun_induction skipArgumentSuffixes? tokens with
  | case1 => exact absurd rfl h.ne_nil
  | case2 token rest hkind ih =>
      rw [List.cons_append, skipArgumentSuffixes?_handle hkind]
      exact ih (h.of_cons (by rw [hkind]; rfl))
  | case3 token close rest hkind hclose ih =>
      rw [List.cons_append, List.cons_append, skipArgumentSuffixes?_openBracket hkind hclose]
      exact ih ((h.of_cons (by rw [hkind]; rfl)).of_cons (by rw [hclose]; rfl))
  | case4 token close rest hkind hclose =>
      rw [List.cons_append, List.cons_append, skipArgumentSuffixes?.eq_def]
      simp only [hkind, hclose, ↓reduceIte]
      exact extends_none
  | case5 token hkind => exact absurd rfl (h.rest_ne_nil (by rw [hkind]; rfl))
  | case6 token rest hhandle hclosed hopen =>
      have hbracket : token.kind ≠ .openBracket := by
        intro hkind
        cases rest with
        | nil => exact hopen hkind rfl
        | cons close rest => exact hclosed close rest hkind rfl
      rw [List.cons_append, skipArgumentSuffixes?_other hhandle hbracket]
      exact extends_some h

theorem skipSuffixes?_before (h : K.Before tokens) :
    K.Extends (skipSuffixes? tokens) (skipSuffixes? (tokens ++ K.more)) := by
  fun_induction skipSuffixes? tokens with
  | case1 => exact absurd rfl h.ne_nil
  | case2 token qualifier rest hkind hconst ih =>
      rw [List.cons_append, List.cons_append, skipSuffixes?_handle hkind]
      simp only [List.head?_cons, Option.any_some, hconst, decide_true, ↓reduceIte, List.tail_cons]
      exact ih ((h.of_cons (by rw [hkind]; rfl)).of_cons (by rw [hconst]; rfl))
  | case3 token qualifier rest hkind hconst ih =>
      rw [List.cons_append, List.cons_append, skipSuffixes?_handle hkind]
      simp only [List.head?_cons, Option.any_some, hconst, decide_false, Bool.false_eq_true, ↓reduceIte]
      exact ih (h.of_cons (by rw [hkind]; rfl))
  | case4 token hkind => exact absurd rfl (h.rest_ne_nil (by rw [hkind]; rfl))
  | case5 token rest hkind ih =>
      rw [List.cons_append, skipSuffixes?_ampersand hkind]
      exact ih (h.of_cons (by rw [hkind]; rfl))
  | case6 token close rest hkind hclose ih =>
      rw [List.cons_append, List.cons_append, skipSuffixes?_openBracket hkind]
      simp only [List.head?_cons, Option.map_some, hclose, ↓reduceIte, List.tail_cons]
      exact ih ((h.of_cons (by rw [hkind]; rfl)).of_cons (by rw [hclose]; rfl))
  | case7 token close rest hkind hclose =>
      rw [List.cons_append, List.cons_append, skipSuffixes?_openBracket hkind]
      simp only [List.head?_cons, Option.map_some, Option.some.injEq, hclose, ↓reduceIte]
      exact extends_none
  | case8 token hkind => exact absurd rfl (h.rest_ne_nil (by rw [hkind]; rfl))
  | case9 token rest hqualified hhandle hampersand hclosed hopen =>
      have hplain : token.kind ≠ .handle ∧ token.kind ≠ .openBracket := by
        refine ⟨fun hkind => ?_, fun hkind => ?_⟩
        · cases rest with
          | nil => exact hhandle hkind rfl
          | cons qualifier rest => exact hqualified qualifier rest hkind rfl
        · cases rest with
          | nil => exact hopen hkind rfl
          | cons close rest => exact hclosed close rest hkind rfl
      rw [List.cons_append, skipSuffixes?_other hplain.1 hampersand hplain.2]
      exact extends_some h

/-- A group that is closed in the text is closed at the same place whatever stands behind. -/
theorem skipGroup?_before {level : Nat} (hgroup : skipGroup? level tokens = some rest)
    (h : K.Before tokens) :
    skipGroup? level (tokens ++ K.more) = some (rest ++ K.more) ∧ K.Before rest := by
  induction tokens generalizing level with
  | nil => cases hgroup
  | cons token tokens ih =>
      have hbehind {level : Nat} (hgroup : skipGroup? level tokens = some rest) : K.Before tokens := by
        refine h.suffix (List.suffix_cons _ _) ?_
        rintro rfl
        cases hgroup
      rw [List.cons_append]
      unfold skipGroup? at hgroup ⊢
      split at hgroup
      · exact ih hgroup (hbehind hgroup)
      · rename_i hkind
        obtain rfl := Option.some.inj hgroup
        exact ⟨rfl, h.of_cons (by rw [hkind]; rfl)⟩
      · exact ih hgroup (hbehind hgroup)
      · exact ih hgroup (hbehind hgroup)

theorem namespaceOpening_before (h : K.Before tokens) :
    namespaceOpening tokens = [] ∧ namespaceOpening (tokens ++ K.more) = [] ∨
      K.Before (namespaceOpening tokens) ∧
        namespaceOpening (tokens ++ K.more) = namespaceOpening tokens ++ K.more := by
  obtain ⟨hskip, hskipped⟩ := skipScopes_before h
  unfold namespaceOpening
  rw [hskip]
  generalize skipScopes tokens = skipped at hskipped
  match skipped, hskipped with
  | [], hskipped => exact absurd rfl hskipped.ne_nil
  | [name], hskipped =>
      have hname : name.kind.isIdentifier = false := by
        have hends := hskipped.ends_of_singleton
        simp only [TokenKind.endsDeclaration, Bool.or_eq_true, decide_eq_true_eq] at hends
        rcases hends with heq | heq <;> simp [heq, TokenKind.isIdentifier]
      refine .inl ⟨rfl, ?_⟩
      rw [List.singleton_append]
      split
      · rename_i heq
        obtain ⟨rfl, -⟩ := List.cons.inj heq
        simp [hname]
      · rfl
  | name :: brace :: rest, hskipped =>
      rw [List.cons_append, List.cons_append]
      dsimp only
      split
      · rename_i hbrace
        simp only [Bool.and_eq_true, decide_eq_true_eq, TokenKind.isIdentifier] at hbrace
        exact .inr ⟨hskipped.of_cons (by rw [hbrace.1]; rfl), rfl⟩
      · exact .inl ⟨rfl, rfl⟩

/-! ## Scans -/

/-- What a scan answers about tokens of the text, and about the same tokens with more behind them:
the same, and it stops in the text. -/
inductive Kept (K : Continuation) :
    Option (α × List Token) → Option (α × List Token) → Prop
  | fails : Kept K none none
  | stops {value : α} {rest : List Token} (hrest : K.Before rest) :
      Kept K (some (value, rest)) (some (value, rest ++ K.more))

/-- The scan stops in the text, whatever stands behind. -/
def Stays (K : Continuation) (scan : Scan α) : Prop :=
  ∀ tokens, K.Before tokens →
    K.Kept ((scan K.left).run tokens) ((scan K.right).run (tokens ++ K.more))

theorem Kept.isSome {found found' : Option (α × List Token)} (h : K.Kept found found') :
    found'.isSome = found.isSome := by
  cases h <;> rfl

theorem Kept.bind {found found' : Option (α × List Token)}
    {next next' : α × List Token → Option (β × List Token)}
    (h : K.Kept found found')
    (hnext : ∀ value rest, found = some (value, rest) → K.Before rest →
      K.Kept (next (value, rest)) (next' (value, rest ++ K.more))) :
    K.Kept (found.bind next) (found'.bind next') := by
  cases h with
  | fails => exact .fails
  | stops hrest => exact hnext _ _ rfl hrest

theorem Stays.bind {scan : Scan α} {next : α → Scan β} (hscan : K.Stays scan)
    (hnext : ∀ value, K.Stays (next value)) : K.Stays (scan >>= next) := by
  intro tokens h
  rw [Scan.bind_run, Scan.bind_run]
  exact (hscan tokens h).bind fun value rest _ hrest => hnext value rest hrest

theorem stays_pure (value : α) : K.Stays (pure value : Scan α) :=
  fun _ h => .stops h

theorem stays_failure : K.Stays (failure : Scan α) :=
  fun _ _ => .fails

theorem Stays.ite {condition : Prop} [Decidable condition] {yes no : Scan α} (hyes : K.Stays yes)
    (hno : K.Stays no) : K.Stays (if condition then yes else no) := by
  split
  · exact hyes
  · exact hno

theorem stays_require {kind : TokenKind} (hkind : kind.endsDeclaration = false) :
    K.Stays (Scan.require kind) := by
  intro tokens h
  rw [Scan.require_run, Scan.require_run, h.headD_eq, h.tail_eq]
  split
  · rename_i hhead
    exact .stops (h.tail (by rw [hhead, hkind]))
  · exact .fails

theorem endsDeclaration_of_isIdentifier {kind : TokenKind} (h : kind.isIdentifier = true) :
    kind.endsDeclaration = false := by
  rw [show kind = .identifier by simpa [TokenKind.isIdentifier] using h]
  rfl

theorem stays_requireIdentifier : K.Stays Scan.requireIdentifier := by
  intro tokens h
  rw [Scan.requireIdentifier_run, Scan.requireIdentifier_run, h.headD_eq, h.tail_eq]
  split
  · rename_i hhead
    exact .stops (h.tail (endsDeclaration_of_isIdentifier hhead))
  · exact .fails

theorem stays_skipIf {test : Token → Bool}
    (htest : ∀ token, test token = true → token.kind.endsDeclaration = false) :
    K.Stays (Scan.skipIf test) := by
  intro tokens h
  rw [Scan.skipIf_run, Scan.skipIf_run, h.headD_eq, h.tail_eq]
  split
  · rename_i hhead
    exact .stops (h.tail (htest _ hhead))
  · exact .stops h

theorem stays_skipKind {kind : TokenKind} (hkind : kind.endsDeclaration = false) :
    K.Stays (Scan.skipKind kind) := by
  refine stays_skipIf fun token htoken => ?_
  rw [of_decide_eq_true htoken, hkind]

theorem stays_update {change : List Token → Option (List Token)}
    (hchange : ∀ {tokens}, K.Before tokens → K.Extends (change tokens) (change (tokens ++ K.more))) :
    K.Stays (Scan.update change) := by
  intro tokens h
  obtain ⟨hright, hbefore⟩ := hchange h
  rw [Scan.update_run, Scan.update_run, hright]
  cases hfound : change tokens with
  | none => exact .fails
  | some rest => exact .stops (hbefore rest hfound)

/-- What follows the next token, where it fails unless that token may be passed. -/
theorem stays_next {next : Token → Scan α}
    (hnext : ∀ token, token.kind.endsDeclaration = false → K.Stays (next token))
    (hfails : ∀ token setting tokens, token.kind.endsDeclaration = true →
      (next token setting).run tokens = none) : K.Stays (Scan.next >>= next) := by
  intro tokens h
  rw [Scan.next_bind, Scan.next_bind, h.headD_eq, h.tail_eq]
  cases hends : (tokens.headD K.left.finish).kind.endsDeclaration with
  | true =>
      rw [hfails _ _ _ hends, hfails _ _ _ hends]
      exact .fails
  | false => exact hnext _ hends _ (h.tail hends)

theorem stays_peek {next : Token → Scan α} (hnext : ∀ token, K.Stays (next token)) :
    K.Stays (Scan.peek >>= next) := by
  intro tokens h
  rw [Scan.peek_bind, Scan.peek_bind, h.headD_eq]
  exact hnext _ _ h

theorem Stays.ends {scan : Scan α} (hscan : K.Stays scan) (h : K.Before tokens) {value : α}
    (hrun : (scan K.left).run tokens = some (value, rest)) :
    (scan K.right).run (tokens ++ K.more) = some (value, rest ++ K.more) ∧ K.Before rest := by
  have hkept := hscan tokens h
  rw [hrun] at hkept
  generalize (scan K.right).run (tokens ++ K.more) = found' at hkept
  cases hkept with
  | stops hrest => exact ⟨rfl, hrest⟩

theorem Stays.fails {scan : Scan α} (hscan : K.Stays scan) (h : K.Before tokens)
    (hrun : (scan K.left).run tokens = none) : (scan K.right).run (tokens ++ K.more) = none := by
  have hkept := hscan tokens h
  rw [hrun] at hkept
  generalize (scan K.right).run (tokens ++ K.more) = found' at hkept
  cases hkept
  rfl

/-- Loops without a bound go the same rounds. -/
theorem repeats_kept {body : Scan Bool} (hbody : K.Stays body)
    {found found' : Option (Unit × List Token)} (h : K.Before tokens)
    (hleft : Scan.Repeats body K.left tokens found)
    (hright : Scan.Repeats body K.right (tokens ++ K.more) found') : K.Kept found found' := by
  induction hleft generalizing found' with
  | last hrun =>
      obtain ⟨hrun', hrest⟩ := hbody.ends h hrun
      cases hright with
      | last hround =>
          rw [hrun'] at hround
          cases hround
          exact .stops hrest
      | failed hround =>
          rw [hrun'] at hround
          cases hround
      | again hround =>
          rw [hrun'] at hround
          cases hround
  | failed hrun =>
      have hrun' := hbody.fails h hrun
      cases hright with
      | failed => exact .fails
      | last hround =>
          rw [hrun'] at hround
          cases hround
      | again hround =>
          rw [hrun'] at hround
          cases hround
  | again hrun _ ih =>
      obtain ⟨hrun', hrest⟩ := hbody.ends h hrun
      cases hright with
      | again hround hmore =>
          rw [hrun'] at hround
          cases hround
          exact ih hrest hmore
      | last hround =>
          rw [hrun'] at hround
          cases hround
      | failed hround =>
          rw [hrun'] at hround
          cases hround

theorem stays_repeatScan {body : Scan Bool} (hbody : K.Stays body) (hrounds : Scan.Rounds body) :
    K.Stays (Scan.repeatScan body) := fun _ h =>
  repeats_kept hbody h (Scan.repeatScan_repeats hrounds K.ended h.reads)
    (Scan.repeatScan_repeats hrounds K.ended' h.reads_right)

/-! ## Types -/

theorem endsDeclaration_of_isTypeName {token : Token} (h : token.isTypeName = true) :
    token.kind.endsDeclaration = false := by
  rw [TokenKind.endsDeclaration_eq_false]
  refine ⟨?_, ?_⟩ <;>
  · intro hkind
    unfold Token.isTypeName at h
    rw [hkind] at h
    cases h

theorem isTypeName_of_endsDeclaration {token : Token} (h : token.kind.endsDeclaration = true) :
    token.isTypeName = false := by
  cases hname : token.isTypeName with
  | false => rfl
  | true =>
      rw [endsDeclaration_of_isTypeName hname] at h
      cases h

theorem stays_modify {change : List Token → List Token}
    (hchange : ∀ {tokens}, K.Before tokens →
      change (tokens ++ K.more) = change tokens ++ K.more ∧ K.Before (change tokens)) :
    K.Stays (modify change : Scan PUnit) := by
  intro tokens h
  obtain ⟨hright, hbefore⟩ := hchange h
  change K.Kept (some (PUnit.unit, change tokens)) (some (PUnit.unit, change (tokens ++ K.more)))
  rw [hright]
  exact .stops hbefore

theorem stays_templateArgument {list : Token → Scan Unit} (hlist : ∀ name, K.Stays (list name)) :
    K.Stays (templateArgument list) := by
  refine (stays_skipKind rfl).bind fun _ => (stays_skipKind rfl).bind fun _ =>
    (stays_modify skipScopes_before).bind fun _ => stays_next (fun name hname => ?_) ?_
  · refine Stays.ite (fun _ _ => .fails) ?_
    refine (hlist name).bind fun _ => (stays_update skipArgumentSuffixes?_before).bind fun _ => ?_
    intro tokens h
    rw [Scan.peek_bind, Scan.peek_bind, h.headD_eq]
    split
    · rename_i hcomma
      rw [Scan.skip_bind, Scan.skip_bind, h.tail_eq]
      exact .stops (h.tail (by rw [hcomma]; rfl))
    · exact .stops h
  · intro name setting tokens hends
    simp only [isTypeName_of_endsDeclaration hends, Bool.not_false, ↓reduceIte]
    rfl

theorem isTemplateName_eq (token : Token) :
    K.right.isTemplateName token = K.left.isTemplateName token := by
  unfold Setting.isTemplateName
  rw [K.options_eq]

theorem stays_templateList (room : Nat) (name : Token) : K.Stays (templateList room name) := by
  induction room generalizing name with
  | zero =>
      intro tokens h
      rw [templateList, Scan.read_bind, Scan.read_bind, isTemplateName_eq]
      exact stays_peek (fun _ => Stays.ite stays_failure (stays_pure ())) _ h
  | succ room ih =>
      intro tokens h
      rw [templateList, Scan.read_bind, Scan.read_bind, isTemplateName_eq, Scan.peek_bind,
        Scan.peek_bind, h.headD_eq]
      split
      · rename_i hlist
        simp only [Bool.and_eq_true, decide_eq_true_eq] at hlist
        rw [Scan.skip_bind, Scan.skip_bind, h.tail_eq]
        have harguments : K.Stays (Scan.repeatScan (templateArgument (templateList room))) :=
          stays_repeatScan (stays_templateArgument ih) (Scan.rounds_templateArgument room)
        have htail := h.tail (by rw [hlist.2]; rfl)
        rw [Scan.bind_run, Scan.bind_run]
        refine (harguments _ htail).bind fun _ rest _ hrest => ?_
        dsimp only
        rw [Scan.read_bind, Scan.read_bind, Scan.update_run, Scan.update_run,
          hrest.afterGreater?.1]
        cases hbehind : K.left.afterGreater? rest with
        | none => exact .fails
        | some next => exact .stops (hrest.afterGreater?.2 next hbehind)
      · exact .stops h

theorem stays_leadingScope (room : Nat) : K.Stays (Scan.leadingScope room) := by
  intro tokens h
  rw [Scan.leadingScope_run, Scan.leadingScope_run]
  dsimp only
  rw [h.headD_eq, h.tail_eq]
  split
  · rename_i hname
    have htail := h.tail (endsDeclaration_of_isIdentifier hname)
    rw [htail.headD_eq, htail.tail_eq]
    split
    · rename_i hscope
      exact .stops (htail.tail (by rw [hscope]; rfl))
    · have hlist : K.Stays (do
          templateList room (tokens.headD K.left.finish)
          Scan.require .scope) :=
        (stays_templateList room _).bind fun _ => stays_require rfl
      have hkept := hlist _ htail
      generalize ((do
        templateList room (tokens.headD K.left.finish)
        Scan.require .scope : Scan Unit) K.left).run tokens.tail = found at hkept
      generalize ((do
        templateList room (tokens.headD K.left.finish)
        Scan.require .scope : Scan Unit) K.right).run (tokens.tail ++ K.more) = found' at hkept
      cases hkept with
      | fails => exact .stops h
      | stops hrest => exact .stops hrest
  · exact .stops h

/-- A scoped name, and what follows it where it fails unless that name may be passed. -/
theorem stays_scopedName (room : Nat) {next : Token → Scan α}
    (hnext : ∀ token, token.kind.endsDeclaration = false → K.Stays (next token))
    (hfails : ∀ token setting tokens, token.kind.endsDeclaration = true →
      (next token setting).run tokens = none) :
    K.Stays (do
      let name ← scopedName room (byteCount (← get) + 1)
      next name) := by
  have hrun (setting : Setting) (tokens : List Token) :
      ((do
        let name ← scopedName room (byteCount (← get) + 1)
        next name : Scan α) setting).run tokens =
        ((Scan.repeatScan (Scan.leadingScope room) >>= fun _ => Scan.next >>= next) setting).run
          tokens := by
    have hscopes := Scan.scopedName_run room (byteCount tokens + 1) setting tokens
    rw [Scan.get_bind, Scan.bind_run, hscopes, Scan.bind_run, Option.bind_assoc]
    rfl
  intro tokens h
  rw [hrun, hrun]
  have hscopes : K.Stays (Scan.repeatScan (Scan.leadingScope room)) :=
    stays_repeatScan (stays_leadingScope room) (Scan.rounds_leadingScope room)
  exact hscopes.bind (fun _ => stays_next hnext hfails) tokens h

theorem stays_typeAhead (room : Nat) : K.Stays (typeAhead room) := by
  refine (stays_skipKind rfl).bind fun _ => stays_peek fun token => ?_
  have hnamed (name : Token) : K.Stays (do
      if !(name.isTypeName || name.kind = .keyword .auto) then failure
      templateList room name
      Scan.update skipSuffixes?) := by
    refine Stays.ite (fun _ _ => .fails) ?_
    exact (stays_templateList room name).bind fun _ => stays_update skipSuffixes?_before
  have hfails (name : Token) (setting : Setting) (tokens : List Token)
      (hends : name.kind.endsDeclaration = true) :
      ((do
        if !(name.isTypeName || name.kind = .keyword .auto) then failure
        templateList room name
        Scan.update skipSuffixes? : Scan Unit) setting).run tokens = none := by
    have hauto : name.kind ≠ .keyword .auto := by
      intro hkind
      rw [hkind] at hends
      cases hends
    simp only [isTypeName_of_endsDeclaration hends, hauto, decide_false, Bool.or_self, Bool.not_false,
      ↓reduceIte]
    rfl
  refine Stays.ite (stays_next (fun name _ => hnamed name) hfails) ?_
  exact (stays_skipKind rfl).bind fun _ => stays_scopedName room (fun name _ => hnamed name) hfails

theorem stays_templateScopeAhead (room : Nat) : K.Stays (templateScopeAhead room) := by
  refine stays_next (fun name _ => ?_) ?_
  · intro tokens h
    rw [Scan.read_bind, Scan.read_bind, isTemplateName_eq]
    refine stays_peek (fun token => Stays.ite (fun _ _ => .fails) ?_) tokens h
    exact (stays_templateList room name).bind fun _ => stays_require rfl
  · intro name setting tokens hends
    have hname : setting.isTemplateName name = false := by
      unfold Setting.isTemplateName
      cases hkind : name.kind.isIdentifier with
      | false => rfl
      | true =>
          rw [endsDeclaration_of_isIdentifier hkind] at hends
          cases hends
    rw [Scan.read_bind, Scan.peek_bind]
    simp only [hname, Bool.false_and, Bool.not_false, ↓reduceIte]
    rfl

/-- Whether a scope comes first is seen in the text. -/
theorem scopeAhead_isSome_eq (room : Nat) (h : K.Before tokens) :
    ((scopeAhead room K.right).run (tokens ++ K.more)).isSome =
      ((scopeAhead room K.left).run tokens).isSome := by
  have htemplate := (stays_templateScopeAhead room tokens h).isSome
  unfold scopeAhead
  rw [Scan.get_bind, Scan.get_bind, Scan.next_bind, Scan.next_bind, h.headD_eq, h.tail_eq]
  split
  · rfl
  · rw [Scan.peek_bind, Scan.peek_bind]
    cases hname : (tokens.headD K.left.finish).kind.isIdentifier with
    | false =>
        simp only [Bool.false_and, Bool.false_eq_true, ↓reduceIte]
        exact htemplate
    | true =>
        rw [(h.tail (endsDeclaration_of_isIdentifier hname)).headD_eq]
        split
        · rfl
        · exact htemplate

/-! ## Declarations -/

/-- A type and a name, perhaps behind an access modifier. -/
def declaratorAhead (room : Nat) : Scan Unit := do
  Scan.skipIf Token.isAccessModifier
  typeAhead room
  Scan.requireIdentifier

theorem stays_declaratorAhead (room : Nat) : K.Stays (declaratorAhead room) := by
  refine (stays_skipIf fun token hmodifier => ?_).bind fun _ => (stays_typeAhead room).bind fun _ =>
    stays_requireIdentifier
  simp only [Token.isAccessModifier, Bool.or_eq_true, decide_eq_true_eq] at hmodifier
  rcases hmodifier with hkind | hkind <;> simp [hkind, TokenKind.endsDeclaration]

/-- A type and a name, then a group in parentheses that is not closed. -/
def Unclosed (room : Nat) (setting : Setting) (tokens : List Token) : Prop :=
  ∃ paren rest, (declaratorAhead room setting).run tokens = some ((), paren :: rest) ∧
    paren.kind = .openParen ∧ skipGroup? 0 rest = none

theorem propertyAhead_eq (room : Nat) :
    propertyAhead room = (declaratorAhead room >>= fun _ => do
      Scan.require .openBrace
      let token ← Scan.peek
      if !(token.kind = .closeBrace || token.isWord .get || token.isWord .set) then failure) := by
  unfold propertyAhead declaratorAhead
  simp only [bind_assoc]

theorem stays_propertyAhead (room : Nat) : K.Stays (propertyAhead room) := by
  rw [propertyAhead_eq]
  exact (stays_declaratorAhead room).bind fun _ => (stays_require rfl).bind fun _ =>
    stays_peek fun _ => Stays.ite stays_failure (stays_pure ())

/-- What tells a variable behind its type and its name. -/
def variableMarkAhead : Scan Unit := do
  match (← Scan.next).kind with
  | .assign | .semicolon | .comma => return
  | .openParen =>
      Scan.update (skipGroup? 0)
      let after := (← Scan.peek).kind
      if after = .openBrace || after.isIdentifier || after.isEnd then failure
  | _ => failure

/-- A group in parentheses behind a name that is a variable's. -/
def constructorArgumentsAhead : Scan Unit := do
  Scan.update (skipGroup? 0)
  let after := (← Scan.peek).kind
  if after = .openBrace || after.isIdentifier || after.isEnd then failure

theorem variableMarkAhead_run (setting : Setting) (token : Token) (rest : List Token) :
    (variableMarkAhead setting).run (token :: rest) =
      if token.kind = .openParen then (constructorArgumentsAhead setting).run rest
      else if token.kind = .assign ∨ token.kind = .semicolon ∨ token.kind = .comma then some ((), rest)
      else none := by
  unfold variableMarkAhead
  rw [Scan.next_bind, List.headD_cons, List.tail_cons]
  generalize token.kind = kind
  split
  · rfl
  · rfl
  · rfl
  · rfl
  · rw [if_neg ‹_›, if_neg (by simp_all)]
    rfl

theorem variableAhead_eq (room : Nat) :
    variableAhead room = (declaratorAhead room >>= fun _ => variableMarkAhead) :=
  ((bind_assoc _ _ _).trans (congrArg _ (funext fun _ => bind_assoc _ _ _))).symm

/-- What tells a method behind its type and its name. -/
def methodMarkAhead : Scan Unit := do
  Scan.require .openParen
  Scan.update (skipGroup? 0)
  Scan.skipKind .const
  modify fun tokens => tokens.dropWhile (·.hasRole .methodAttribute)
  Scan.require .openBrace

theorem methodAhead_isSome (room : Nat) (setting : Setting) (tokens : List Token) :
    ((methodAhead room setting).run tokens).isSome =
      ((((do Scan.skipIf Token.isAccessModifier; constructorAhead : Scan Unit) setting).run
          tokens).isSome ||
        (((declaratorAhead room >>= fun _ => methodMarkAhead) setting).run tokens).isSome) := by
  unfold methodAhead declaratorAhead
  rw [Scan.bind_run, Scan.bind_run, Scan.bind_run, Scan.bind_run, Scan.skipIf_run]
  dsimp only [Option.bind_some]
  generalize (if (tokens.headD setting.finish).isAccessModifier then tokens.tail else tokens) = behind
  rw [Scan.bind_run, Scan.passes_run]
  dsimp only [Option.bind_some]
  cases (constructorAhead setting).run behind with
  | some seen => rfl
  | none =>
      have heq : (do
          typeAhead room
          Scan.requireIdentifier
          Scan.require .openParen
          Scan.update (skipGroup? 0)
          Scan.skipKind .const
          modify fun tokens => tokens.dropWhile (·.hasRole .methodAttribute)
          Scan.require .openBrace : Scan Unit) =
        ((do typeAhead room; Scan.requireIdentifier) >>= fun _ => methodMarkAhead) := by
        unfold methodMarkAhead
        simp only [bind_assoc]
      simp only [Bool.false_eq_true, ↓reduceIte]
      rw [heq, Option.isSome_none, Bool.false_or]
      rfl

theorem Kept.isSome_bind {found found' : Option (α × List Token)}
    {next next' : α × List Token → Option (β × List Token)} (h : K.Kept found found')
    (hnext : ∀ value rest, found = some (value, rest) → K.Before rest →
      (next' (value, rest ++ K.more)).isSome = (next (value, rest)).isSome) :
    (found'.bind next').isSome = (found.bind next).isSome := by
  cases h with
  | fails => rfl
  | stops hrest => exact hnext _ _ rfl hrest

/-- What tells a variable is seen in the text, unless a group is not closed in it. -/
theorem variableAhead_isSome_eq (room : Nat) (h : K.Before tokens)
    (hclosed : ¬Unclosed room K.left tokens) :
    ((variableAhead room K.right).run (tokens ++ K.more)).isSome =
      ((variableAhead room K.left).run tokens).isSome := by
  rw [variableAhead_eq, Scan.bind_run, Scan.bind_run]
  refine (stays_declaratorAhead room tokens h).isSome_bind ?_
  rintro ⟨⟩ rest hrest hbefore
  obtain ⟨paren, behind, rfl⟩ := List.exists_cons_of_ne_nil hbefore.ne_nil
  rw [List.cons_append, variableMarkAhead_run, variableMarkAhead_run]
  split
  · rename_i hparen
    unfold constructorArgumentsAhead
    rw [Scan.bind_run, Scan.bind_run, Scan.update_run, Scan.update_run]
    cases hgroup : skipGroup? 0 behind with
    | none => exact absurd ⟨paren, behind, hrest, hparen, hgroup⟩ hclosed
    | some last =>
        obtain ⟨hgroup', hlast⟩ := skipGroup?_before hgroup (hbefore.of_cons (by rw [hparen]; rfl))
        rw [hgroup', Option.map_some, Option.map_some]
        dsimp only [Option.bind_some]
        rw [Scan.peek_bind, Scan.peek_bind, hlast.headD_eq]
        split <;> rfl
  · split <;> rfl

theorem variableAhead_of_unclosed {room : Nat} {setting : Setting}
    (h : Unclosed room setting tokens) : (variableAhead room setting).run tokens = none := by
  obtain ⟨paren, rest, hrun, hparen, hgroup⟩ := h
  rw [variableAhead_eq, Scan.bind_run, hrun]
  dsimp only [Option.bind_some]
  rw [variableMarkAhead_run, if_pos hparen]
  unfold constructorArgumentsAhead
  rw [Scan.bind_run, Scan.update_run, hgroup]
  rfl

theorem propertyAhead_of_unclosed {room : Nat} {setting : Setting}
    (h : Unclosed room setting tokens) : (propertyAhead room setting).run tokens = none := by
  obtain ⟨paren, rest, hrun, hparen, -⟩ := h
  rw [propertyAhead_eq, Scan.bind_run, hrun]
  dsimp only [Option.bind_some]
  rw [Scan.bind_run, Scan.require_run, List.headD_cons, hparen]
  rfl

theorem stays_constructorAhead : K.Stays constructorAhead := by
  refine stays_next (fun first _ => stays_peek fun _ => Stays.ite stays_failure (stays_pure ())) ?_
  intro first setting tokens hends
  have hfirst : (decide (first.kind = .tilde) || first.kind.isIdentifier) = false := by
    simp only [TokenKind.endsDeclaration, Bool.or_eq_true, decide_eq_true_eq] at hends
    rcases hends with hkind | hkind <;> simp [hkind, TokenKind.isIdentifier]
  rw [Bool.or_eq_false_iff] at hfirst
  rw [Scan.peek_bind]
  simp only [hfirst.1, hfirst.2, Bool.false_and, Bool.or_self, Bool.not_false, ↓reduceIte]
  rfl

/-- What tells a method is seen in the text, unless a group is not closed in it. -/
theorem methodAhead_isSome_eq (room : Nat) (h : K.Before tokens)
    (hclosed : ¬Unclosed room K.left tokens) :
    ((methodAhead room K.right).run (tokens ++ K.more)).isSome =
      ((methodAhead room K.left).run tokens).isSome := by
  have hmodifier (token : Token) (hkind : token.isAccessModifier = true) :
      token.kind.endsDeclaration = false := by
    simp only [Token.isAccessModifier, Bool.or_eq_true, decide_eq_true_eq] at hkind
    rcases hkind with hkind | hkind <;> simp [hkind, TokenKind.endsDeclaration]
  have hconstructor : K.Stays (do Scan.skipIf Token.isAccessModifier; constructorAhead) :=
    (stays_skipIf hmodifier).bind fun _ => stays_constructorAhead
  rw [methodAhead_isSome, methodAhead_isSome, (hconstructor tokens h).isSome]
  congr 1
  rw [Scan.bind_run, Scan.bind_run]
  refine (stays_declaratorAhead room tokens h).isSome_bind ?_
  rintro ⟨⟩ rest hrest hbefore
  obtain ⟨paren, behind, rfl⟩ := List.exists_cons_of_ne_nil hbefore.ne_nil
  unfold methodMarkAhead
  rw [Scan.bind_run, Scan.bind_run]
  have hparens : K.Stays (Scan.require .openParen) := stays_require rfl
  refine (hparens _ hbefore).isSome_bind ?_
  rintro ⟨⟩ inner hparen hinner
  rw [Scan.require_run] at hparen
  split at hparen
  case isFalse => cases hparen
  rename_i hkind
  cases hparen
  rw [Scan.bind_run, Scan.bind_run, Scan.update_run, Scan.update_run]
  dsimp only [List.tail_cons] at hinner ⊢
  cases hgroup : skipGroup? 0 behind with
  | none => exact absurd ⟨paren, behind, hrest, hkind, hgroup⟩ hclosed
  | some last =>
      obtain ⟨hgroup', hlast⟩ := skipGroup?_before hgroup hinner
      rw [hgroup', Option.map_some, Option.map_some]
      have hbody : K.Stays (do
          Scan.skipKind .const
          modify fun tokens => tokens.dropWhile (·.hasRole .methodAttribute)
          Scan.require .openBrace) := by
        refine (stays_skipKind rfl).bind fun _ => (stays_modify fun h => ?_).bind fun _ =>
          stays_require rfl
        refine dropWhile_before h fun token hrole => ?_
        rw [kind_of_hasRole hrole]
        rfl
      exact (hbody last hlast).isSome

/-- A name before a parenthesis is a type that no name follows. -/
theorem typeAhead_of_constructor {room : Nat} {setting : Setting} {name paren : Token}
    (hname : name.kind = .identifier) (hparen : paren.kind = .openParen) :
    (typeAhead room setting).run (name :: paren :: rest) = some ((), paren :: rest) := by
  have hplain (room : Nat) :
      (templateList room name setting).run (paren :: rest) = some ((), paren :: rest) := by
    refine templateList_plain ?_ room
    simp [Setting.listsArguments, hparen]
  have hscoped : (scopedName room (byteCount (name :: paren :: rest) + 1) setting).run
      (name :: paren :: rest) = some (name, paren :: rest) := by
    unfold scopedName
    rw [Scan.next_bind, List.headD_cons, List.tail_cons]
    simp only [hname, TokenKind.isIdentifier, decide_true, Bool.not_true, Bool.false_eq_true, ↓reduceIte]
    rw [Scan.peek_bind, List.headD_cons, hparen]
    have hmark : (Scan.require .scope setting).run (paren :: rest) = none := by
      rw [Scan.require_run, List.headD_cons, hparen]
      rfl
    rw [if_neg (by simp), Scan.bind_run, Scan.passes_run, Scan.bind_run, hplain]
    dsimp only [Option.bind_some]
    rw [hmark]
    rfl
  unfold typeAhead
  rw [Scan.bind_run, Scan.skipKind_run, List.headD_cons, hname]
  simp only [reduceCtorEq, ↓reduceIte, Option.bind_some]
  rw [Scan.peek_bind, List.headD_cons, hname]
  simp only [reduceCtorEq, ↓reduceIte]
  rw [Scan.bind_run, Scan.skipKind_run, List.headD_cons, hname]
  simp only [reduceCtorEq, ↓reduceIte, Option.bind_some]
  rw [Scan.get_bind, Scan.bind_run, hscoped, Option.bind_some]
  simp only [Token.isTypeName, hname, TokenKind.isIdentifier, decide_true, Bool.true_or, Bool.not_true,
    Bool.false_eq_true, ↓reduceIte]
  rw [Scan.bind_run, hplain, Option.bind_some, Scan.update_run]
  rw [skipSuffixes?_other (by simp [hparen]) (by simp [hparen]) (by simp [hparen])]
  rfl

end Continuation

end Grammar

end ScriptSyntax
