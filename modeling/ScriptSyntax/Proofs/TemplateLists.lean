import ScriptSyntax.Proofs.Progress
import ScriptSyntax.Proofs.Scanning

/-!
# Template lists, scanned and read

A scan passes a list of template arguments by rules of its own.  Where a scan goes on behind a list
with a token that stands in no type, the rule for types has read the same tokens.
-/

namespace ScriptSyntax.Grammar

/-- Each step from these tokens on leaves less text ahead. -/
def Setting.Orderly (setting : Setting) (tokens : List Token) : Prop :=
  ∀ next last, setting.Leads tokens next → setting.Step next last →
    byteCount last < byteCount next

namespace Setting

variable {setting : Setting} {tokens next last : List Token}

theorem Orderly.leads (h : setting.Orderly tokens) (hleads : setting.Leads tokens next) :
    setting.Orderly next :=
  fun middle last hmiddle => h middle last (hleads.trans hmiddle)

theorem Orderly.tail (h : setting.Orderly tokens) : setting.Orderly tokens.tail :=
  h.leads (setting.leads_tail tokens)

theorem Orderly.byteCount_lt (h : setting.Orderly tokens) (hpasses : setting.Passes tokens last) :
    byteCount last < byteCount tokens := by
  induction hpasses with
  | single hstep => exact h _ _ .refl hstep
  | tail hbefore hstep ih => exact Nat.lt_trans (h _ _ hbefore.to_reflTransGen hstep) ih

end Setting

namespace Parse

variable {setting : Setting} {session after : Session} {value : Unit}

/-! ## Loops that pass flat scans -/

/-- What each round that asks for another one keeps, the last one may use. -/
theorem repeatRule_ok {body : Parse Bool} [Rounds body] {p q : List Token → Prop}
    (hended : setting.Ended)
    (hround : ∀ {session after : Session} {again : Bool}, p session.ahead →
      body setting session = (.ok again, after) → if again then p after.ahead else q after.ahead)
    (horderly : setting.Orderly session.ahead) (hfirst : p session.ahead)
    (h : repeatRule body setting session = (.ok value, after)) : q after.ahead := by
  unfold repeatRule at h
  rw [ahead_bind] at h
  generalize hfuel : byteCount session.ahead + 1 = count at h
  have hcount : byteCount session.ahead < count := Nat.lt_of_succ_le (Nat.le_of_eq hfuel)
  clear hfuel
  induction count generalizing session with
  | zero => exact absurd hcount (Nat.not_lt_zero _)
  | succ count ih =>
      unfold repeatUpTo at h
      obtain ⟨again, middle, hbody, hrest⟩ := bind_ok h
      have hkept := hround hfirst hbody
      cases again with
      | false =>
          cases hrest
          exact hkept
      | true =>
          have hpasses := Rounds.passes setting session middle hended hbody
          have hshorter := horderly.byteCount_lt hpasses
          exact ih (horderly.leads hpasses.to_reflTransGen) hkept hrest (by omega)

section

variable {tokens : List Token} {finish : Token}

theorem skipScopes_scope (hended : finish.kind = .endOfSource)
    (hname : (tokens.headD finish).kind = .identifier)
    (hmark : (tokens.tail.headD finish).kind = .scope) :
    skipScopes tokens = skipScopes tokens.tail.tail := by
  match tokens with
  | [] => simp [hended] at hname
  | [_] => simp [hended] at hmark
  | name :: separator :: rest => rw [skipScopes, if_pos ⟨hname, hmark⟩, List.tail_cons, List.tail_cons]

theorem skipScopes_other (h : ¬((tokens.headD finish).kind = .identifier ∧
    (tokens.tail.headD finish).kind = .scope)) : skipScopes tokens = tokens := by
  match tokens with
  | [] | [_] => rfl
  | name :: separator :: rest => exact if_neg h

end

/-- The names of a scope are read as they are scanned. -/
theorem scopeNames_ok (hended : setting.Ended) (horderly : setting.Orderly session.ahead)
    (h : repeatRule (do
      if (← peek).kind.isIdentifier && (← peekSecond).kind = .scope then
        identifier
        mark
        return true
      else return false) setting session = (.ok value, after)) :
    after.ahead = skipScopes session.ahead := by
  refine repeatRule_ok (p := fun tokens => skipScopes tokens = skipScopes session.ahead)
    (q := fun tokens => tokens = skipScopes session.ahead) hended ?_ horderly rfl h
  intro middle after again hsame hbody
  rw [peek_bind, peekSecond_bind] at hbody
  by_cases hscope : (setting.head middle).kind = .identifier ∧ (setting.second middle).kind = .scope
  · simp only [hscope, TokenKind.isIdentifier, decide_true, Bool.and_self, ↓reduceIte] at hbody
    obtain ⟨_, named, hname, hmark⟩ := bind_ok hbody
    obtain ⟨_, marked, hmarked, hend⟩ := bind_ok hmark
    cases hend
    change skipScopes after.ahead = _
    rw [leaf_ok hmarked, (identifier_ok hname).2, ← hsame]
    exact (skipScopes_scope hended hscope.1 hscope.2).symm
  · have hnone : (((setting.head middle).kind.isIdentifier &&
        decide ((setting.second middle).kind = .scope)) = true) = False := by
      simpa [TokenKind.isIdentifier] using hscope
    simp only [hnone, ↓reduceIte] at hbody
    cases hbody
    exact (skipScopes_other hscope).symm.trans hsame

/-- A token that may stand behind a template argument. -/
def endsArgument (kind : TokenKind) : Bool :=
  kind = .comma || kind.startsWithGreater

theorem skipArgumentSuffixes?_handle {token : Token} {rest : List Token}
    (hkind : token.kind = .handle) :
    skipArgumentSuffixes? (token :: rest) = skipArgumentSuffixes? rest := by
  rw [skipArgumentSuffixes?.eq_def]
  dsimp only
  rw [hkind]

theorem skipArgumentSuffixes?_openBracket {token close : Token} {rest : List Token}
    (hkind : token.kind = .openBracket) (hclose : close.kind = .closeBracket) :
    skipArgumentSuffixes? (token :: close :: rest) = skipArgumentSuffixes? rest := by
  rw [skipArgumentSuffixes?.eq_def]
  dsimp only
  rw [hkind]
  simp only [hclose, ↓reduceIte]

theorem skipArgumentSuffixes?_other {token : Token} {rest : List Token}
    (hhandle : token.kind ≠ .handle) (hbracket : token.kind ≠ .openBracket) :
    skipArgumentSuffixes? (token :: rest) = some (token :: rest) := by
  rw [skipArgumentSuffixes?.eq_def]
  dsimp only
  split <;> simp_all

/-- No suffix is passed where none comes next, also at the end. -/
theorem skipArgumentSuffixes?_still {tokens : List Token} {finish : Token} {kind : TokenKind}
    (hkind : (tokens.headD finish).kind = kind) (hhandle : kind ≠ .handle)
    (hbracket : kind ≠ .openBracket) : skipArgumentSuffixes? tokens = some tokens := by
  subst hkind
  cases tokens with
  | nil => rfl
  | cons token rest => exact skipArgumentSuffixes?_other hhandle hbracket

section

variable {token : Token} {rest : List Token}

theorem skipSuffixes?_handle (hkind : token.kind = .handle) :
    skipSuffixes? (token :: rest) =
      skipSuffixes? (if rest.head?.any (·.kind = .const) then rest.tail else rest) := by
  rw [skipSuffixes?.eq_def]
  cases rest with
  | nil =>
      simp only [hkind]
      rfl
  | cons qualifier rest =>
      simp only [hkind, List.head?_cons, Option.any_some, decide_eq_true_eq, List.tail_cons]
      exact (apply_ite skipSuffixes? _ _ _).symm

theorem skipSuffixes?_ampersand (hkind : token.kind = .ampersand) :
    skipSuffixes? (token :: rest) = skipSuffixes? rest := by
  rw [skipSuffixes?.eq_def]
  simp [hkind]

theorem skipSuffixes?_openBracket (hkind : token.kind = .openBracket) :
    skipSuffixes? (token :: rest) =
      if rest.head?.map (·.kind) = some .closeBracket then skipSuffixes? rest.tail else none := by
  rw [skipSuffixes?.eq_def]
  cases rest <;> simp [hkind]

theorem skipSuffixes?_other (hhandle : token.kind ≠ .handle) (hampersand : token.kind ≠ .ampersand)
    (hbracket : token.kind ≠ .openBracket) :
    skipSuffixes? (token :: rest) = some (token :: rest) := by
  rw [skipSuffixes?.eq_def]
  dsimp only
  split <;> simp_all

theorem skipSuffixes?_suffix {tokens behind : List Token} (h : skipSuffixes? tokens = some behind) :
    behind <:+ tokens := by
  fun_induction skipSuffixes? tokens with
  | case1 =>
      cases h
      exact List.suffix_rfl
  | case2 token qualifier rest hkind hconst ih =>
      exact (ih h).trans ((List.suffix_cons _ _).trans (List.suffix_cons _ _))
  | case3 token qualifier rest hkind hconst ih => exact (ih h).trans (List.suffix_cons _ _)
  | case4 =>
      cases h
      exact List.nil_suffix
  | case5 token rest hkind ih => exact (ih h).trans (List.suffix_cons _ _)
  | case6 token close rest hkind hclose ih =>
      exact (ih h).trans ((List.suffix_cons _ _).trans (List.suffix_cons _ _))
  | case7 => cases h
  | case8 => cases h
  | case9 =>
      cases h
      exact List.suffix_rfl

end

/-- The suffixes of a template argument are read as they are scanned. -/
theorem typeSuffixes_ok (hended : setting.Ended) {behind : List Token}
    (horderly : setting.Orderly session.ahead)
    (h : typeSuffixes setting session = (.ok value, after))
    (hscan : skipArgumentSuffixes? session.ahead = some behind)
    (hbehind : endsArgument (behind.headD setting.finish).kind = true) : after.ahead = behind := by
  refine repeatRule_ok (p := fun tokens => skipArgumentSuffixes? tokens = some behind)
    (q := fun tokens => tokens = behind) hended ?_ horderly hscan h
  intro session after again hscan hbody
  rw [peek_bind] at hbody
  generalize hkind : (setting.head session).kind = kind at hbody
  split at hbody
  · obtain ⟨_, marked, hmarked, hclosing⟩ := bind_ok hbody
    obtain ⟨_, closed, hclosed, hend⟩ := bind_ok hclosing
    obtain ⟨hclose, hahead⟩ := coverRequired_ok hclosed
    rw [hended.ahead_cons (by simp [hkind]), ← leaf_ok hmarked,
      hended.ahead_cons (by simp [hclose]), ← hahead,
      skipArgumentSuffixes?_openBracket hkind hclose] at hscan
    cases hend
    exact hscan
  · obtain ⟨_, marked, hmarked, hconst⟩ := bind_ok hbody
    obtain ⟨_, held, hheld, hend⟩ := bind_ok hconst
    have hahead := markIf_ok hheld
    rw [hended.ahead_cons (by simp [hkind]), ← leaf_ok hmarked,
      skipArgumentSuffixes?_handle hkind] at hscan
    by_cases hnext : (setting.head marked).kind = .const
    · -- A scan does not pass `const`, and no argument ends with it.
      cases (skipArgumentSuffixes?_still hnext (by simp) (by simp)).symm.trans hscan
      change endsArgument (setting.head marked).kind = true at hbehind
      rw [hnext] at hbehind
      cases hbehind
    · rw [if_neg hnext] at hahead
      cases hend
      exact hahead ▸ hscan
  · rename_i hbracket hhandle
    cases hbody
    exact Option.some.inj ((skipArgumentSuffixes?_still hkind hhandle hbracket).symm.trans hscan)

/-- No suffix is read where none comes next. -/
theorem typeSuffixes_still {kind : TokenKind} (hkind : (setting.head session).kind = kind)
    (hhandle : kind ≠ .handle) (hbracket : kind ≠ .openBracket)
    (h : typeSuffixes setting session = (.ok value, after)) : after = session := by
  unfold typeSuffixes repeatRule at h
  rw [ahead_bind] at h
  unfold repeatUpTo at h
  obtain ⟨again, middle, hbody, hrest⟩ := bind_ok h
  rw [peek_bind, hkind] at hbody
  split at hbody
  · exact absurd rfl hbracket
  · exact absurd rfl hhandle
  · cases hbody
    cases hrest
    rfl

end Parse

/-! ## Scanning an argument -/

/-- The tokens behind the next one if it is of the kind. -/
def Setting.dropKind (setting : Setting) (kind : TokenKind) (tokens : List Token) : List Token :=
  if (tokens.headD setting.finish).kind = kind then tokens.tail else tokens

/-- The tokens behind the qualifier and the scopes of a template argument. -/
def behindScopes (setting : Setting) (tokens : List Token) : List Token :=
  skipScopes (setting.dropKind .scope (setting.dropKind .const tokens))

theorem templateArgument_run (inner : Token → Scan Unit) (setting : Setting)
    (tokens : List Token) :
    (templateArgument inner setting).run tokens =
      let named := behindScopes setting tokens
      let name := named.headD setting.finish
      if name.isTypeName then
        ((inner name setting).run named.tail).bind fun seen =>
          (skipArgumentSuffixes? seen.2).map fun behind =>
            if (behind.headD setting.finish).kind = .comma then (true, behind.tail)
            else (false, behind)
      else none := by
  unfold templateArgument
  rw [Scan.bind_run, Scan.skipKind_run]
  dsimp only [Option.bind_some]
  rw [Scan.bind_run, Scan.skipKind_run]
  dsimp only [Option.bind_some]
  rw [Scan.modify_bind, Scan.next_bind]
  unfold behindScopes Setting.dropKind
  generalize skipScopes _ = named
  generalize named.headD setting.finish = name
  cases name.isTypeName with
  | false => rfl
  | true =>
      simp only [Bool.not_true, Bool.false_eq_true, ↓reduceIte]
      rw [Scan.bind_run]
      cases (inner name setting).run named.tail with
      | none => rfl
      | some seen =>
          dsimp only [Option.bind_some]
          rw [Scan.bind_run, Scan.update_run]
          cases skipArgumentSuffixes? seen.2 with
          | none => rfl
          | some behind =>
              dsimp only [Option.map_some, Option.bind_some]
              rw [Scan.peek_bind]
              split <;> rfl

theorem repeatUpTo_run (body : Scan Bool) (count : Nat) (setting : Setting)
    (tokens : List Token) :
    (Scan.repeatUpTo (count + 1) body setting).run tokens =
      ((body setting).run tokens).bind fun seen =>
        if seen.1 then (Scan.repeatUpTo count body setting).run seen.2 else some ((), seen.2) := by
  conv => lhs; unfold Scan.repeatUpTo
  rw [Scan.bind_run]
  cases (body setting).run tokens with
  | none => rfl
  | some seen =>
      dsimp only [Option.bind_some]
      split <;> rfl

/-- A name is followed by template arguments. -/
def Setting.listsArguments (setting : Setting) (name : Token) (tokens : List Token) : Bool :=
  setting.isTemplateName name && (tokens.headD setting.finish).kind = .less

theorem templateList_plain {setting : Setting} {name : Token} {tokens : List Token}
    (h : setting.listsArguments name tokens = false) (room : Nat) :
    (templateList room name setting).run tokens = some ((), tokens) := by
  unfold Setting.listsArguments at h
  cases room <;>
  · unfold templateList
    rw [Scan.read_bind, Scan.peek_bind]
    simp only [h, Bool.false_eq_true, ↓reduceIte]
    rfl

theorem templateList_zero {setting : Setting} {name : Token} {tokens : List Token}
    (h : setting.listsArguments name tokens = true) :
    (templateList 0 name setting).run tokens = none := by
  unfold Setting.listsArguments at h
  unfold templateList
  rw [Scan.read_bind, Scan.peek_bind]
  simp only [h, ↓reduceIte]
  rfl

theorem templateList_succ {setting : Setting} {name : Token} {tokens : List Token}
    (h : setting.listsArguments name tokens = true) (room : Nat) :
    (templateList (room + 1) name setting).run tokens =
      ((Scan.repeatUpTo (byteCount tokens.tail + 1)
          (templateArgument (templateList room)) setting).run tokens.tail).bind fun seen =>
        (setting.afterGreater? seen.2).map fun behind => ((), behind) := by
  unfold Setting.listsArguments at h
  conv => lhs; unfold templateList
  rw [Scan.read_bind, Scan.peek_bind]
  simp only [h, ↓reduceIte]
  rw [Scan.skip_bind, Scan.bind_run]
  unfold Scan.repeatScan
  rw [Scan.get_bind]
  refine congrArg _ ?_
  funext seen
  rw [Scan.read_bind, Scan.update_run]

/-! ## More room -/

/-- Whatever the first scan passes, the second passes too. -/
def Scan.Extends {α : Type} (setting : Setting) (scan other : Scan α) : Prop :=
  ∀ tokens seen, (scan setting).run tokens = some seen → (other setting).run tokens = some seen

theorem templateArgument_extends {setting : Setting} {inner other : Token → Scan Unit}
    (h : ∀ name, Scan.Extends setting (inner name) (other name)) :
    Scan.Extends setting (templateArgument inner) (templateArgument other) := by
  intro tokens seen hseen
  rw [templateArgument_run] at hseen ⊢
  dsimp only at hseen ⊢
  split at hseen
  · rename_i hname
    rw [if_pos hname]
    obtain ⟨listed, hlisted, hrest⟩ := Option.bind_eq_some_iff.mp hseen
    rw [h _ _ _ hlisted]
    exact hrest
  · cases hseen

theorem repeatUpTo_extends {setting : Setting} {body other : Scan Bool}
    (h : Scan.Extends setting body other) (count : Nat) :
    Scan.Extends setting (Scan.repeatUpTo count body) (Scan.repeatUpTo count other) := by
  induction count with
  | zero => exact fun tokens seen hseen => hseen
  | succ count ih =>
      intro tokens seen hseen
      rw [repeatUpTo_run] at hseen ⊢
      obtain ⟨first, hfirst, hrest⟩ := Option.bind_eq_some_iff.mp hseen
      rw [h _ _ hfirst, Option.bind_some]
      split at hrest
      · rename_i hagain
        rw [if_pos hagain]
        exact ih _ _ hrest
      · rename_i hagain
        rw [if_neg hagain]
        exact hrest

/-- A list of template arguments ends at the same place with more room. -/
theorem templateList_extends (setting : Setting) (room : Nat) (name : Token) :
    Scan.Extends setting (templateList room name) (templateList (room + 1) name) := by
  induction room generalizing name with
  | zero =>
      intro tokens seen hseen
      cases hlists : setting.listsArguments name tokens with
      | true =>
          rw [templateList_zero hlists] at hseen
          cases hseen
      | false =>
          rw [templateList_plain hlists] at hseen ⊢
          exact hseen
  | succ room ih =>
      intro tokens seen hseen
      cases hlists : setting.listsArguments name tokens with
      | true =>
          rw [templateList_succ hlists] at hseen ⊢
          obtain ⟨listed, hlisted, hrest⟩ := Option.bind_eq_some_iff.mp hseen
          rw [repeatUpTo_extends (templateArgument_extends ih) _ _ _ hlisted]
          exact hrest
      | false =>
          rw [templateList_plain hlists] at hseen ⊢
          exact hseen

theorem templateList_le {setting : Setting} {room more : Nat} (hle : room ≤ more) (name : Token) :
    Scan.Extends setting (templateList room name) (templateList more name) := by
  induction hle with
  | refl => exact fun tokens seen hseen => hseen
  | step hle ih =>
      intro tokens seen hseen
      exact templateList_extends setting _ name _ _ (ih tokens seen hseen)

theorem templateList_unique {setting : Setting} {room room' : Nat} {name : Token}
    {tokens : List Token} {seen seen' : Unit × List Token}
    (h : (templateList room name setting).run tokens = some seen)
    (h' : (templateList room' name setting).run tokens = some seen') : seen = seen' := by
  have hmore := templateList_le (Nat.le_max_left room room') name _ _ h
  have hmore' := templateList_le (Nat.le_max_right room room') name _ _ h'
  rw [hmore] at hmore'
  exact Option.some.inj hmore'

/-! ## Ways of scans -/

theorem skipArgumentSuffixes?_suffix {tokens behind : List Token}
    (h : skipArgumentSuffixes? tokens = some behind) : behind <:+ tokens := by
  fun_induction skipArgumentSuffixes? tokens with
  | case1 =>
      cases h
      exact List.suffix_rfl
  | case2 token rest hkind ih => exact (ih h).trans (List.suffix_cons _ _)
  | case3 token hkind close rest hclose ih =>
      exact (ih h).trans ((List.suffix_cons _ _).trans (List.suffix_cons _ _))
  | case4 => cases h
  | case5 => cases h
  | case6 =>
      cases h
      exact List.suffix_rfl

theorem dropKind_suffix (setting : Setting) (kind : TokenKind) (tokens : List Token) :
    setting.dropKind kind tokens <:+ tokens := by
  unfold Setting.dropKind
  split
  · exact List.tail_suffix _
  · exact List.suffix_rfl

theorem behindScopes_suffix (setting : Setting) (tokens : List Token) :
    behindScopes setting tokens <:+ tokens :=
  (skipScopes_suffix _).trans ((dropKind_suffix _ _ _).trans (dropKind_suffix _ _ _))

/-- Scans move the way that rules do. -/
def Scan.Leads {α : Type} (setting : Setting) (scan : Scan α) : Prop :=
  ∀ tokens seen, (scan setting).run tokens = some seen → setting.Leads tokens seen.2

theorem templateArgument_leads {setting : Setting} {inner : Token → Scan Unit}
    (h : ∀ name, (inner name).Leads setting) : (templateArgument inner).Leads setting := by
  intro tokens seen hseen
  rw [templateArgument_run] at hseen
  dsimp only at hseen
  split at hseen
  · obtain ⟨listed, hlisted, hrest⟩ := Option.bind_eq_some_iff.mp hseen
    obtain ⟨behind, hbehind, hend⟩ := Option.map_eq_some_iff.mp hrest
    have hnamed := setting.leads_of_suffix (behindScopes_suffix setting tokens)
    have hmore := h _ _ _ hlisted
    have hlast := setting.leads_of_suffix (skipArgumentSuffixes?_suffix hbehind)
    have hleads := ((hnamed.trans (setting.leads_tail _)).trans hmore).trans hlast
    split at hend
    · cases hend
      exact hleads.trans (setting.leads_tail _)
    · cases hend
      exact hleads
  · cases hseen

theorem repeatUpTo_leads {setting : Setting} {body : Scan Bool} (h : body.Leads setting)
    (count : Nat) : (Scan.repeatUpTo count body).Leads setting := by
  induction count with
  | zero =>
      intro tokens seen hseen
      cases hseen
      exact .refl
  | succ count ih =>
      intro tokens seen hseen
      rw [repeatUpTo_run] at hseen
      obtain ⟨first, hfirst, hrest⟩ := Option.bind_eq_some_iff.mp hseen
      have hbefore := h _ _ hfirst
      split at hrest
      · exact hbefore.trans (ih _ _ hrest)
      · cases hrest
        exact hbefore

theorem templateList_leads (setting : Setting) (room : Nat) (name : Token) :
    (templateList room name).Leads setting := by
  induction room generalizing name with
  | zero =>
      intro tokens seen hseen
      cases hlists : setting.listsArguments name tokens with
      | true =>
          rw [templateList_zero hlists] at hseen
          cases hseen
      | false =>
          rw [templateList_plain hlists] at hseen
          cases hseen
          exact .refl
  | succ room ih =>
      intro tokens seen hseen
      cases hlists : setting.listsArguments name tokens with
      | true =>
          rw [templateList_succ hlists] at hseen
          obtain ⟨listed, hlisted, hrest⟩ := Option.bind_eq_some_iff.mp hseen
          obtain ⟨behind, hbehind, hend⟩ := Option.map_eq_some_iff.mp hrest
          cases hend
          have hbefore := repeatUpTo_leads (templateArgument_leads ih) _ _ _ hlisted
          exact ((setting.leads_tail tokens).trans hbefore).tail (.inr hbehind)
      | false =>
          rw [templateList_plain hlists] at hseen
          cases hseen
          exact .refl

/-! ## Reading what was scanned -/

theorem no_scope_of_scopeAhead {setting : Setting} {room : Nat} {tokens : List Token}
    (h : ((scopeAhead room setting).run tokens).isSome = false) :
    (tokens.headD setting.finish).kind ≠ .scope ∧
      ¬((tokens.headD setting.finish).kind = .identifier ∧
        (tokens.tail.headD setting.finish).kind = .scope) := by
  unfold scopeAhead at h
  rw [Scan.get_bind, Scan.next_bind] at h
  by_cases hscope : (tokens.headD setting.finish).kind = .scope
  · simp only [hscope, ↓reduceIte] at h
    cases h
  · refine ⟨hscope, ?_⟩
    rintro ⟨hname, hmark⟩
    simp only [hscope, ↓reduceIte] at h
    rw [Scan.peek_bind] at h
    simp only [hname, hmark, TokenKind.isIdentifier, decide_true, Bool.and_self, ↓reduceIte] at h
    cases h

theorem templateScopeAhead_some {setting : Setting} {room : Nat} {tokens : List Token}
    (h : ((templateScopeAhead room setting).run tokens).isSome = true) :
    ∃ behind, setting.listsArguments (tokens.headD setting.finish) tokens.tail = true ∧
      (templateList room (tokens.headD setting.finish) setting).run tokens.tail =
        some ((), behind) ∧
      (behind.headD setting.finish).kind = .scope := by
  unfold templateScopeAhead at h
  rw [Scan.next_bind, Scan.read_bind, Scan.peek_bind] at h
  cases hlists : setting.listsArguments (tokens.headD setting.finish) tokens.tail with
  | false =>
      unfold Setting.listsArguments at hlists
      simp only [hlists, Bool.not_false, ↓reduceIte] at h
      cases h
  | true =>
      have hlists' := hlists
      unfold Setting.listsArguments at hlists'
      simp only [hlists', Bool.not_true, Bool.false_eq_true, ↓reduceIte] at h
      rw [Scan.bind_run] at h
      cases hlist : (templateList room (tokens.headD setting.finish) setting).run tokens.tail with
      | none =>
          rw [hlist] at h
          cases h
      | some seen =>
          rw [hlist, Option.bind_some, Scan.require_run] at h
          split at h
          · rename_i hscope
            exact ⟨seen.2, rfl, rfl, hscope⟩
          · cases h

namespace Parse

variable {setting : Setting} {session after : Session} {value : Unit}

/-- A scope without template instance in it ends where it is scanned. -/
theorem scopeOver_ok {room : Nat} {argument : Parse Unit} (hended : setting.Ended)
    (horderly : setting.Orderly session.ahead)
    (hplain : ((templateScopeAhead room setting).run
      (skipScopes (setting.dropKind .scope session.ahead))).isSome = false)
    (h : scopeOver room argument setting session = (.ok value, after)) :
    after.ahead = skipScopes (setting.dropKind .scope session.ahead) := by
  unfold scopeOver at h
  rw [sees_bind] at h
  cases hsees : ((scopeAhead room setting).run session.ahead).isSome with
  | false =>
      simp only [hsees, Bool.false_eq_true, ↓reduceIte] at h
      cases h
      obtain ⟨hscope, hname⟩ := no_scope_of_scopeAhead hsees
      unfold Setting.dropKind
      rw [if_neg hscope, skipScopes_other hname]
  | true =>
      simp only [hsees, ↓reduceIte] at h
      obtain ⟨inner, hinner, rfl⟩ := node_ok h
      obtain ⟨_, marked, hmarked, hrest⟩ := bind_ok hinner
      obtain ⟨_, named, hnamed, hend⟩ := bind_ok hrest
      have hmark := markIf_ok hmarked
      change marked.ahead = setting.dropKind .scope session.ahead at hmark
      have hleads := setting.leads_of_suffix (dropKind_suffix setting .scope session.ahead)
      have hnames := scopeNames_ok hended (hmark ▸ horderly.leads hleads) hnamed
      rw [hmark] at hnames
      rw [sees_bind, hnames, hplain] at hend
      cases hend
      exact hnames

/-- Behind a name there are the arguments that a scan passes, if there are any. -/
theorem nameArguments_ok {argument next : Parse Unit} {scanRoom : Nat} {name : Token}
    {listed : List Token}
    (hlist : setting.listsArguments name session.ahead = true →
      ∀ {listing}, templateArguments argument setting session = (.ok (), listing) →
        listing.ahead = listed)
    (hscan : (templateList scanRoom name setting).run session.ahead = some ((), listed))
    (h : (if setting.listsArguments name session.ahead = true then do
        templateArguments argument
        next
      else next) setting session = (.ok value, after)) :
    ∃ listing, listing.ahead = listed ∧ next setting listing = (.ok value, after) := by
  split at h
  · rename_i hlists
    obtain ⟨_, listing, hlisting, hnext⟩ := bind_ok h
    exact ⟨listing, hlist hlists hlisting, hnext⟩
  · rename_i hlists
    rw [templateList_plain (by simpa using hlists)] at hscan
    cases hscan
    exact ⟨session, rfl, h⟩

/-- Behind a scope there is no template argument that could end. -/
theorem templateScopeAhead_isSome_of_ends {room scanRoom : Nat} {tokens listed behind : List Token}
    (hlisted : (templateList scanRoom (tokens.headD setting.finish) setting).run tokens.tail =
      some ((), listed))
    (hbehind : skipArgumentSuffixes? listed = some behind)
    (hends : endsArgument (behind.headD setting.finish).kind = true) :
    ((templateScopeAhead room setting).run tokens).isSome = false := by
  refine Bool.eq_false_iff.mpr fun hsees => ?_
  obtain ⟨other, -, hother, hscope⟩ := templateScopeAhead_some hsees
  cases templateList_unique hlisted hother
  cases hbehind.symm.trans (skipArgumentSuffixes?_still hscope (by simp) (by simp))
  rw [hscope] at hends
  cases hends

/-- The rule for a type comes to the name that the scan of a template argument finds, and goes on
with the arguments behind it. -/
theorem typeBody_named {room : Nat} {argument : Parse Unit} (hended : setting.Ended)
    {scanRoom : Nat} {listed behind : List Token} (horderly : setting.Orderly session.ahead)
    (hlisted : (templateList scanRoom ((behindScopes setting session.ahead).headD setting.finish)
      setting).run (behindScopes setting session.ahead).tail = some ((), listed))
    (hbehind : skipArgumentSuffixes? listed = some behind)
    (hends : endsArgument (behind.headD setting.finish).kind = true)
    (h : typeBody room argument {} setting session = (.ok value, after)) :
    ∃ named inner, named.ahead = (behindScopes setting session.ahead).tail ∧
      inner.ahead = after.ahead ∧
      (if setting.listsArguments ((behindScopes setting session.ahead).headD setting.finish)
          named.ahead = true then do
        templateArguments argument
        typeSuffixes
      else typeSuffixes) setting named = (.ok value, inner) := by
  obtain ⟨inner, hinner, rfl⟩ := node_ok h
  simp only [↓reduceIte] at hinner
  obtain ⟨_, qualified, hqualified, hinner⟩ := bind_ok hinner
  obtain ⟨_, inside, hinside, hinner⟩ := bind_ok hinner
  rw [peek_bind] at hinner
  obtain ⟨_, named, hnamed, hinner⟩ := bind_ok hinner
  rw [read_bind, nextIs_bind] at hinner
  have hqualify := markIf_ok hqualified
  change qualified.ahead = setting.dropKind .const session.ahead at hqualify
  have hleads := setting.leads_of_suffix (dropKind_suffix setting .const session.ahead)
  have hscope : inside.ahead = behindScopes setting session.ahead := by
    unfold behindScopes
    rw [← hqualify]
    refine scopeOver_ok hended (hqualify ▸ horderly.leads hleads) ?_ hinside
    rw [hqualify]
    exact templateScopeAhead_isSome_of_ends hlisted hbehind hends
  have hname : named.ahead = (behindScopes setting session.ahead).tail := by
    rw [(typeName_ok hnamed).2, hscope]
  have hhead : setting.head inside = (behindScopes setting session.ahead).headD setting.finish := by
    rw [Setting.head, hscope]
  rw [hhead] at hinner
  exact ⟨named, inner, hname, rfl, hinner⟩

/-- A type ends where the scan of a template argument does, before the comma. -/
theorem typeBody_ahead {room : Nat} {argument : Parse Unit} (hended : setting.Ended)
    {scanRoom : Nat} {listed behind : List Token}
    (hlist : ∀ {session after : Session} {name : Token} {behind : List Token},
      setting.Orderly session.ahead → setting.listsArguments name session.ahead = true →
      (templateList scanRoom name setting).run session.ahead = some ((), behind) →
      templateArguments argument setting session = (.ok (), after) → after.ahead = behind)
    (horderly : setting.Orderly session.ahead)
    (hlisted : (templateList scanRoom ((behindScopes setting session.ahead).headD setting.finish)
      setting).run (behindScopes setting session.ahead).tail = some ((), listed))
    (hbehind : skipArgumentSuffixes? listed = some behind)
    (hends : endsArgument (behind.headD setting.finish).kind = true)
    (h : typeBody room argument {} setting session = (.ok value, after)) :
    after.ahead = behind := by
  obtain ⟨named, inner, hname, hsame, hinner⟩ :=
    typeBody_named hended horderly hlisted hbehind hends h
  have hnames : setting.Orderly named.ahead := by
    rw [hname]
    exact (horderly.leads (setting.leads_of_suffix (behindScopes_suffix setting _))).tail
  rw [← hname] at hlisted
  obtain ⟨listing, hlisting, hsuffixes⟩ :=
    nameArguments_ok (fun hlists => hlist hnames hlists hlisted) hlisted hinner
  have horderly' : setting.Orderly listing.ahead := by
    rw [hlisting]
    exact hnames.leads (templateList_leads setting scanRoom _ _ _ hlisted)
  rw [← hsame]
  exact typeSuffixes_ok hended horderly' hsuffixes (hlisting ▸ hbehind) hends

theorem typeBody_ok {room : Nat} {argument : Parse Unit} (hended : setting.Ended)
    {scanRoom : Nat} {again : Bool} {rest : List Token}
    (hlist : ∀ {session after : Session} {name : Token} {behind : List Token},
      setting.Orderly session.ahead → setting.listsArguments name session.ahead = true →
      (templateList scanRoom name setting).run session.ahead = some ((), behind) →
      templateArguments argument setting session = (.ok (), after) → after.ahead = behind)
    (horderly : setting.Orderly session.ahead)
    (hscan : (templateArgument (templateList scanRoom) setting).run session.ahead =
      some (again, rest))
    (hrest : again = true ∨ endsArgument (rest.headD setting.finish).kind = true)
    (h : typeBody room argument {} setting session = (.ok value, after)) :
    (setting.head after).kind = .comma ∧ again = true ∧ rest = after.ahead.tail ∨
      (setting.head after).kind ≠ .comma ∧ again = false ∧ rest = after.ahead := by
  rw [templateArgument_run] at hscan
  dsimp only at hscan
  split at hscan
  case isFalse => cases hscan
  obtain ⟨⟨_, listed⟩, hlisted, hsuffixes⟩ := Option.bind_eq_some_iff.mp hscan
  obtain ⟨behind, hbehind, hcomma⟩ := Option.map_eq_some_iff.mp hsuffixes
  by_cases hkind : (behind.headD setting.finish).kind = .comma
  · have hends : endsArgument (behind.headD setting.finish).kind = true := hkind ▸ rfl
    have hahead := typeBody_ahead hended hlist horderly hlisted hbehind hends h
    rw [if_pos hkind] at hcomma
    cases hcomma
    rw [Setting.head, hahead]
    exact .inl ⟨hkind, rfl, rfl⟩
  · rw [if_neg hkind] at hcomma
    obtain ⟨rfl, rfl⟩ := Prod.mk.inj hcomma
    have hends : endsArgument (behind.headD setting.finish).kind = true := by simpa using hrest
    have hahead := typeBody_ahead hended hlist horderly hlisted hbehind hends h
    rw [Setting.head, hahead]
    exact .inr ⟨hkind, rfl, rfl⟩

theorem endsArgument_of_afterGreater? {tokens : List Token}
    (h : (setting.afterGreater? tokens).isSome = true) :
    endsArgument (tokens.headD setting.finish).kind = true := by
  cases tokens with
  | nil => cases h
  | cons token rest =>
      unfold Setting.afterGreater? at h
      unfold endsArgument
      rw [List.headD_cons]
      dsimp only at h
      split at h
      · rename_i hkind
        rw [hkind]
        rfl
      · rename_i hkind
        rw [hkind]
        rfl
      · split at h
        · rename_i hgreater
          rw [hgreater, Bool.or_true]
        · cases h

/-- Arguments are read as they are scanned, as long as each of them is. -/
theorem arguments_ok {item : Parse Unit} {scan : Scan Bool} {listed : List Token} {count : Nat}
    (hscans : scan.Leads setting)
    (hitem : ∀ {session after : Session} {again : Bool} {rest : List Token},
      setting.Orderly session.ahead → (scan setting).run session.ahead = some (again, rest) →
      again = true ∨ endsArgument (rest.headD setting.finish).kind = true →
      item setting session = (.ok (), after) →
      (setting.head after).kind = .comma ∧ again = true ∧ rest = after.ahead.tail ∨
        (setting.head after).kind ≠ .comma ∧ again = false ∧ rest = after.ahead)
    (horderly : setting.Orderly session.ahead)
    (hscan : (Scan.repeatUpTo count scan setting).run session.ahead = some ((), listed))
    (hlisted : endsArgument (listed.headD setting.finish).kind = true)
    (h : repeatUpTo count (do
      item
      if ← nextIs .comma then
        skip
        return true
      else return false) setting session = (.ok value, after)) : after.ahead = listed := by
  induction count generalizing session with
  | zero =>
      cases hscan
      cases h
      rfl
  | succ count ih =>
      rw [repeatUpTo_run] at hscan
      obtain ⟨⟨again, rest⟩, hfirst, hmore⟩ := Option.bind_eq_some_iff.mp hscan
      unfold repeatUpTo at h
      obtain ⟨again', middle, hbody, hrest⟩ := bind_ok h
      obtain ⟨_, named, hnamed, hbody⟩ := bind_ok hbody
      rw [nextIs_bind] at hbody
      have hends : again = true ∨ endsArgument (rest.headD setting.finish).kind = true := by
        cases again with
        | true => exact .inl rfl
        | false =>
            cases hmore
            exact .inr hlisted
      rcases hitem horderly hfirst hends hnamed with ⟨hcomma, rfl, rfl⟩ | ⟨hcomma, rfl, rfl⟩
      · simp only [hcomma, decide_true, ↓reduceIte] at hbody
        cases hbody
        refine ih ?_ ?_ hrest
        · exact horderly.leads (hscans _ _ hfirst)
        · exact hmore
      · simp only [hcomma, decide_false, Bool.false_eq_true, ↓reduceIte] at hbody
        cases hbody
        cases hmore
        cases hrest
        rfl

theorem dataType_ok (hended : setting.Ended) {room scanRoom : Nat}
    {again : Bool} {rest : List Token}
    (hlists : ∀ {smaller} {session after : Session} {name : Token} {behind : List Token},
      room = smaller + 1 → setting.Orderly session.ahead →
      setting.listsArguments name session.ahead = true →
      (templateList scanRoom name setting).run session.ahead = some ((), behind) →
      templateArguments (dataType smaller {}) setting session = (.ok (), after) →
      after.ahead = behind)
    (horderly : setting.Orderly session.ahead)
    (hscan : (templateArgument (templateList scanRoom) setting).run session.ahead =
      some (again, rest))
    (hrest : again = true ∨ endsArgument (rest.headD setting.finish).kind = true)
    (h : dataType room {} setting session = (.ok value, after)) :
    (setting.head after).kind = .comma ∧ again = true ∧ rest = after.ahead.tail ∨
      (setting.head after).kind ≠ .comma ∧ again = false ∧ rest = after.ahead := by
  cases room with
  | zero =>
      change node .dataType (fail .maximumNestingDepth) setting session = _ at h
      obtain ⟨inner, hinner, -⟩ := node_ok h
      cases hinner
  | succ room => exact typeBody_ok hended (hlists rfl) horderly hscan hrest h

/-- Template arguments are read as they are scanned, whatever room either has. -/
theorem templateArguments_ok (hended : setting.Ended) {room scanRoom : Nat} {name : Token}
    {behind : List Token} (horderly : setting.Orderly session.ahead)
    (hlists : setting.listsArguments name session.ahead = true)
    (hscan : (templateList scanRoom name setting).run session.ahead = some ((), behind))
    (h : templateArguments (dataType room {}) setting session = (.ok value, after)) :
    after.ahead = behind := by
  induction room using Nat.strongRecOn generalizing scanRoom name behind session after value with
  | ind room ih =>
      cases scanRoom with
      | zero =>
          rw [templateList_zero hlists] at hscan
          cases hscan
      | succ scanRoom =>
          rw [templateList_succ hlists] at hscan
          obtain ⟨⟨_, listed⟩, hlisted, hclosing⟩ := Option.bind_eq_some_iff.mp hscan
          obtain ⟨behind, hbehind, hend⟩ := Option.map_eq_some_iff.mp hclosing
          cases hend
          obtain ⟨_, opened, hopened, h⟩ := bind_ok h
          obtain ⟨_, closing, hclosed, h⟩ := bind_ok h
          have hahead := (require_ok hopened).2
          have hsame : closing.ahead = listed := by
            unfold commaSeparated repeatRule at hclosed
            rw [ahead_bind, hahead] at hclosed
            refine arguments_ok (templateArgument_leads (templateList_leads setting scanRoom)) ?_ ?_ ?_
              (endsArgument_of_afterGreater? (by simp [hbehind])) hclosed
            · intro session after again rest horderly hscan hrest hitem
              refine dataType_ok hended ?_ horderly hscan hrest hitem
              rintro smaller session after name behind rfl horderly hlists hscan h
              exact ih smaller (Nat.lt_succ_self _) horderly hlists hscan h
            · rw [hahead]
              exact horderly.tail
            · rw [hahead]
              exact hlisted
          rw [read_bind, ahead_bind, hsame] at h
          rw [hbehind] at h
          cases h
          rfl

/-! ## Marks behind types -/

/-- A template instance that is seen to be a scope is read up to the mark behind it. -/
theorem templateScope_mark (hended : setting.Ended) {room : Nat} {named listed : Session}
    (horderly : setting.Orderly session.ahead)
    (hsees : ((templateScopeAhead room setting).run session.ahead).isSome = true)
    (hname : identifier setting session = (.ok (), named))
    (hlist : templateArguments (dataType room {}) setting named = (.ok (), listed)) :
    (setting.head listed).kind = .scope := by
  obtain ⟨behind, hlists, hscan, hscope⟩ := templateScopeAhead_some hsees
  have hahead := (identifier_ok hname).2
  rw [← hahead] at hlists hscan
  have hnamed : setting.Orderly named.ahead := hahead ▸ horderly.tail
  rw [Setting.head, templateArguments_ok hended hnamed hlists hscan hlist]
  exact hscope

theorem typedListAhead_some {room : Nat} {tokens : List Token}
    (h : ((typedListAhead room setting).run tokens).isSome = true) :
    (tokens.headD setting.finish).isTypeName = true ∧ ∃ behind,
      (templateList room (tokens.headD setting.finish) setting).run tokens.tail =
        some ((), behind) ∧
      (behind.headD setting.finish).kind = .assign := by
  unfold typedListAhead at h
  rw [Scan.next_bind] at h
  cases hname : (tokens.headD setting.finish).isTypeName with
  | false =>
      simp only [hname, Bool.not_false, ↓reduceIte] at h
      cases h
  | true =>
      simp only [hname, Bool.not_true, Bool.false_eq_true, ↓reduceIte] at h
      rw [Scan.bind_run] at h
      cases hlist : (templateList room (tokens.headD setting.finish) setting).run tokens.tail with
      | none =>
          rw [hlist] at h
          cases h
      | some seen =>
          rw [hlist, Option.bind_some, Scan.bind_run, Scan.require_run] at h
          split at h
          · rename_i hassign
            exact ⟨rfl, seen.2, rfl, hassign⟩
          · cases h

theorem scopeAhead_isSome (room : Nat) (setting : Setting) (tokens : List Token) :
    ((scopeAhead room setting).run tokens).isSome =
      ((tokens.headD setting.finish).kind = .scope ||
        ((tokens.headD setting.finish).kind = .identifier &&
          (tokens.tail.headD setting.finish).kind = .scope) ||
        ((templateScopeAhead room setting).run tokens).isSome) := by
  unfold scopeAhead
  rw [Scan.get_bind, Scan.next_bind]
  by_cases hscope : (tokens.headD setting.finish).kind = .scope
  · simp only [hscope, ↓reduceIte, decide_true, Bool.true_or]
    rfl
  · simp only [hscope, ↓reduceIte, decide_false, Bool.false_or]
    rw [Scan.peek_bind]
    by_cases hname : (tokens.headD setting.finish).kind = .identifier ∧
        (tokens.tail.headD setting.finish).kind = .scope
    · simp only [hname.1, hname.2, TokenKind.isIdentifier, decide_true, Bool.and_self, ↓reduceIte,
        Bool.true_or]
      rfl
    · have hplain : ((tokens.headD setting.finish).kind.isIdentifier &&
          decide ((tokens.tail.headD setting.finish).kind = .scope)) = false := by
        simpa [TokenKind.isIdentifier] using hname
      have hplain' : (decide ((tokens.headD setting.finish).kind = .identifier) &&
          decide ((tokens.tail.headD setting.finish).kind = .scope)) = false := hplain
      simp only [hplain, hplain', Bool.false_eq_true, ↓reduceIte, Bool.false_or]
      rw [Scan.set_bind]

/-- No scope comes before a name that is the type of a list. -/
theorem scopeAhead_isSome_of_typedList {room scopeRoom : Nat} {tokens : List Token}
    (h : ((typedListAhead room setting).run tokens).isSome = true) :
    ((scopeAhead scopeRoom setting).run tokens).isSome = false := by
  obtain ⟨hname, behind, hlist, hassign⟩ := typedListAhead_some h
  have hfirst : (tokens.headD setting.finish).kind ≠ .scope := by
    intro hscope
    unfold Token.isTypeName at hname
    rw [hscope] at hname
    cases hname
  have hmark : (tokens.tail.headD setting.finish).kind ≠ .scope := by
    intro hscope
    have hplain : setting.listsArguments (tokens.headD setting.finish) tokens.tail = false := by
      unfold Setting.listsArguments
      rw [hscope]
      exact Bool.and_false _
    rw [templateList_plain hplain] at hlist
    cases hlist
    rw [hscope] at hassign
    cases hassign
  cases hsees : ((scopeAhead scopeRoom setting).run tokens).isSome with
  | false => rfl
  | true =>
      unfold scopeAhead at hsees
      rw [Scan.get_bind, Scan.next_bind] at hsees
      simp only [hfirst, ↓reduceIte] at hsees
      rw [Scan.peek_bind] at hsees
      simp only [hmark, decide_false, Bool.and_false, Bool.false_eq_true, ↓reduceIte] at hsees
      rw [Scan.set_bind] at hsees
      obtain ⟨other, -, hother, hscope⟩ := templateScopeAhead_some hsees
      cases templateList_unique hlist hother
      rw [hscope] at hassign
      cases hassign

/-- The type of a list is read up to the equals sign behind it. -/
theorem typedList_mark (hended : setting.Ended) {room scanRoom : Nat}
    (horderly : setting.Orderly session.ahead)
    (hsees : ((typedListAhead scanRoom setting).run session.ahead).isSome = true)
    (h : dataType room { const := false } setting session = (.ok value, after)) :
    (setting.head after).kind = .assign := by
  cases room with
  | zero =>
      change node .dataType (fail .maximumNestingDepth) setting session = _ at h
      obtain ⟨inner, hinner, -⟩ := node_ok h
      cases hinner
  | succ room =>
      obtain ⟨-, behind, hlist, hassign⟩ := typedListAhead_some hsees
      change typeBody room (dataType room {}) { const := false } setting session = _ at h
      obtain ⟨inner, hinner, rfl⟩ := node_ok h
      simp only [Bool.false_eq_true, ↓reduceIte] at hinner
      obtain ⟨_, inside, hinside, hinner⟩ := bind_ok hinner
      rw [peek_bind] at hinner
      obtain ⟨_, named, hnamed, hinner⟩ := bind_ok hinner
      rw [read_bind, nextIs_bind] at hinner
      have hscope : inside.ahead = session.ahead := by
        unfold scopeOver at hinside
        rw [sees_bind] at hinside
        change (if ((scopeAhead room setting).run session.ahead).isSome = true then _ else _ :
          Parse Unit) setting _ = _ at hinside
        rw [scopeAhead_isSome_of_typedList hsees] at hinside
        cases hinside
        rfl
      have hhead : setting.head inside = session.ahead.headD setting.finish := by
        rw [Setting.head, hscope]
      have hname : named.ahead = session.ahead.tail := by
        rw [(typeName_ok hnamed).2, hscope]
      have hnames : setting.Orderly named.ahead := hname ▸ horderly.tail
      rw [hhead] at hinner
      rw [← hname] at hlist
      obtain ⟨listing, hlisting, hsuffixes⟩ := nameArguments_ok
        (fun hlists => templateArguments_ok hended hnames hlists hlist) hlist hinner
      have hkind : (setting.head listing).kind = .assign := by
        rw [Setting.head, hlisting]
        exact hassign
      cases typeSuffixes_still hkind (by simp) (by simp) hsuffixes
      exact hkind

end Parse

end ScriptSyntax.Grammar
