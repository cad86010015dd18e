import ScriptSyntax.Proofs.Reading

/-!
# Tokens that stand for each other

Two sources may be written differently and still be made of the same words: then their tokens stand
for each other, one by one, and every scan does the same on both.
-/

namespace ScriptSyntax

/-- The tokens have the same kind and text; they may stand in different places. -/
structure Token.Alike (token other : Token) : Prop where
  kind : other.kind = token.kind
  text : other.text = token.text

namespace Token.Alike

variable {token other : Token}

theorem refl (token : Token) : token.Alike token :=
  ⟨rfl, rfl⟩

theorem isTypeName (h : token.Alike other) : other.isTypeName = token.isTypeName := by
  unfold Token.isTypeName
  rw [h.kind]

theorem isWord (h : token.Alike other) (word : ContextualWord) :
    other.isWord word = token.isWord word := by
  unfold Token.isWord
  rw [h.kind, h.text]

theorem hasRole (h : token.Alike other) (role : ContextualRole) :
    other.hasRole role = token.hasRole role := by
  unfold Token.hasRole
  rw [h.kind, h.text]

theorem isAccessModifier (h : token.Alike other) :
    other.isAccessModifier = token.isAccessModifier := by
  unfold Token.isAccessModifier
  rw [h.kind]

end Token.Alike

namespace Grammar

/-- Lists of tokens of two sources that stand for each other. -/
structure Correspondence where
  left : Setting
  right : Setting
  pairs : List Token → List Token → Prop
  options_eq : right.options = left.options
  application_eq : right.application = left.application
  ended : left.Ended
  finish : left.finish.Alike right.finish
  reads : ∀ {tokens others}, pairs tokens others → left.Reads tokens ∧ right.Reads others
  nil : pairs [] []
  nil_iff : ∀ {tokens others}, pairs tokens others → (others = [] ↔ tokens = [])
  heads : ∀ {token other tokens others}, pairs (token :: tokens) (other :: others) →
    token.Alike other
  tails : ∀ {tokens others}, pairs tokens others → pairs tokens.tail others.tail
  greater : ∀ {tokens others}, pairs tokens others →
    Option.Rel pairs (left.afterGreater? tokens) (right.afterGreater? others)
  bytes : ∀ {tokens others}, pairs tokens others → byteCount others = byteCount tokens

namespace Correspondence

/-- Lists that correspond are both empty, or start with tokens that are alike. -/
inductive Split (C : Correspondence) : List Token → List Token → Prop
  | nil : Split C [] []
  | cons {token other tokens others} (halike : token.Alike other) (hrest : C.pairs tokens others)
      (hall : C.pairs (token :: tokens) (other :: others)) :
      Split C (token :: tokens) (other :: others)

variable {α β γ δ : Type} {C : Correspondence} {tokens others : List Token} {token other : Token}

theorem split (h : C.pairs tokens others) : C.Split tokens others := by
  have hiff := C.nil_iff h
  match tokens, others with
  | [], [] => exact .nil
  | [], other :: others => exact absurd (hiff.mpr rfl) (by simp)
  | token :: tokens, [] => exact absurd (hiff.mp rfl) (by simp)
  | token :: tokens, other :: others => exact .cons (C.heads h) (C.tails h) h

theorem head (h : C.pairs tokens others) :
    (tokens.headD C.left.finish).Alike (others.headD C.right.finish) := by
  cases C.split h with
  | nil => exact C.finish
  | cons halike => exact halike

/-- A token that is there is not empty on either side. -/
theorem solid (h : C.pairs tokens others) (hne : tokens ≠ []) :
    (tokens.headD C.left.finish).span.start < (tokens.headD C.left.finish).span.stop ∧
      (others.headD C.right.finish).span.start < (others.headD C.right.finish).span.stop := by
  obtain ⟨hleft, hright⟩ := C.reads h
  cases C.split h with
  | nil => exact absurd rfl hne
  | cons => exact ⟨hleft.start_lt_stop, hright.start_lt_stop⟩

theorem isTemplateName (h : token.Alike other) :
    C.right.isTemplateName other = C.left.isTemplateName token := by
  unfold Setting.isTemplateName
  rw [h.kind, h.text, C.options_eq]

/-! ## Functions on tokens -/

theorem skipScopes_pairs (h : C.pairs tokens others) :
    C.pairs (skipScopes tokens) (skipScopes others) := by
  fun_induction skipScopes tokens generalizing others with
  | case1 name separator rest hscope ih =>
      cases split h with
      | cons hname hrest =>
          cases split hrest with
          | cons hseparator hbehind =>
              rw [skipScopes, if_pos ⟨hname.kind.trans hscope.1, hseparator.kind.trans hscope.2⟩]
              exact ih hbehind
  | case2 name separator rest hscope =>
      cases split h with
      | cons hname hrest hall =>
          cases split hrest with
          | cons hseparator =>
              rw [skipScopes, if_neg (by rwa [hname.kind, hseparator.kind])]
              exact hall
  | case3 tokens hshort =>
      cases split h with
      | nil => exact h
      | cons hname hrest hall =>
          cases split hrest with
          | nil => exact hall
          | cons => exact (hshort _ _ _ rfl).elim

theorem skipGroup?_pairs (level : Nat) (h : C.pairs tokens others) :
    Option.Rel C.pairs (skipGroup? level tokens) (skipGroup? level others) := by
  induction tokens generalizing level others with
  | nil =>
      cases split h
      exact .none
  | cons token tokens ih =>
      cases split h with
      | cons halike hrest =>
          unfold skipGroup?
          rw [halike.kind]
          split
          · exact ih _ hrest
          · exact .some hrest
          · exact ih _ hrest
          · exact ih _ hrest

theorem skipArgumentSuffixes?_pairs (h : C.pairs tokens others) :
    Option.Rel C.pairs (skipArgumentSuffixes? tokens) (skipArgumentSuffixes? others) := by
  induction hlength : tokens.length using Nat.strongRecOn generalizing tokens others with
  | _ length ih =>
  subst hlength
  cases split h with
  | nil => exact .some C.nil
  | @cons token other rest others halike hrest hall =>
      rw [skipArgumentSuffixes?.eq_def (token :: rest), skipArgumentSuffixes?.eq_def (other :: others)]
      dsimp only
      rw [halike.kind]
      generalize token.kind = kind
      cases split hrest with
      | nil =>
          split
          · exact ih _ (by simp) C.nil rfl
          · rename_i heq
            cases heq
          · exact .none
          · exact .some hall
      | @cons close close' rest others hclose hbehind =>
          have hlt : rest.length < (token :: close :: rest).length := by
            rw [List.length_cons, List.length_cons]
            omega
          split
          · exact ih _ (by simp) hrest rfl
          · rename_i heq
            cases heq
            rw [hclose.kind]
            split
            · exact ih _ hlt hbehind rfl
            · exact .none
          · rename_i heq
            cases heq
          · split <;> simp_all

theorem skipSuffixes?_pairs (h : C.pairs tokens others) :
    Option.Rel C.pairs (skipSuffixes? tokens) (skipSuffixes? others) := by
  induction hlength : tokens.length using Nat.strongRecOn generalizing tokens others with
  | _ length ih =>
  subst hlength
  cases split h with
  | nil => exact .some C.nil
  | @cons token other rest others halike hrest hall =>
      rw [skipSuffixes?.eq_def (token :: rest), skipSuffixes?.eq_def (other :: others)]
      dsimp only
      rw [halike.kind]
      generalize token.kind = kind
      cases split hrest with
      | nil =>
          split
          · rename_i heq
            cases heq
          · exact .some C.nil
          · exact ih _ (by simp) C.nil rfl
          · rename_i heq
            cases heq
          · exact .none
          · exact .some hall
      | @cons second second' rest others hsecond hbehind =>
          have hlt : rest.length < (token :: second :: rest).length := by
            rw [List.length_cons, List.length_cons]
            omega
          split
          · rename_i heq
            cases heq
            rw [hsecond.kind]
            split
            · exact ih _ hlt hbehind rfl
            · exact ih _ (by simp) hrest rfl
          · rename_i heq
            cases heq
          · exact ih _ (by simp) hrest rfl
          · rename_i heq
            cases heq
            rw [hsecond.kind]
            split
            · exact ih _ hlt hbehind rfl
            · exact .none
          · rename_i heq
            cases heq
          · split <;> simp_all

theorem dropWhile_pairs {test : Token → Bool}
    (htest : ∀ {token other : Token}, token.Alike other → test other = test token)
    (h : C.pairs tokens others) : C.pairs (tokens.dropWhile test) (others.dropWhile test) := by
  induction tokens generalizing others with
  | nil =>
      cases split h
      exact h
  | cons token rest ih =>
      cases split h with
      | cons halike hrest hall =>
          rw [List.dropWhile_cons, List.dropWhile_cons, htest halike]
          split
          · exact ih hrest
          · exact hall

theorem skipBlock_pairs (level : Nat) (h : C.pairs tokens others) :
    C.pairs (skipBlock level tokens) (skipBlock level others) := by
  induction tokens generalizing level others with
  | nil =>
      cases split h
      exact h
  | cons token rest ih =>
      cases split h with
      | cons halike hrest =>
          unfold skipBlock
          rw [halike.kind]
          split
          · exact ih _ hrest
          · exact hrest
          · exact ih _ hrest
          · exact ih _ hrest

theorem nextStop_pairs (inBraces : Bool) (h : C.pairs tokens others) :
    C.pairs (nextStop inBraces tokens) (nextStop inBraces others) := by
  refine dropWhile_pairs (fun halike => ?_) h
  unfold isStop
  rw [halike.kind]

theorem resume_pairs (inBraces : Bool) (h : C.pairs tokens others) :
    C.pairs (resume inBraces tokens) (resume inBraces others) := by
  have hstop := nextStop_pairs inBraces h
  unfold resume
  generalize nextStop inBraces tokens = stop at hstop
  generalize nextStop inBraces others = stop' at hstop
  cases split hstop with
  | nil => exact C.nil
  | cons halike hrest hall =>
      dsimp only
      rw [halike.kind]
      split
      · exact hrest
      · exact skipBlock_pairs 0 hrest
      · exact hall

theorem namespaceOpening_pairs (h : C.pairs tokens others) :
    C.pairs (namespaceOpening tokens) (namespaceOpening others) := by
  have hskipped := skipScopes_pairs h
  unfold namespaceOpening
  generalize skipScopes tokens = skipped at hskipped
  generalize skipScopes others = skipped' at hskipped
  cases split hskipped with
  | nil => exact C.nil
  | cons hname hrest =>
      cases split hrest with
      | nil => exact C.nil
      | cons hbrace hbehind hall =>
          dsimp only
          rw [hname.kind, hbrace.kind]
          split
          · exact hall
          · exact C.nil

/-- Where the two paths end, the last names are alike and the tokens behind them correspond. -/
theorem pathEnd_pairs {name name' : Token} (hname : name.Alike name')
    (h : C.pairs tokens others) :
    (pathEnd name tokens).1.Alike (pathEnd name' others).1 ∧
      C.pairs (pathEnd name tokens).2 (pathEnd name' others).2 := by
  induction hlength : tokens.length using Nat.strongRecOn generalizing name name' tokens others with
  | _ length ih =>
  subst hlength
  cases split h with
  | nil => exact ⟨hname, C.nil⟩
  | @cons token other rest others halike hrest hall =>
      cases split hrest with
      | nil =>
          rw [pathEnd, pathEnd, halike.kind]
          split
          · exact ⟨hname, C.nil⟩
          · exact ⟨hname, hall⟩
      | @cons second second' rest others hsecond hbehind =>
          have hlt : rest.length < (token :: second :: rest).length := by
            rw [List.length_cons, List.length_cons]
            omega
          rw [pathEnd, pathEnd, halike.kind, hsecond.kind]
          split
          · split
            · exact ih _ hlt hsecond hbehind rfl
            · exact ⟨hname, hrest⟩
          · exact ⟨hname, hall⟩

/-! ## Scans -/

/-- The two scans do the same on lists of tokens that correspond. -/
def Scans (C : Correspondence) (values : α → β → Prop) (scan : Scan α) (scan' : Scan β) : Prop :=
  ∀ tokens others, C.pairs tokens others →
    Option.Rel (fun seen seen' => values seen.1 seen'.1 ∧ C.pairs seen.2 seen'.2)
      ((scan C.left).run tokens) ((scan' C.right).run others)

/-- The scan does the same on both sides. -/
abbrev Same (C : Correspondence) (scan : Scan α) : Prop :=
  C.Scans Eq scan scan

variable {values : α → β → Prop} {values' : γ → δ → Prop}

theorem Scans.bind {scan : Scan α} {scan' : Scan β} {next : α → Scan γ} {next' : β → Scan δ}
    (hscan : C.Scans values scan scan')
    (hnext : ∀ value value', values value value' → C.Scans values' (next value) (next' value')) :
    C.Scans values' (scan >>= next) (scan' >>= next') := by
  intro tokens others h
  rw [Scan.bind_run, Scan.bind_run]
  have hseen := hscan tokens others h
  generalize (scan C.left).run tokens = seen at hseen
  generalize (scan' C.right).run others = seen' at hseen
  cases hseen with
  | none => exact .none
  | some hvalues => exact hnext _ _ hvalues.1 _ _ hvalues.2

/-- One scan after the other. -/
theorem Same.bind {scan : Scan α} {next : α → Scan γ} {next' : α → Scan δ} (hscan : C.Same scan)
    (hnext : ∀ value, C.Scans values' (next value) (next' value)) :
    C.Scans values' (scan >>= next) (scan >>= next') := by
  refine Scans.bind hscan ?_
  rintro value _ rfl
  exact hnext value

theorem scans_pure {value : α} {value' : β} (h : values value value') :
    C.Scans values (pure value) (pure value') :=
  fun _ _ hpairs => .some ⟨h, hpairs⟩

theorem scans_failure : C.Scans values (failure : Scan α) (failure : Scan β) :=
  fun _ _ _ => .none

theorem scans_peek : C.Scans Token.Alike Scan.peek Scan.peek :=
  fun _ _ hpairs => .some ⟨head hpairs, hpairs⟩

theorem scans_next : C.Scans Token.Alike Scan.next Scan.next :=
  fun _ _ hpairs => .some ⟨head hpairs, C.tails hpairs⟩

theorem scans_setting : C.Scans (fun setting setting' => setting = C.left ∧ setting' = C.right)
    (read : Scan Setting) (read : Scan Setting) :=
  fun _ _ hpairs => .some ⟨⟨rfl, rfl⟩, hpairs⟩

theorem scans_get : C.Scans C.pairs (get : Scan (List Token)) (get : Scan (List Token)) :=
  fun _ _ hpairs => .some ⟨hpairs, hpairs⟩

theorem scans_set (h : C.pairs tokens others) :
    C.Scans Eq (set tokens : Scan PUnit) (set others : Scan PUnit) :=
  fun _ _ _ => .some ⟨rfl, h⟩

theorem same_skip : C.Same Scan.skip :=
  fun _ _ hpairs => .some ⟨rfl, C.tails hpairs⟩

theorem same_modify {change : List Token → List Token}
    (hchange : ∀ {tokens others}, C.pairs tokens others → C.pairs (change tokens) (change others)) :
    C.Same (modify change : Scan PUnit) :=
  fun _ _ hpairs => .some ⟨rfl, hchange hpairs⟩

theorem scans_update {change change' : List Token → Option (List Token)}
    (hchange : ∀ {tokens others}, C.pairs tokens others →
      Option.Rel C.pairs (change tokens) (change' others)) :
    C.Scans Eq (Scan.update change) (Scan.update change') := by
  intro tokens others h
  rw [Scan.update_run, Scan.update_run]
  have hchanged := hchange h
  generalize change tokens = changed at hchanged
  generalize change' others = changed' at hchanged
  cases hchanged with
  | none => exact .none
  | some hpairs => exact .some ⟨rfl, hpairs⟩

theorem same_update {change : List Token → Option (List Token)}
    (hchange : ∀ {tokens others}, C.pairs tokens others →
      Option.Rel C.pairs (change tokens) (change others)) :
    C.Same (Scan.update change) :=
  scans_update hchange

/-- A test that tokens pass alike. -/
theorem Scans.ite {condition condition' : Prop} [Decidable condition] [Decidable condition']
    {yes no : Scan α} {yes' no' : Scan β} (hcondition : condition' ↔ condition)
    (hyes : C.Scans values yes yes') (hno : C.Scans values no no') :
    C.Scans values (if condition then yes else no) (if condition' then yes' else no') := by
  by_cases h : condition
  · rw [if_pos h, if_pos (hcondition.mpr h)]
    exact hyes
  · rw [if_neg h, if_neg (mt hcondition.mp h)]
    exact hno

/-- A test that ends the scan unless it is passed, then what follows. -/
theorem Scans.guarded {condition condition' : Prop} [Decidable condition] [Decidable condition']
    {next : Scan α} {next' : Scan β} (hcondition : condition' ↔ condition)
    (hnext : C.Scans values next next') :
    C.Scans values (if condition then (failure : Scan PUnit) >>= fun _ => next else next)
      (if condition' then (failure : Scan PUnit) >>= fun _ => next' else next') :=
  Scans.ite hcondition (fun _ _ _ => .none) hnext

theorem same_require (kind : TokenKind) : C.Same (Scan.require kind) := by
  refine Scans.bind scans_peek fun token other halike => ?_
  exact Scans.ite (by rw [halike.kind]) same_skip scans_failure

theorem same_requireIdentifier : C.Same Scan.requireIdentifier := by
  refine Scans.bind scans_peek fun token other halike => ?_
  exact Scans.ite (by rw [halike.kind]) same_skip scans_failure

theorem same_skipIf {test : Token → Bool}
    (htest : ∀ {token other : Token}, token.Alike other → test other = test token) :
    C.Same (Scan.skipIf test) := by
  refine Scans.bind scans_peek fun token other halike => ?_
  exact Scans.ite (by rw [htest halike]) same_skip (scans_pure rfl)

theorem same_skipKind (kind : TokenKind) : C.Same (Scan.skipKind kind) :=
  same_skipIf fun halike => by rw [halike.kind]

theorem scans_passes {scan scan' : Scan Unit} (hscan : C.Scans Eq scan scan') :
    C.Scans Eq (Scan.passes scan) (Scan.passes scan') := by
  intro tokens others h
  rw [Scan.passes_run, Scan.passes_run]
  have hseen := hscan tokens others h
  generalize (scan C.left).run tokens = seen at hseen
  generalize (scan' C.right).run others = seen' at hseen
  cases hseen with
  | none => exact .some ⟨rfl, h⟩
  | some hvalues => exact .some ⟨rfl, hvalues.2⟩

theorem same_repeatUpTo {body : Scan Bool} (hbody : C.Same body) (count : Nat) :
    C.Same (Scan.repeatUpTo count body) := by
  induction count with
  | zero => exact scans_pure rfl
  | succ count ih => exact hbody.bind fun again => Scans.ite Iff.rfl ih (scans_pure rfl)

theorem same_repeatScan {body : Scan Bool} (hbody : C.Same body) : C.Same (Scan.repeatScan body) := by
  refine Scans.bind scans_get fun tokens others hpairs => ?_
  rw [C.bytes hpairs]
  exact same_repeatUpTo hbody _

/-! ## Types -/

theorem same_templateArgument {list : Token → Scan Unit}
    (hlist : ∀ {name name' : Token}, name.Alike name' → C.Scans Eq (list name) (list name')) :
    C.Same (templateArgument list) := by
  refine (same_skipKind _).bind fun _ => (same_skipKind _).bind fun _ =>
    (same_modify skipScopes_pairs).bind fun _ => ?_
  refine Scans.bind scans_next fun name name' hname => ?_
  refine Scans.guarded (by rw [hname.isTypeName]) ?_
  refine Scans.bind (hlist hname) fun _ _ _ => (same_update skipArgumentSuffixes?_pairs).bind fun _ => ?_
  refine Scans.bind scans_peek fun token other halike => ?_
  exact Scans.ite (by rw [halike.kind]) (same_skip.bind fun _ => scans_pure rfl) (scans_pure rfl)

theorem templateList_scans (room : Nat) {name name' : Token} (hname : name.Alike name') :
    C.Scans Eq (templateList room name) (templateList room name') := by
  induction room generalizing name name' with
  | zero =>
      refine Scans.bind scans_setting ?_
      rintro _ _ ⟨rfl, rfl⟩
      refine Scans.bind scans_peek fun token other halike => ?_
      exact Scans.ite (by rw [C.isTemplateName hname, halike.kind]) scans_failure (scans_pure rfl)
  | succ room ih =>
      refine Scans.bind scans_setting ?_
      rintro _ _ ⟨rfl, rfl⟩
      refine Scans.bind scans_peek fun token other halike => ?_
      refine Scans.ite (by rw [C.isTemplateName hname, halike.kind]) ?_ (scans_pure rfl)
      refine same_skip.bind fun _ => (same_repeatScan (same_templateArgument ih)).bind fun _ => ?_
      refine Scans.bind scans_setting ?_
      rintro _ _ ⟨rfl, rfl⟩
      exact scans_update C.greater

theorem scopedName_scans (room count : Nat) :
    C.Scans Token.Alike (scopedName room count) (scopedName room count) := by
  induction count with
  | zero => exact scans_next
  | succ count ih =>
      refine Scans.bind scans_next fun name name' hname => ?_
      refine Scans.ite (by rw [hname.kind]) (scans_pure hname) ?_
      refine Scans.bind scans_peek fun token other halike => ?_
      refine Scans.ite (by rw [halike.kind]) (same_skip.bind fun _ => ih) ?_
      have hpasses : C.Scans Eq
          (Scan.passes do
            templateList room name
            Scan.require .scope)
          (Scan.passes do
            templateList room name'
            Scan.require .scope) :=
        scans_passes (Scans.bind (templateList_scans room hname) fun _ _ _ => same_require _)
      refine Scans.bind hpasses ?_
      rintro passed _ rfl
      exact Scans.ite Iff.rfl ih (scans_pure hname)

theorem same_typeAhead (room : Nat) : C.Same (typeAhead room) := by
  refine (same_skipKind _).bind fun _ => ?_
  refine Scans.bind scans_peek fun token other halike => ?_
  have hnamed {name name' : Token} (hname : name.Alike name') :
      C.Scans Eq
        (do
          if !(name.isTypeName || name.kind = .keyword .auto) then failure
          templateList room name
          Scan.update skipSuffixes?)
        (do
          if !(name'.isTypeName || name'.kind = .keyword .auto) then failure
          templateList room name'
          Scan.update skipSuffixes?) := by
    refine Scans.guarded (by rw [hname.isTypeName, hname.kind]) ?_
    exact Scans.bind (templateList_scans room hname) fun _ _ _ => same_update skipSuffixes?_pairs
  refine Scans.ite (by rw [halike.kind]) (Scans.bind scans_next fun _ _ => hnamed) ?_
  refine (same_skipKind _).bind fun _ => Scans.bind scans_get fun tokens others hpairs => ?_
  rw [C.bytes hpairs]
  exact Scans.bind (scopedName_scans room _) fun _ _ => hnamed

theorem same_templateScopeAhead (room : Nat) : C.Same (templateScopeAhead room) := by
  refine Scans.bind scans_next fun name name' hname => ?_
  refine Scans.bind scans_setting ?_
  rintro _ _ ⟨rfl, rfl⟩
  refine Scans.bind scans_peek fun token other halike => ?_
  refine Scans.guarded (by rw [C.isTemplateName hname, halike.kind]) ?_
  exact Scans.bind (templateList_scans room hname) fun _ _ _ => same_require _

theorem same_scopeAhead (room : Nat) : C.Same (scopeAhead room) := by
  refine Scans.bind scans_get fun start start' hstart => ?_
  refine Scans.bind scans_next fun first first' hfirst => ?_
  refine Scans.ite (by rw [hfirst.kind]) (scans_pure rfl) ?_
  refine Scans.bind scans_peek fun token other halike => ?_
  refine Scans.ite (by rw [hfirst.kind, halike.kind]) (scans_pure rfl) ?_
  exact Scans.bind (scans_set hstart) fun _ _ _ => same_templateScopeAhead room

theorem same_typedListAhead (room : Nat) : C.Same (typedListAhead room) := by
  refine Scans.bind scans_next fun name name' hname => ?_
  refine Scans.guarded (by rw [hname.isTypeName]) ?_
  refine Scans.bind (templateList_scans room hname) fun _ _ _ => ?_
  exact (same_require _).bind fun _ => same_require _

/-! ## Declarations -/

theorem same_variableAhead (room : Nat) : C.Same (variableAhead room) := by
  refine (same_skipIf Token.Alike.isAccessModifier).bind fun _ => (same_typeAhead room).bind fun _ =>
    same_requireIdentifier.bind fun _ => ?_
  refine Scans.bind scans_next fun token other halike => ?_
  rw [halike.kind]
  split
  · exact scans_pure rfl
  · exact scans_pure rfl
  · exact scans_pure rfl
  · refine (same_update (skipGroup?_pairs 0)).bind fun _ => ?_
    refine Scans.bind scans_peek fun after after' hafter => ?_
    exact Scans.ite (by rw [hafter.kind]) scans_failure (scans_pure rfl)
  · exact scans_failure

theorem same_propertyAhead (room : Nat) : C.Same (propertyAhead room) := by
  refine (same_skipIf Token.Alike.isAccessModifier).bind fun _ => (same_typeAhead room).bind fun _ =>
    same_requireIdentifier.bind fun _ => (same_require _).bind fun _ => ?_
  refine Scans.bind scans_peek fun token other halike => ?_
  exact Scans.ite (by rw [halike.kind, halike.isWord, halike.isWord]) scans_failure (scans_pure rfl)

theorem same_constructorAhead : C.Same constructorAhead := by
  refine Scans.bind scans_next fun first first' hfirst => ?_
  refine Scans.bind scans_peek fun token other halike => ?_
  exact Scans.ite (by rw [hfirst.kind, halike.kind]) scans_failure (scans_pure rfl)

theorem same_methodAhead (room : Nat) : C.Same (methodAhead room) := by
  refine (same_skipIf Token.Alike.isAccessModifier).bind fun _ => ?_
  refine (scans_passes same_constructorAhead).bind ?_
  rintro built _ rfl
  refine Scans.ite Iff.rfl (scans_pure rfl) ?_
  refine (same_typeAhead room).bind fun _ => same_requireIdentifier.bind fun _ =>
    (same_require _).bind fun _ => (same_update (skipGroup?_pairs 0)).bind fun _ =>
    (same_skipKind _).bind fun _ => ?_
  refine (same_modify fun h => ?_).bind fun _ => same_require _
  exact dropWhile_pairs (fun halike => halike.hasRole _) h

/-! ## Expressions -/

theorem same_lambdaAhead : C.Same lambdaAhead := by
  refine Scans.bind scans_peek fun token other halike => ?_
  refine Scans.guarded (by rw [halike.isWord]) ?_
  exact same_skip.bind fun _ => (same_require _).bind fun _ =>
    (same_update (skipGroup?_pairs 0)).bind fun _ => same_require _

theorem same_callAhead : C.Same callAhead :=
  (same_skipKind _).bind fun _ => (same_modify skipScopes_pairs).bind fun _ =>
    same_requireIdentifier.bind fun _ => same_require _

theorem same_constructionAhead : C.Same constructionAhead := by
  refine (same_skipKind _).bind fun _ => Scans.bind scans_next fun name name' hname => ?_
  refine Scans.bind scans_setting ?_
  rintro _ _ ⟨rfl, rfl⟩
  refine Scans.bind scans_get fun tokens others hpairs => ?_
  have hends : (if name.kind.isIdentifier then pathEnd name tokens else (name, name :: tokens)).1.Alike
        (if name'.kind.isIdentifier then pathEnd name' others else (name', name' :: others)).1 ∧
      ((if name.kind.isIdentifier then pathEnd name tokens
        else (name, name :: tokens)).2.headD C.left.finish).Alike
        ((if name'.kind.isIdentifier then pathEnd name' others
          else (name', name' :: others)).2.headD C.right.finish) ∧
      ((if name.kind.isIdentifier then pathEnd name tokens
        else (name, name :: tokens)).2.tail.headD C.left.finish).Alike
        ((if name'.kind.isIdentifier then pathEnd name' others
          else (name', name' :: others)).2.tail.headD C.right.finish) := by
    rw [hname.kind]
    split
    · obtain ⟨hlast, hafter⟩ := pathEnd_pairs hname hpairs
      exact ⟨hlast, head hafter, head (C.tails hafter)⟩
    · exact ⟨hname, hname, head hpairs⟩
  generalize (if name.kind.isIdentifier then pathEnd name tokens else (name, name :: tokens)) = seen
    at hends
  generalize (if name'.kind.isIdentifier then pathEnd name' others else (name', name' :: others)) =
    seen' at hends
  obtain ⟨last, after⟩ := seen
  obtain ⟨last', after'⟩ := seen'
  obtain ⟨hlast, hfirst, hsecond⟩ := hends
  refine Scans.ite ?_ scans_failure (scans_pure rfl)
  rw [hlast.isTypeName, isTemplateName hlast, hfirst.kind, hsecond.kind]

end Correspondence

end Grammar

end ScriptSyntax
