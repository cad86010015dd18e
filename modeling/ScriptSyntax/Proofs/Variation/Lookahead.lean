import ScriptSyntax.Proofs.Persistence.Lookahead
import ScriptSyntax.Proofs.Variation

/-!
# Looking ahead under two options

A scan asks for template names only where it has passed a name, for what is ahead then.  So it
answers the same on both sides.
-/

namespace ScriptSyntax.Grammar

/-! ## Scans of tokens alone -/

/-- The scan does not look at the options. -/
class OptionFree {α : Type} (scan : Scan α) : Prop where
  under_eq : ∀ setting options, scan (Setting.under setting options) = scan setting

namespace OptionFree

variable {α β : Type}

theorem run_eq (scan : Scan α) [h : OptionFree scan] (setting : Setting) (options : Options)
    (tokens : List Token) :
    (scan (setting.under options)).run tokens = (scan setting).run tokens := by
  rw [h.under_eq]

instance (value : α) : OptionFree (pure value) :=
  ⟨fun _ _ => rfl⟩

instance : OptionFree (failure : Scan α) :=
  ⟨fun _ _ => rfl⟩

instance : OptionFree Scan.peek :=
  ⟨fun _ _ => rfl⟩

instance : OptionFree Scan.skip :=
  ⟨fun _ _ => rfl⟩

instance (change : List Token → List Token) : OptionFree (modify change : Scan Unit) :=
  ⟨fun _ _ => rfl⟩

instance (scan : Scan α) (next : α → Scan β) [hscan : OptionFree scan]
    [hnext : ∀ value, OptionFree (next value)] : OptionFree (scan >>= next) := by
  constructor
  intro setting options
  funext tokens
  change ((scan >>= next) _).run tokens = ((scan >>= next) _).run tokens
  rw [Scan.bind_run, Scan.bind_run, hscan.under_eq]
  refine congrArg _ (funext fun seen => ?_)
  rw [(hnext seen.1).under_eq]

instance (condition : Prop) [Decidable condition] (yes no : Scan α) [OptionFree yes]
    [OptionFree no] : OptionFree (if condition then yes else no) := by
  split <;> infer_instance

instance : OptionFree Scan.next := by
  unfold Scan.next
  infer_instance

instance (kind : TokenKind) : OptionFree (Scan.require kind) := by
  unfold Scan.require
  infer_instance

instance : OptionFree Scan.requireIdentifier := by
  unfold Scan.requireIdentifier
  infer_instance

instance (test : Token → Bool) : OptionFree (Scan.skipIf test) := by
  unfold Scan.skipIf
  infer_instance

instance (kind : TokenKind) : OptionFree (Scan.skipKind kind) := by
  unfold Scan.skipKind
  infer_instance

instance (change : List Token → Option (List Token)) : OptionFree (Scan.update change) := by
  constructor
  intro setting options
  funext tokens
  change (Scan.update change _).run tokens = (Scan.update change _).run tokens
  rw [Scan.update_run, Scan.update_run]

instance : OptionFree lambdaAhead := by
  unfold lambdaAhead
  infer_instance

instance : OptionFree callAhead := by
  unfold callAhead
  infer_instance

instance : OptionFree constructorAhead := by
  unfold constructorAhead
  infer_instance

end OptionFree

/-! ## Scans side by side -/

namespace Variation

variable (V : Variation)

/-- Fewer bytes than the bound are ahead, in tokens that both sides take in the same way. -/
structure Short (bound : Nat) (tokens : List Token) : Prop where
  fine : V.Fine tokens
  bytes : byteCount tokens < bound

/-- Both sides agree on whether a list of arguments follows the name that was passed. -/
structure Named (bound : Nat) (name : Token) (tokens : List Token) : Prop where
  short : V.Short bound tokens
  lists : V.right.listsArguments name tokens = V.left.listsArguments name tokens

/-- From tokens as they are `here`, the two scans pass the same, to tokens as they are `there`. -/
def Scans {α : Type} (here : List Token → Prop) (there : α → List Token → Prop)
    (scan scan' : Scan α) : Prop :=
  ∀ tokens, here tokens → (scan' V.right).run tokens = (scan V.left).run tokens ∧
    ∀ value behind, (scan V.left).run tokens = some (value, behind) → there value behind

/-- The two scans give the same answer where fewer bytes than the bound are ahead. -/
class SeesAlike (bound : Nat) (scan scan' : Scan Unit) : Prop where
  isSome_eq : ∀ tokens, V.Short bound tokens →
    ((scan' V.right).run tokens).isSome = ((scan V.left).run tokens).isSome

variable {V} {α β : Type} {bound : Nat} {here : List Token → Prop}
  {there : α → List Token → Prop} {scan scan' : Scan α} {tokens behind : List Token} {name : Token}

theorem Short.leads (h : V.Short bound tokens) (hleads : V.left.Leads tokens behind) :
    V.Short bound behind :=
  ⟨h.fine.leads hleads, Nat.lt_of_le_of_lt (h.fine.byteCount_le hleads) h.bytes⟩

theorem Short.suffix (h : V.Short bound tokens) (hsuffix : behind <:+ tokens) :
    V.Short bound behind :=
  h.leads (V.left.leads_of_suffix hsuffix)

/-- Behind the next token, both sides agree on what follows it. -/
theorem Short.named (h : V.Short bound tokens) :
    V.Named bound (tokens.headD V.left.finish) tokens.tail :=
  ⟨h.suffix (List.tail_suffix _), h.fine.lists_head⟩

namespace Scans

theorem bind {next next' : α → Scan β} {last : β → List Token → Prop}
    (hscan : V.Scans here there scan scan')
    (hnext : ∀ value, V.Scans (there value) last (next value) (next' value)) :
    V.Scans here last (scan >>= next) (scan' >>= next') := by
  intro tokens h
  obtain ⟨heq, hthere⟩ := hscan tokens h
  rw [Scan.bind_run, Scan.bind_run, heq]
  cases hrun : (scan V.left).run tokens with
  | none =>
      refine ⟨rfl, ?_⟩
      rintro value behind ⟨⟩
  | some seen => exact hnext seen.1 seen.2 (hthere seen.1 seen.2 hrun)

theorem ite (condition : Prop) [Decidable condition] {yes yes' no no' : Scan α}
    (hyes : V.Scans here there yes yes') (hno : V.Scans here there no no') :
    V.Scans here there (if condition then yes else no) (if condition then yes' else no') := by
  split
  · exact hyes
  · exact hno

/-- A test that ends the scan unless it is passed, then what follows. -/
theorem guarded (condition : Prop) [Decidable condition] {next next' : Scan α}
    (hnext : V.Scans here there next next') :
    V.Scans here there (if condition then (failure : Scan PUnit) >>= fun _ => next else next)
      (if condition then (failure : Scan PUnit) >>= fun _ => next' else next') := by
  refine .ite condition ?_ hnext
  intro tokens _
  refine ⟨rfl, ?_⟩
  rintro value behind ⟨⟩

theorem peek {next next' : Token → Scan α}
    (hnext : ∀ token, V.Scans here there (next token) (next' token)) :
    V.Scans here there (Scan.peek >>= next) (Scan.peek >>= next') :=
  fun tokens h => hnext _ tokens h

theorem get {next next' : List Token → Scan α}
    (hnext : ∀ tokens, V.Scans here there (next tokens) (next' tokens)) :
    V.Scans here there (get >>= next) (get >>= next') :=
  fun tokens h => hnext tokens tokens h

theorem pure {value : α} (h : ∀ tokens, here tokens → there value tokens) :
    V.Scans here there (pure value) (pure value) := by
  intro tokens htokens
  refine ⟨rfl, ?_⟩
  rintro _ _ ⟨⟩
  exact h tokens htokens

theorem free [OptionFree scan] : V.Scans here (fun _ _ => True) scan scan :=
  fun tokens _ => ⟨OptionFree.run_eq scan V.left V.options tokens, fun _ _ _ => trivial⟩

theorem of_suffix [OptionFree scan]
    (hsuffix : ∀ tokens value behind, (scan V.left).run tokens = some (value, behind) →
      behind <:+ tokens) :
    V.Scans (V.Short bound) (fun _ => V.Short bound) scan scan := by
  intro tokens h
  refine ⟨OptionFree.run_eq scan V.left V.options tokens, ?_⟩
  intro value behind hrun
  exact h.suffix (hsuffix tokens value behind hrun)

theorem skip : V.Scans (V.Short bound) (fun _ => V.Short bound) Scan.skip Scan.skip := by
  refine .of_suffix ?_
  rintro tokens _ _ ⟨⟩
  exact List.tail_suffix _

theorem next : V.Scans (V.Short bound) (V.Named bound) Scan.next Scan.next := by
  intro tokens h
  refine ⟨rfl, ?_⟩
  rintro _ _ ⟨⟩
  exact h.named

theorem skipIf (test : Token → Bool) : V.Scans (V.Short bound) (fun _ => V.Short bound)
    (Scan.skipIf test) (Scan.skipIf test) := by
  refine .of_suffix ?_
  intro tokens value behind hrun
  rw [Scan.skipIf_run] at hrun
  cases hrun
  split
  · exact List.tail_suffix _
  · exact List.suffix_rfl

theorem skipKind (kind : TokenKind) : V.Scans (V.Short bound) (fun _ => V.Short bound)
    (Scan.skipKind kind) (Scan.skipKind kind) :=
  .skipIf _

theorem require (kind : TokenKind) : V.Scans (V.Short bound) (fun _ => V.Short bound)
    (Scan.require kind) (Scan.require kind) := by
  refine .of_suffix ?_
  intro tokens value behind hrun
  rw [Scan.require_run] at hrun
  split at hrun
  · cases hrun
    exact List.tail_suffix _
  · cases hrun

end Scans

theorem SeesAlike.of_scans {scan scan' : Scan Unit} {there : Unit → List Token → Prop}
    (h : V.Scans (V.Short bound) there scan scan') : V.SeesAlike bound scan scan' :=
  ⟨fun tokens hshort => by rw [(h tokens hshort).1]⟩

instance {scan scan' : Scan Unit} [h : V.SeesAlike bound scan scan'] :
    V.Agrees bound (Parse.sees scan) (Parse.sees scan') := by
  constructor
  intro n s t hrelated hbytes
  have heq := h.isSome_eq s.ahead ⟨hrelated.fine, hbytes⟩
  change V.Meets n (.ok ((scan V.left).run s.ahead).isSome, s)
    (.ok ((scan' V.right).run t.ahead).isSome, t)
  rw [hrelated.ahead, heq]
  exact hrelated.meets _

/-! ## Types -/

theorem templateArgument_scans {list list' : Token → Scan Unit}
    (hlist : ∀ name, V.Scans (V.Named bound name) (fun _ => V.Short bound) (list name) (list' name))
    (hleads : ∀ name, (list name).Leads V.left) :
    V.Scans (V.Short bound) (fun _ => V.Short bound) (templateArgument list)
      (templateArgument list') := by
  intro tokens h
  refine ⟨?_, fun again behind hrun => h.leads (templateArgument_leads hleads _ _ hrun)⟩
  rw [templateArgument_run, templateArgument_run]
  have hnamed := (h.suffix (behindScopes_suffix V.left tokens)).named
  have heq := (hlist _ _ hnamed).1
  change (ite _ (((list' _ V.right).run _).bind _) none : Option (Bool × List Token)) = _
  dsimp only
  rw [← heq]
  rfl

theorem repeatUpTo_scans {body body' : Scan Bool} (count : Nat)
    (hbody : V.Scans (V.Short bound) (fun _ => V.Short bound) body body') :
    V.Scans (V.Short bound) (fun _ => V.Short bound) (Scan.repeatUpTo count body)
      (Scan.repeatUpTo count body') := by
  induction count with
  | zero => exact .pure fun _ h => h
  | succ count ih => exact hbody.bind fun again => .ite _ ih (.pure fun _ h => h)

/-- Where a list opens there is text ahead of it, so neither side is without room, or both are. -/
theorem Rooms.cases {room room' : Nat} (hrooms : V.Rooms bound 0 room room')
    (hshort : V.Short bound tokens) (hnext : tokens ≠ []) :
    room = 0 ∧ room' = 0 ∨ ∃ less less' shorter, room = less + 1 ∧ room' = less' + 1 ∧
      V.Rooms shorter 0 less less' ∧ V.Short shorter tokens.tail := by
  have hless := hshort.fine.byteCount_lt (Setting.passes_tail hnext)
  have hbytes := hshort.bytes
  obtain ⟨shorter, rfl⟩ : ∃ shorter, bound = shorter + 1 := ⟨bound - 1, by omega⟩
  have htail : V.Short shorter tokens.tail := ⟨hshort.fine.tail, by omega⟩
  cases room with
  | zero =>
      rcases hrooms with ⟨hlevel, rfl⟩ | hample
      · exact .inl ⟨rfl, rfl⟩
      · omega
  | succ less =>
      cases room' with
      | zero =>
          rcases hrooms with ⟨hlevel, heq⟩ | hample
          · cases heq
          · omega
      | succ less' =>
          exact .inr ⟨less, less', shorter, rfl, rfl, hrooms.succ (by omega), htail⟩

theorem ne_nil_of_lists (h : V.left.listsArguments name tokens = true) : tokens ≠ [] := by
  rintro rfl
  unfold Setting.listsArguments at h
  rw [List.headD_nil, V.ended, Bool.and_eq_true] at h
  cases h.2

theorem templateList_scans {room room' : Nat} (hrooms : V.Rooms bound 0 room room') (name : Token) :
    V.Scans (V.Named bound name) (fun _ => V.Short bound) (templateList room name)
      (templateList room' name) := by
  induction room using Nat.strongRecOn generalizing bound room' name with
  | ind room ih =>
      intro tokens h
      refine ⟨?_, fun value behind hrun =>
        h.short.leads (templateList_leads V.left room name _ _ hrun)⟩
      have hlists' := h.lists
      cases hlists : V.left.listsArguments name tokens with
      | false =>
          rw [hlists] at hlists'
          rw [templateList_plain hlists, templateList_plain hlists']
      | true =>
          rw [hlists] at hlists'
          rcases hrooms.cases h.short (ne_nil_of_lists hlists) with
            ⟨rfl, rfl⟩ | ⟨less, less', shorter, rfl, rfl, hless, hshort⟩
          · rw [templateList_zero hlists, templateList_zero hlists']
          · rw [templateList_succ hlists, templateList_succ hlists']
            have hlist := repeatUpTo_scans (byteCount tokens.tail + 1) (templateArgument_scans
              (ih less (Nat.lt_succ_self less) hless) (templateList_leads V.left less))
            rw [(hlist tokens.tail hshort).1]
            rfl

section

variable {room room' : Nat}

theorem listThenScope_scans (hrooms : V.Rooms bound 0 room room') (name : Token) :
    V.Scans (V.Named bound name) (fun _ => V.Short bound)
      (do templateList room name; Scan.require .scope)
      (do templateList room' name; Scan.require .scope) :=
  (templateList_scans hrooms name).bind fun _ => .require .scope

/-- If the scan is not passed, the tokens ahead are as before. -/
theorem passes_scans {scan scan' : Scan Unit} {there : Unit → List Token → Prop}
    (h : V.Scans here there scan scan') :
    V.Scans here
      (fun passed tokens => (passed = true → there () tokens) ∧ (passed = false → here tokens))
      (Scan.passes scan) (Scan.passes scan') := by
  intro tokens hhere
  obtain ⟨heq, hthere⟩ := h tokens hhere
  rw [Scan.passes_run, Scan.passes_run, heq]
  refine ⟨rfl, ?_⟩
  cases hrun : (scan V.left).run tokens with
  | none =>
      intro passed behind hrun
      cases hrun
      exact ⟨fun htrue => Bool.noConfusion htrue, fun _ => hhere⟩
  | some seen =>
      intro passed behind hpassed
      cases hpassed
      exact ⟨fun _ => hthere _ _ hrun, fun hfalse => Bool.noConfusion hfalse⟩

theorem scopedName_scans (hrooms : V.Rooms bound 0 room room') (count : Nat) :
    V.Scans (V.Short bound) (V.Named bound) (scopedName room count) (scopedName room' count) := by
  induction count with
  | zero => exact .next
  | succ count ih =>
      have hagain {here : List Token → Prop} (hhere : ∀ tokens, here tokens → V.Short bound tokens) :
          V.Scans here (V.Named bound) (scopedName room count) (scopedName room' count) :=
        fun tokens h => ih tokens (hhere tokens h)
      refine Scans.next.bind fun name => ?_
      refine .ite _ (.pure fun _ h => h) (.peek fun token => .ite _ ?_ ?_)
      · have hskip : V.Scans (V.Named bound name) (fun _ => V.Short bound) Scan.skip Scan.skip :=
          fun tokens h => Scans.skip tokens h.short
        exact hskip.bind fun _ => ih
      · refine (passes_scans (listThenScope_scans hrooms name)).bind fun passed => ?_
        cases passed with
        | true => exact hagain fun _ h => h.1 rfl
        | false => exact .pure fun _ h => h.2 rfl

theorem typeAhead_scans (hrooms : V.Rooms bound 0 room room') :
    V.Scans (V.Short bound) (fun _ _ => True) (typeAhead room) (typeAhead room') := by
  have hname : V.Scans (V.Short bound) (V.Named bound) (Look.typeNameAhead room)
      (Look.typeNameAhead room') := by
    refine .peek fun token => .ite _ .next ?_
    exact (Scans.skipKind .scope).bind fun _ => .get fun tokens => scopedName_scans hrooms _
  have hbehind (name : Token) : V.Scans (V.Named bound name) (fun _ _ => True)
      (Look.behindTypeName room name) (Look.behindTypeName room' name) := by
    refine .guarded _ ((templateList_scans hrooms name).bind fun _ => .free)
  have htype := (Scans.skipKind .const).bind fun _ => hname.bind hbehind
  intro tokens h
  have heq := (htype tokens h).1
  rw [Scan.bind_run, Scan.bind_run, Scan.skipKind_run, Scan.skipKind_run] at heq
  refine ⟨?_, fun _ _ _ => trivial⟩
  rw [Look.typeAhead_run, Look.typeAhead_run]
  exact heq

theorem templateScopeAhead_scans (hrooms : V.Rooms bound 0 room room') :
    V.Scans (V.Short bound) (fun _ _ => True) (templateScopeAhead room)
      (templateScopeAhead room') := by
  refine Scans.next.bind fun name tokens h => ?_
  have hlists := h.lists
  unfold Setting.listsArguments at hlists
  refine ⟨?_, fun _ _ _ => trivial⟩
  rw [Scan.read_bind, Scan.read_bind, Scan.peek_bind, Scan.peek_bind, hlists]
  exact (Scans.guarded _ (listThenScope_scans hrooms name) tokens h).1

theorem typedListAhead_scans (hrooms : V.Rooms bound 0 room room') :
    V.Scans (V.Short bound) (fun _ _ => True) (typedListAhead room) (typedListAhead room') := by
  refine Scans.next.bind fun name => .guarded _ ?_
  exact (templateList_scans hrooms name).bind fun _ => (Scans.require .assign).bind fun _ => .free

/-! ## What rules ask for -/

section

variable [hrooms : Fact (V.Rooms bound 0 room room')]

instance : V.SeesAlike bound (templateScopeAhead room) (templateScopeAhead room') :=
  .of_scans (templateScopeAhead_scans hrooms.out)

instance : V.SeesAlike bound (scopeAhead room) (scopeAhead room') := by
  constructor
  intro tokens h
  rw [Parse.scopeAhead_isSome, Parse.scopeAhead_isSome,
    (templateScopeAhead_scans hrooms.out tokens h).1]

instance : V.SeesAlike bound (typedListAhead room) (typedListAhead room') :=
  .of_scans (typedListAhead_scans hrooms.out)

instance : V.Agrees bound (Parse.tokensBehind (typeAhead room))
    (Parse.tokensBehind (typeAhead room')) := by
  constructor
  intro n s t hrelated hbytes
  have heq := (typeAhead_scans hrooms.out s.ahead ⟨hrelated.fine, hbytes⟩).1
  change V.Meets n (.ok (((typeAhead room V.left).run s.ahead).map (·.2)), s)
    (.ok (((typeAhead room' V.right).run t.ahead).map (·.2)), t)
  rw [hrelated.ahead, heq]
  exact hrelated.meets _

/-- What follows a type in a scan looks at the tokens alone. -/
theorem seesAlike_typed {rest : Scan Unit} [OptionFree rest] :
    V.SeesAlike bound (Scan.skipIf Token.isAccessModifier >>= fun _ => typeAhead room >>= fun _ => rest)
      (Scan.skipIf Token.isAccessModifier >>= fun _ => typeAhead room' >>= fun _ => rest) :=
  .of_scans ((Scans.skipIf _).bind fun _ => (typeAhead_scans hrooms.out).bind fun _ => .free)

instance : V.SeesAlike bound (variableAhead room) (variableAhead room') := by
  have hbehind (kind : TokenKind) : OptionFree (match kind with
      | .assign | .semicolon | .comma => pure ()
      | .openParen => do
          Scan.update (skipGroup? 0)
          let after := (← Scan.peek).kind
          if after = .openBrace || after.isIdentifier || after.isEnd then failure
      | _ => failure) := by
    split <;> infer_instance
  exact seesAlike_typed

instance : V.SeesAlike bound (propertyAhead room) (propertyAhead room') :=
  seesAlike_typed

instance : V.SeesAlike bound (methodAhead room) (methodAhead room') := by
  have hconstructor : V.Scans (V.Short bound) (fun _ _ => True) constructorAhead constructorAhead :=
    .free
  have htype : V.Scans (fun tokens => (false = true → True) ∧ (false = false → V.Short bound tokens))
      (fun _ _ => True) (typeAhead room) (typeAhead room') :=
    fun tokens h => typeAhead_scans hrooms.out tokens (h.2 rfl)
  have hmethod : V.Scans (V.Short bound) (fun _ _ => True) (methodAhead room)
      (methodAhead room') := by
    refine (Scans.skipIf _).bind fun _ => (passes_scans hconstructor).bind fun passed => ?_
    cases passed with
    | true => exact .pure fun _ _ => trivial
    | false => exact htype.bind fun _ => .free
  exact .of_scans hmethod

end

instance {scan : Scan Unit} [OptionFree scan] : V.SeesAlike bound scan scan :=
  ⟨fun tokens _ => by rw [OptionFree.run_eq]⟩

/-! ## Paths -/

/-- The last name of a path stands in it, with a list behind it or behind the scope mark at which
the path breaks off. -/
theorem pathEnd_suffix (name : Token) (tokens : List Token) :
    ∃ behind, (pathEnd name tokens).1 :: behind <:+ name :: tokens ∧
      ((pathEnd name tokens).2.head?.any (·.kind = .less) = true → opensList behind = true) := by
  have hplain (name : Token) (tokens : List Token) : ∃ behind, name :: behind <:+ name :: tokens ∧
      (tokens.head?.any (·.kind = .less) = true → opensList behind = true) :=
    ⟨tokens, List.suffix_rfl, fun hless => by rw [opensList, hless, Bool.true_or]⟩
  fun_induction pathEnd name tokens with
  | case1 name separator last rest hscope hname ih =>
      obtain ⟨behind, hsuffix, hopens⟩ := ih
      exact ⟨behind, hsuffix.trans ⟨[name, separator], rfl⟩, hopens⟩
  | case2 name separator other rest hscope hother =>
      refine ⟨separator :: other :: rest, List.suffix_rfl, fun hless => ?_⟩
      simpa [opensList, hscope] using hless
  | case3 name separator other rest hscope => exact hplain name _
  | case4 name separator hscope => exact ⟨[separator], List.suffix_rfl, fun hless => by cases hless⟩
  | case5 name separator hscope => exact hplain name _
  | case6 name => exact hplain name []

theorem Fine.constructs_eq (h : V.Fine tokens) :
    V.right.constructs tokens = V.left.constructs tokens := by
  have hnamed : V.Fine (V.left.dropKind .scope tokens) :=
    h.suffix (dropKind_suffix V.left .scope tokens)
  have hpath : V.right.pathName tokens = V.left.pathName tokens := rfl
  unfold Setting.constructs
  rw [hpath]
  unfold Setting.pathName
  generalize V.left.dropKind .scope tokens = named at hnamed ⊢
  dsimp only
  split
  · rename_i hname
    cases named with
    | nil =>
        rw [List.headD_nil, V.ended] at hname
        cases hname
    | cons first rest =>
        rw [List.headD_cons, List.tail_cons]
        obtain ⟨behind, hsuffix, hopens⟩ := pathEnd_suffix first rest
        generalize pathEnd first rest = path at hsuffix hopens ⊢
        obtain ⟨last, after⟩ := path
        dsimp only at hsuffix hopens ⊢
        by_cases hless : (after.headD V.left.finish).kind = .less
        · have hlist : after.head?.any (·.kind = .less) = true := by
            cases after with
            | nil =>
                rw [List.headD_nil, V.ended] at hless
                cases hless
            | cons less after => simpa using hless
          cases hlast : last.kind.isIdentifier with
          | true => rw [hnamed.names last behind hsuffix hlast (hopens hlist)]
          | false =>
              unfold Setting.isTemplateName
              rw [hlast]
              rfl
        · simp only [hless, decide_false, Bool.and_false]
  · rename_i hname
    unfold Setting.isTemplateName
    rw [Bool.eq_false_iff.mpr hname]
    rfl

instance : V.SeesAlike bound constructionAhead constructionAhead := by
  constructor
  intro tokens h
  rw [constructionAhead_run, constructionAhead_run, h.fine.constructs_eq]
  split <;> rfl

end

end Variation

end ScriptSyntax.Grammar
