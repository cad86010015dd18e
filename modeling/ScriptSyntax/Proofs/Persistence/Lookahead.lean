import ScriptSyntax.Proofs.PureLookahead
import ScriptSyntax.Proofs.TreeGrammar.Rows

/-!
# What scans pass with more room

A scan gives in silently when there is no room for a list of template arguments.  So whatever it
passes, it passes in the same way with more room, and under any limit of nesting.
-/

namespace ScriptSyntax.Grammar

/-- The setting with another limit of nesting. -/
def Setting.limited (setting : Setting) (depth : Nat) : Setting :=
  { setting with options := { setting.options with maxDepth := depth } }

/-! ## Scans -/

namespace Scan

variable {α β : Type}

set_option synthInstance.maxSize 2000

/-- What one scan passes under one limit, the other passes under any. -/
class Persists (scan other : Scan α) : Prop where
  passes : ∀ setting depth tokens seen, (scan setting).run tokens = some seen →
    (other (setting.limited depth)).run tokens = some seen

theorem Persists.extends_ {scan other : Scan α} [h : Persists scan other] {setting : Setting} :
    Scan.Extends setting scan other :=
  h.passes setting setting.options.maxDepth

/-- A scan with the same room passes the same under any limit. -/
theorem run_limited (scan : Scan α) [h : Persists scan scan] (setting : Setting) (depth : Nat)
    (tokens : List Token) :
    (scan (setting.limited depth)).run tokens = (scan setting).run tokens := by
  cases hlimited : (scan (setting.limited depth)).run tokens with
  | some seen => exact (h.passes (setting.limited depth) setting.options.maxDepth _ _ hlimited).symm
  | none =>
      cases hrun : (scan setting).run tokens with
      | none => rfl
      | some seen => exact hlimited.symm.trans (h.passes setting depth _ _ hrun)

/-- A scan that does not look at the options. -/
theorem persists_of_eq {scan : Scan α}
    (h : ∀ setting depth, scan (setting.limited depth) = scan setting) : Persists scan scan :=
  ⟨fun setting depth tokens seen hseen => by rw [h, hseen]⟩

instance (value : α) : Persists (pure value) (pure value) :=
  persists_of_eq fun _ _ => rfl

instance : Persists (failure : Scan α) failure :=
  persists_of_eq fun _ _ => rfl

instance : Persists peek peek :=
  persists_of_eq fun _ _ => rfl

instance : Persists next next :=
  persists_of_eq fun _ _ => rfl

instance : Persists skip skip :=
  persists_of_eq fun _ _ => rfl

instance : Persists (get : Scan (List Token)) get :=
  persists_of_eq fun _ _ => rfl

instance (tokens : List Token) : Persists (set tokens : Scan PUnit) (set tokens) :=
  persists_of_eq fun _ _ => rfl

instance (change : List Token → List Token) :
    Persists (modify change : Scan PUnit) (modify change) :=
  persists_of_eq fun _ _ => rfl

instance (scan other : Scan α) (next next' : α → Scan β) [hscan : Persists scan other]
    [hnext : ∀ value, Persists (next value) (next' value)] :
    Persists (scan >>= next) (other >>= next') := by
  constructor
  intro setting depth tokens seen hseen
  rw [bind_run] at hseen ⊢
  obtain ⟨first, hfirst, hrest⟩ := Option.bind_eq_some_iff.mp hseen
  rw [hscan.passes _ _ _ _ hfirst]
  exact (hnext first.1).passes _ _ _ _ hrest

instance (condition : Prop) [Decidable condition] (scan other scan' other' : Scan α)
    [hscan : Persists scan scan'] [hother : Persists other other'] :
    Persists (if condition then scan else other) (if condition then scan' else other') := by
  split
  · exact hscan
  · exact hother

instance (change : List Token → Option (List Token)) : Persists (update change) (update change) := by
  constructor
  intro setting depth tokens seen hseen
  rw [update_run] at hseen ⊢
  exact hseen

instance (kind : TokenKind) : Persists (require kind) (require kind) := by
  unfold require
  infer_instance

instance : Persists requireIdentifier requireIdentifier := by
  unfold requireIdentifier
  infer_instance

instance (test : Token → Bool) : Persists (skipIf test) (skipIf test) := by
  unfold skipIf
  infer_instance

instance (kind : TokenKind) : Persists (skipKind kind) (skipKind kind) := by
  unfold skipKind
  infer_instance

instance (count : Nat) (body other : Scan Bool) [Persists body other] :
    Persists (Scan.repeatUpTo count body) (Scan.repeatUpTo count other) := by
  induction count with
  | zero => exact inferInstanceAs (Persists (pure ()) (pure ()))
  | succ count ih =>
      unfold Scan.repeatUpTo
      infer_instance

instance (inner other : Token → Scan Unit) [∀ name, Persists (inner name) (other name)] :
    Persists (templateArgument inner) (templateArgument other) := by
  unfold templateArgument
  infer_instance

/-- The limit of nesting has no part in whether there are template arguments. -/
theorem listsArguments_limited (setting : Setting) (depth : Nat) (name : Token)
    (tokens : List Token) :
    (setting.limited depth).listsArguments name tokens = setting.listsArguments name tokens := rfl

instance (room : Nat) : Fact (room ≤ room) :=
  ⟨Nat.le_refl room⟩

variable {room more : Nat} [hroom : Fact (room ≤ more)]

instance (name : Token) : Persists (templateList room name) (templateList more name) := by
  have hlists : ∀ {room more : Nat}, room ≤ more → ∀ name,
      Persists (templateList room name) (templateList more name) := by
    intro room
    induction room with
    | zero =>
        intro more hle name
        constructor
        intro setting depth tokens seen hseen
        have hlimited := listsArguments_limited setting depth name tokens
        cases hplain : setting.listsArguments name tokens with
        | true =>
            rw [templateList_zero hplain] at hseen
            cases hseen
        | false =>
            rw [templateList_plain hplain] at hseen
            rw [templateList_plain (hlimited.trans hplain), hseen]
    | succ room ih =>
        intro more hle name
        obtain ⟨more, rfl⟩ : ∃ smaller, more = smaller + 1 := ⟨more - 1, by omega⟩
        have hinner (name : Token) : Persists (templateList room name) (templateList more name) :=
          ih (Nat.le_of_succ_le_succ hle) name
        constructor
        intro setting depth tokens seen hseen
        have hlimited := listsArguments_limited setting depth name tokens
        cases hplain : setting.listsArguments name tokens with
        | true =>
            have hbody : Persists
                (Scan.repeatUpTo (byteCount tokens.tail + 1) (templateArgument (templateList room)))
                (Scan.repeatUpTo (byteCount tokens.tail + 1) (templateArgument (templateList more))) :=
              inferInstance
            rw [templateList_succ hplain] at hseen
            rw [templateList_succ (hlimited.trans hplain)]
            obtain ⟨listed, hlisted, hclosing⟩ := Option.bind_eq_some_iff.mp hseen
            rw [hbody.passes _ _ _ _ hlisted]
            exact hclosing
        | false =>
            rw [templateList_plain hplain] at hseen
            rw [templateList_plain (hlimited.trans hplain), hseen]
  exact hlists hroom.out name

instance : Persists (typedListAhead room) (typedListAhead more) := by
  unfold typedListAhead
  infer_instance

instance : Persists (templateScopeAhead room) (templateScopeAhead more) := by
  constructor
  intro setting depth tokens seen hseen
  cases hlists : setting.listsArguments (tokens.headD setting.finish) tokens.tail with
  | true =>
      have hlist : Persists (Look.scopeListAhead room (tokens.headD setting.finish))
          (Look.scopeListAhead more (tokens.headD setting.finish)) := by
        unfold Look.scopeListAhead
        infer_instance
      have hlimited : (setting.limited depth).listsArguments
          (tokens.headD (setting.limited depth).finish) tokens.tail = true :=
        (listsArguments_limited setting depth _ _).trans hlists
      rw [Look.templateScopeAhead_run hlists] at hseen
      rw [Look.templateScopeAhead_run hlimited]
      exact hlist.passes _ _ _ _ hseen
  | false =>
      unfold templateScopeAhead at hseen
      unfold Setting.listsArguments at hlists
      rw [next_bind, read_bind, Scan.peek_bind] at hseen
      simp only [hlists, Bool.not_false, ↓reduceIte] at hseen
      cases hseen

instance : Persists (scopeAhead room) (scopeAhead more) := by
  unfold scopeAhead
  infer_instance

/-- A scan that gives the same under any limit is seen to fail under any, too. -/
instance (scan : Scan Unit) [Persists scan scan] : Persists (passes scan) (passes scan) := by
  constructor
  intro setting depth tokens seen hseen
  rw [passes_run] at hseen ⊢
  rw [run_limited]
  exact hseen

instance (name : Token) :
    Persists (Look.behindTypeName room name) (Look.behindTypeName more name) := by
  unfold Look.behindTypeName
  infer_instance

end Scan

/-- Behind the next token there are template arguments, but there is no room for them. -/
structure Setting.Crowded (setting : Setting) (room : Nat) (tokens : List Token) : Prop where
  blocked : (templateList room (tokens.headD setting.finish) setting).run tokens.tail = none
  listed : ∃ more seen,
    (templateList more (tokens.headD setting.finish) setting).run tokens.tail = some seen

theorem Setting.Crowded.lists {setting : Setting} {room : Nat} {tokens : List Token}
    (h : setting.Crowded room tokens) :
    setting.listsArguments (tokens.headD setting.finish) tokens.tail = true := by
  cases hlists : setting.listsArguments (tokens.headD setting.finish) tokens.tail with
  | true => rfl
  | false =>
      have hblocked := h.blocked
      rw [templateList_plain hlists] at hblocked
      cases hblocked

/-- A list of arguments with a scope mark behind it is only passed with more room. -/
theorem crowded_of_scopeList {setting : Setting} {room more : Nat} {tokens : List Token}
    {seen : Unit × List Token}
    (hlow : (Look.scopeListAhead room (tokens.headD setting.finish) setting).run tokens.tail = none)
    (hhigh : (Look.scopeListAhead more (tokens.headD setting.finish) setting).run tokens.tail =
      some seen) : setting.Crowded room tokens := by
  unfold Look.scopeListAhead at hlow hhigh
  rw [Scan.bind_run] at hlow hhigh
  obtain ⟨listed, hlisted, hscope⟩ := Option.bind_eq_some_iff.mp hhigh
  refine ⟨?_, more, listed, hlisted⟩
  cases hlist : (templateList room (tokens.headD setting.finish) setting).run tokens.tail with
  | none => rfl
  | some other =>
      cases templateList_unique hlist hlisted
      rw [hlist] at hlow
      exact absurd (hlow.symm.trans hscope) (by simp)

namespace Scan

variable {room more : Nat} [hroom : Fact (room ≤ more)] {setting : Setting}

variable (room more setting) in
/-- The scopes in front of a name are passed alike, up to a template instance for which there is no
room. -/
theorem leadingScopes_persist (count depth : Nat) (tokens : List Token) :
    ∃ rest, (Scan.repeatUpTo count (leadingScope room) setting).run tokens = some ((), rest) ∧
      (setting.Crowded room rest ∨
        (Scan.repeatUpTo count (leadingScope more) (setting.limited depth)).run tokens =
          some ((), rest)) := by
  induction count generalizing tokens with
  | zero => exact ⟨tokens, rfl, .inr rfl⟩
  | succ count ih =>
      rw [repeatUpTo_run, repeatUpTo_run, leadingScope_run, leadingScope_run]
      have hfinish : (setting.limited depth).finish = setting.finish := rfl
      dsimp only
      rw [hfinish]
      generalize hname : tokens.headD setting.finish = name
      have hlist : Persists (Look.scopeListAhead room name) (Look.scopeListAhead more name) := by
        unfold Look.scopeListAhead
        infer_instance
      split
      case isFalse => exact ⟨tokens, rfl, .inr rfl⟩
      split
      · exact ih _
      rw [show (do templateList room name; require .scope : Scan Unit) =
          Look.scopeListAhead room name from rfl,
        show (do templateList more name; require .scope : Scan Unit) =
          Look.scopeListAhead more name from rfl]
      cases hlow : (Look.scopeListAhead room name setting).run tokens.tail with
      | some seen =>
          rw [hlist.passes _ _ _ _ hlow]
          exact ih seen.2
      | none =>
          refine ⟨tokens, rfl, ?_⟩
          have hsame : Persists (Look.scopeListAhead more name) (Look.scopeListAhead more name) := by
            unfold Look.scopeListAhead
            infer_instance
          rw [run_limited]
          cases hhigh : (Look.scopeListAhead more name setting).run tokens.tail with
          | none => exact .inr rfl
          | some seen =>
              subst hname
              exact .inl (crowded_of_scopeList hlow hhigh)

instance : Persists (typeAhead room) (typeAhead more) := by
  constructor
  intro setting depth tokens seen hseen
  have hfinish : (setting.limited depth).finish = setting.finish := rfl
  have hdrop (kind : TokenKind) (tokens : List Token) :
      (setting.limited depth).dropKind kind tokens = setting.dropKind kind tokens := rfl
  rw [Look.typeAhead_run, Look.typeNameAhead_run] at hseen ⊢
  rw [hdrop, hdrop, hfinish]
  generalize setting.dropKind .const tokens = rest at hseen ⊢
  have hbehind (name : Token) :
      Persists (Look.behindTypeName room name) (Look.behindTypeName more name) := inferInstance
  split at hseen
  · rename_i hauto
    rw [if_pos hauto]
    exact (hbehind _).passes _ _ _ _ hseen
  · rename_i hauto
    rw [if_neg hauto]
    dsimp only at hseen ⊢
    obtain ⟨named, hlow, hparts⟩ := leadingScopes_persist room more setting
      (byteCount (setting.dropKind .scope rest) + 1) depth (setting.dropKind .scope rest)
    rcases hparts with hcrowded | hhigh
    · -- What cannot be passed as a scope for lack of room cannot be passed as a type either.
      rw [hlow, Option.map_some, Option.bind_some, Look.behindTypeName_run] at hseen
      split at hseen
      · rw [hcrowded.blocked] at hseen
        cases hseen
      · cases hseen
    · rw [hlow, Option.map_some, Option.bind_some] at hseen
      rw [hhigh, Option.map_some, Option.bind_some]
      exact (hbehind _).passes _ _ _ _ hseen

set_option synthInstance.maxSize 2000

instance : Persists (variableAhead room) (variableAhead more) := by
  have hname : Persists Look.variableNameAhead Look.variableNameAhead := by
    have hmark (kind : TokenKind) : Persists (match kind with
        | .assign | .semicolon | .comma => pure ()
        | .openParen => do
            update (skipGroup? 0)
            let after := (← peek).kind
            if after = .openBrace || after.isIdentifier || after.isEnd then failure
        | _ => failure) (match kind with
        | .assign | .semicolon | .comma => pure ()
        | .openParen => do
            update (skipGroup? 0)
            let after := (← peek).kind
            if after = .openBrace || after.isIdentifier || after.isEnd then failure
        | _ => failure) := by
      split <;> infer_instance
    unfold Look.variableNameAhead
    infer_instance
  have hall : Persists
      (skipIf Token.isAccessModifier >>= fun _ => typeAhead room >>= fun _ => Look.variableNameAhead)
      (skipIf Token.isAccessModifier >>= fun _ => typeAhead more >>= fun _ =>
        Look.variableNameAhead) := inferInstance
  exact hall

instance : Persists (propertyAhead room) (propertyAhead more) := by
  unfold propertyAhead
  infer_instance

instance : Persists constructorAhead constructorAhead := by
  unfold constructorAhead
  infer_instance

instance : Persists (methodAhead room) (methodAhead more) := by
  unfold methodAhead
  infer_instance

instance : Persists lambdaAhead lambdaAhead := by
  unfold lambdaAhead
  infer_instance

instance : Persists callAhead callAhead := by
  unfold callAhead
  infer_instance

end Scan

/-- The last name of the path that starts here, behind a leading scope mark, and what follows it. -/
def Setting.pathName (setting : Setting) (tokens : List Token) : Token × List Token :=
  let named := setting.dropKind .scope tokens
  let name := named.headD setting.finish
  if name.kind.isIdentifier then pathEnd name named.tail else (name, name :: named.tail)

/-- The tokens start with a name that a value is constructed of. -/
def Setting.constructs (setting : Setting) (tokens : List Token) : Bool :=
  let (last, after) := setting.pathName tokens
  let first := (after.headD setting.finish).kind
  let second := (after.tail.headD setting.finish).kind
  last.isTypeName && (first = .openBracket && second = .closeBracket ||
    setting.isTemplateName last && first = .less)

theorem constructionAhead_run (setting : Setting) (tokens : List Token) :
    (constructionAhead setting).run tokens =
      if setting.constructs tokens then some ((), (setting.dropKind .scope tokens).tail)
      else none := by
  unfold constructionAhead
  rw [Scan.bind_run, Scan.skipKind_run, Option.bind_some, Scan.next_bind, Scan.read_bind,
    Scan.get_bind]
  unfold Setting.constructs Setting.pathName Setting.dropKind
  dsimp only
  generalize ite ((tokens.headD setting.finish).kind = .scope) tokens.tail tokens = named
  generalize ite ((named.headD setting.finish).kind.isIdentifier = true)
    (pathEnd (named.headD setting.finish) named.tail)
    (named.headD setting.finish, named.headD setting.finish :: named.tail) = path
  split
  · rename_i hnone
    rw [Bool.not_eq_true'] at hnone
    exact (if_neg (Bool.eq_false_iff.mp hnone)).symm
  · rename_i hfound
    rw [Bool.not_eq_true', Bool.not_eq_false] at hfound
    exact (if_pos hfound).symm

instance : Scan.Persists constructionAhead constructionAhead := by
  constructor
  intro setting depth tokens seen hseen
  rw [constructionAhead_run] at hseen ⊢
  exact hseen

end ScriptSyntax.Grammar
