import Mathlib.Algebra.Group.Int.Defs
import ScriptSyntax.Proofs.CapturedInitializer
import ScriptSyntax.Proofs.Comparison.Text

/-!
# Nesting in captured text

The capture of a default argument keeps a list of the brackets that are open.  What it takes is
nested, and ends before the first comma or closing parenthesis outside all brackets.  The capture of
an initializer counts parentheses and braces apart, and takes the same text as long as that is
nested.  It does not see whether the brackets are closed in their order.
-/

namespace ScriptSyntax.Grammar

variable {token : Token} {tokens taken rest : List Token}

/-! ## Open brackets -/

namespace Bracket

/-- The brackets that are open behind a token, from the inside out.  A bracket may only close the one
that was opened last. -/
def step? (opened : List Bracket) (kind : TokenKind) : Option (List Bracket) :=
  match kind, opened with
  | .openParen, opened => some (.paren :: opened)
  | .openBrace, opened => some (.brace :: opened)
  | .closeParen, .paren :: outer => some outer
  | .closeBrace, .brace :: outer => some outer
  | .closeParen, _ | .closeBrace, _ => none
  | _, opened => some opened

/-- The brackets that are open behind the tokens, unless one of them is out of place. -/
def behind? (opened : List Bracket) (tokens : List Token) : Option (List Bracket) :=
  tokens.foldlM (fun opened token => step? opened token.kind) opened

variable {opened inner : List Bracket}

@[simp] theorem behind?_nil : behind? opened [] = some opened := rfl

theorem behind?_cons :
    behind? opened (token :: rest) = (step? opened token.kind).bind (behind? · rest) := rfl

theorem behind?_append :
    behind? opened (taken ++ rest) = (behind? opened taken).bind (behind? · rest) :=
  List.foldlM_append

/-- Each bracket that is open was opened once more than it was closed. -/
theorem delta_eq_of_step? (h : step? opened token.kind = some inner) (bracket : Bracket) :
    (inner.count bracket : Int) = opened.count bracket + bracket.delta token := by
  unfold step? at h
  unfold delta opening closing
  split at h <;> cases h <;> cases bracket <;> simp_all

theorem surplus_eq_of_behind? (h : behind? opened tokens = some inner) (bracket : Bracket) :
    (inner.count bracket : Int) = opened.count bracket + bracket.surplus tokens := by
  induction tokens generalizing opened with
  | nil =>
      cases h
      simp
  | cons token rest ih =>
      rw [behind?_cons] at h
      obtain ⟨next, hstep, hrest⟩ := Option.bind_eq_some_iff.mp h
      rw [ih hrest, delta_eq_of_step? hstep, surplus_cons]
      omega

end Bracket

/-- Every bracket in the tokens is closed in them, and the last one opened is closed first. -/
def Nested (tokens : List Token) : Prop :=
  Bracket.behind? [] tokens = some []

instance (tokens : List Token) : Decidable (Nested tokens) :=
  inferInstanceAs (Decidable (_ = _))

/-- As many parentheses and as many braces are closed in the tokens as are opened. -/
def EvenCounts (tokens : List Token) : Prop :=
  Bracket.paren.surplus tokens = 0 ∧ Bracket.brace.surplus tokens = 0

theorem Nested.evenCounts (h : Nested tokens) : EvenCounts tokens :=
  ⟨by simpa using (Bracket.surplus_eq_of_behind? h .paren).symm,
    by simpa using (Bracket.surplus_eq_of_behind? h .brace).symm⟩

/-- In a nested text the counts tell whether a bracket is open. -/
theorem Nested.nested_iff_evenCounts {before after : List Token} (h : Nested (before ++ after)) :
    Nested before ↔ EvenCounts before := by
  refine ⟨Nested.evenCounts, fun hcounts => ?_⟩
  unfold Nested at h ⊢
  rw [Bracket.behind?_append] at h
  obtain ⟨opened, hopened, -⟩ := Option.bind_eq_some_iff.mp h
  have hparens := Bracket.surplus_eq_of_behind? hopened .paren
  have hbraces := Bracket.surplus_eq_of_behind? hopened .brace
  rw [hcounts.1] at hparens
  rw [hcounts.2] at hbraces
  cases opened with
  | nil => exact hopened
  | cons bracket outer => cases bracket <;> simp at hparens hbraces <;> omega

/-! ## Where the text ends -/

/-- The text ends outside all brackets, before the first token there that may end it. -/
structure EndsOutside (outside : List Token → Prop) (ends : TokenKind → Bool)
    (taken rest : List Token) : Prop where
  closed : outside taken
  ending : rest.head?.any (ends ·.kind) = true
  first : ∀ before token after, taken = before ++ token :: after → outside before →
    ends token.kind = false

section

variable {outside : List Token → Prop} {ends : TokenKind → Bool}

theorem endsOutside_nil :
    EndsOutside outside ends [] rest ↔ outside [] ∧ rest.head?.any (ends ·.kind) = true := by
  refine ⟨fun h => ⟨h.closed, h.ending⟩, fun h => ⟨h.1, h.2, ?_⟩⟩
  intro before token after hsplit
  cases before <;> cases hsplit

theorem endsOutside_cons :
    EndsOutside outside ends (token :: taken) rest ↔
      (outside [] → ends token.kind = false) ∧
        EndsOutside (fun before => outside (token :: before)) ends taken rest := by
  constructor
  · rintro ⟨houtside, hending, hfirst⟩
    refine ⟨hfirst [] token taken rfl, houtside, hending, ?_⟩
    intro before other after hsplit
    exact hfirst (token :: before) other after (congrArg (token :: ·) hsplit)
  · rintro ⟨htoken, houtside, hending, hfirst⟩
    refine ⟨houtside, hending, ?_⟩
    intro before other after hsplit
    cases before with
    | nil =>
        cases hsplit
        exact htoken
    | cons passed before =>
        obtain ⟨rfl, hmore⟩ := List.cons.inj hsplit
        exact hfirst before other after hmore

theorem EndsOutside.congr {outside' : List Token → Prop}
    (h : EndsOutside outside ends taken rest)
    (hsame : ∀ before after, taken = before ++ after → (outside' before ↔ outside before)) :
    EndsOutside outside' ends taken rest := by
  refine ⟨(hsame taken [] (List.append_nil _).symm).mpr h.closed, h.ending, ?_⟩
  intro before token after hsplit houtside
  exact h.first before token after hsplit ((hsame before _ hsplit).mp houtside)

end

namespace Capture

/-! ## Text captured step by step -/

section

variable {σ : Type} {step : σ → TokenKind → Step σ} {next : σ → Token → Option σ}
  {final : σ → Prop} {ends allows : TokenKind → Bool} {state inner : σ}

/-- The state behind the tokens is one in which the text may end. -/
def Leaves (next : σ → Token → Option σ) (final : σ → Prop) (state : σ) (tokens : List Token) :
    Prop :=
  ∃ last, tokens.foldlM next state = some last ∧ final last

theorem leaves_nil : Leaves next final state [] ↔ final state := by
  simp [Leaves]

theorem leaves_cons (h : next state token = some inner) :
    Leaves next final state (token :: rest) ↔ Leaves next final inner rest := by
  simp [Leaves, h]

/-- What the next token is to the text: it ends the text in a final state, or else it is taken if it
may stand there. -/
structure Scans (step : σ → TokenKind → Step σ) (next : σ → Token → Option σ) (final : σ → Prop)
    (ends allows : TokenKind → Bool) : Prop where
  complete : ∀ state kind, step state kind = .complete ↔ final state ∧ ends kind = true
  more : ∀ state inner token, step state token.kind = .more inner ↔
    (final state → ends token.kind = false) ∧ allows token.kind = true ∧
      next state token = some inner
  not_last : ∀ state kind, step state kind ≠ .last

variable (hstep : Scans step next final ends allows)

include hstep

theorem Scans.endsOutside (h : (walk step state tokens).ending = .complete) :
    EndsOutside (Leaves next final state) ends (walk step state tokens).taken
        (walk step state tokens).rest ∧
      ∀ token ∈ (walk step state tokens).taken, allows token.kind = true := by
  induction tokens generalizing state with
  | nil => cases h
  | cons token rest ih =>
      rw [walk] at h ⊢
      cases htoken : step state token.kind with
      | complete =>
          obtain ⟨hfinal, hends⟩ := (hstep.complete _ _).mp htoken
          refine ⟨endsOutside_nil.mpr ⟨leaves_nil.mpr hfinal, ?_⟩, ?_⟩
          · simpa using hends
          · intro token hmem
            cases hmem
      | fault message =>
          rw [htoken] at h
          cases h
      | last => exact absurd htoken (hstep.not_last _ _)
      | more inner =>
          rw [htoken] at h
          obtain ⟨hopen, hallows, hnext⟩ := (hstep.more _ _ _).mp htoken
          obtain ⟨hrest, htaken⟩ := ih h
          refine ⟨endsOutside_cons.mpr ⟨fun hnil => hopen (leaves_nil.mp hnil), ?_⟩, ?_⟩
          · exact hrest.congr fun before after _ => leaves_cons hnext
          · exact List.forall_mem_cons.mpr ⟨hallows, htaken⟩

theorem Scans.walk_eq (h : EndsOutside (Leaves next final state) ends taken rest)
    (hallows : ∀ token ∈ taken, allows token.kind = true) :
    walk step state (taken ++ rest) = ⟨taken, rest, .complete⟩ := by
  induction taken generalizing state with
  | nil =>
      obtain ⟨hfinal, hending⟩ := endsOutside_nil.mp h
      cases rest with
      | nil => cases hending
      | cons token rest =>
          have hends : ends token.kind = true := by simpa using hending
          have hcomplete := (hstep.complete state token.kind).mpr ⟨leaves_nil.mp hfinal, hends⟩
          rw [List.nil_append, walk, hcomplete]
          rfl
  | cons token taken ih =>
      obtain ⟨hopen, hrest⟩ := endsOutside_cons.mp h
      obtain ⟨htoken, htaken⟩ := List.forall_mem_cons.mp hallows
      obtain ⟨last, hlast, -⟩ := h.closed
      rw [List.foldlM_cons] at hlast
      obtain ⟨inner, hnext, -⟩ := Option.bind_eq_some_iff.mp hlast
      have hmore : step state token.kind = .more inner :=
        (hstep.more _ _ _).mpr ⟨fun hfinal => hopen (leaves_nil.mpr hfinal), htoken, hnext⟩
      have hinner := hrest.congr fun before after _ => (leaves_cons hnext).symm
      rw [List.cons_append, walk, hmore]
      exact congrArg (take token) (ih hinner htaken)

end

/-! ## Default arguments -/

def endsArgument (kind : TokenKind) : Bool :=
  kind = .comma || kind = .closeParen

/-- The kinds of tokens that may stand in a default argument. -/
def allowsInArgument (kind : TokenKind) : Bool :=
  kind ≠ .semicolon && kind ≠ .unterminatedString

theorem argument_scans : Scans argumentStep (fun opened token => Bracket.step? opened token.kind)
    (· = []) endsArgument allowsInArgument := by
  refine ⟨?_, ?_, argumentStep_ne_last⟩
  · intro opened kind
    unfold argumentStep endsArgument
    split <;> grind
  · intro opened inner token
    generalize token.kind = kind
    unfold argumentStep
    split
    case h_11 hparen hempty hinside _ hcomma =>
      have hclose : kind ≠ .closeParen := by
        intro hclose
        rcases opened with _ | ⟨_ | _, outer⟩
        · exact hempty hclose rfl
        · exact hparen outer hclose rfl
        · exact hinside outer hclose rfl
      have hsame : Bracket.step? opened kind = some opened := by
        unfold Bracket.step?
        split <;> simp_all
      have hends : opened = [] → endsArgument kind = false := by
        intro hnil
        have hother : kind ≠ .comma := fun hkind => hcomma hkind hnil
        simp [endsArgument, hother, hclose]
      rw [hsame]
      simp_all [allowsInArgument]
    all_goals simp_all [endsArgument, allowsInArgument, Bracket.step?]

theorem leaves_nested : Leaves (fun opened token => Bracket.step? opened token.kind) (· = []) []
    tokens ↔ Nested tokens := by
  unfold Leaves
  simp only [exists_eq_right]
  rfl

/-- What is taken of a default argument is nested, and goes up to the first comma or closing
parenthesis outside all brackets. -/
theorem argument_endsOutside (h : (argument [] tokens).ending = .complete) :
    EndsOutside Nested endsArgument (argument [] tokens).taken (argument [] tokens).rest ∧
      ∀ token ∈ (argument [] tokens).taken, allowsInArgument token.kind = true := by
  rw [argument_eq_walk] at h ⊢
  obtain ⟨hends, hallows⟩ := argument_scans.endsOutside h
  exact ⟨hends.congr fun before after _ => leaves_nested.symm, hallows⟩

theorem argument_eq (h : EndsOutside Nested endsArgument taken rest)
    (hallows : ∀ token ∈ taken, allowsInArgument token.kind = true) :
    argument [] (taken ++ rest) = ⟨taken, rest, .complete⟩ := by
  rw [argument_eq_walk]
  exact argument_scans.walk_eq (h.congr fun before after _ => leaves_nested) hallows

/-! ## Initializers -/

/-- The kinds of tokens that may stand in an initializer. -/
def allowsInInitializer (kind : TokenKind) : Bool :=
  kind ≠ .unterminatedString

def countStep (state : Int × Int) (token : Token) : Option (Int × Int) :=
  some (state.1 + Bracket.paren.delta token, state.2 + Bracket.brace.delta token)

theorem initializer_scans :
    Scans initializerStep countStep (· = (0, 0)) endsInitializer allowsInInitializer := by
  refine ⟨?_, ?_, initializerStep_ne_last⟩
  · rintro ⟨parens, braces⟩ kind
    unfold initializerStep initializerMore
    split
    · simp_all
    · split <;> simp_all
  · rintro ⟨parens, braces⟩ inner token
    unfold initializerStep initializerMore allowsInInitializer countStep Bracket.delta
    generalize token.kind = kind
    split
    · simp_all
    · split <;> simp_all [Bracket.opening, Bracket.closing, Int.sub_eq_add_neg]

theorem foldlM_countStep (state : Int × Int) (tokens : List Token) :
    tokens.foldlM countStep state =
      some (state.1 + Bracket.paren.surplus tokens, state.2 + Bracket.brace.surplus tokens) := by
  induction tokens generalizing state with
  | nil => simp
  | cons token rest ih =>
      rw [List.foldlM_cons, countStep, Option.bind_eq_bind, Option.bind_some, ih,
        Bracket.surplus_cons, Bracket.surplus_cons, Int.add_assoc, Int.add_assoc]

theorem leaves_evenCounts : Leaves countStep (· = (0, 0)) (0, 0) tokens ↔ EvenCounts tokens := by
  simp [Leaves, foldlM_countStep, EvenCounts]

/-- What is taken of an initializer goes up to the first token that may end it where as many
parentheses and as many braces are closed as were opened. -/
theorem initializer_endsOutside (h : (initializer 0 0 tokens).ending = .complete) :
    EndsOutside EvenCounts endsInitializer (initializer 0 0 tokens).taken
        (initializer 0 0 tokens).rest ∧
      ∀ token ∈ (initializer 0 0 tokens).taken, allowsInInitializer token.kind = true := by
  rw [initializer_eq_walk] at h ⊢
  obtain ⟨hends, hallows⟩ := initializer_scans.endsOutside h
  exact ⟨hends.congr fun before after _ => leaves_evenCounts.symm, hallows⟩

theorem initializer_eq (h : EndsOutside EvenCounts endsInitializer taken rest)
    (hallows : ∀ token ∈ taken, allowsInInitializer token.kind = true) :
    initializer 0 0 (taken ++ rest) = ⟨taken, rest, .complete⟩ := by
  rw [initializer_eq_walk]
  exact initializer_scans.walk_eq (h.congr fun before after _ => leaves_evenCounts) hallows

/-- In a nested text the brackets need only be counted. -/
theorem endsOutside_evenCounts (hnested : Nested taken) {ends : TokenKind → Bool} :
    EndsOutside EvenCounts ends taken rest ↔ EndsOutside Nested ends taken rest := by
  have hsame (before after : List Token) (hsplit : taken = before ++ after) :
      Nested before ↔ EvenCounts before :=
    Nested.nested_iff_evenCounts (hsplit ▸ hnested)
  exact ⟨fun h => h.congr hsame, fun h => h.congr fun before after hsplit =>
    (hsame before after hsplit).symm⟩

/-- An initializer that is nested is captured up to the first token outside all brackets that may
end it. -/
theorem initializer_of_nested (h : EndsOutside Nested endsInitializer taken rest)
    (hallows : ∀ token ∈ taken, allowsInInitializer token.kind = true) :
    initializer 0 0 (taken ++ rest) = ⟨taken, rest, .complete⟩ :=
  initializer_eq ((endsOutside_evenCounts h.closed).mpr h) hallows

/-- A parenthesis that is closed before it is opened hides a semicolon. -/
example : (initializer 0 0 (Source.tokensFrom ['1', ')', ';', '(', '2', ';'] 0)).taken.map (·.text) =
    ["1", ")", ";", "(", "2"] := by
  decide +kernel

end Capture

end ScriptSyntax.Grammar
