import ScriptSyntax.Proofs.Reading
import ScriptSyntax.Proofs.TreeHeight

/-!
# Heights of scripts

A namespace takes a level of room, but one that is named by a path stacks two nodes for each name of
the path, all on the same level.  A script is therefore no higher than its room and the number of its
`::` marks allow, and without such marks the room alone bounds it.
-/

namespace ScriptSyntax

namespace Grammar

open Node

/-! ## Marks between names -/

/-- The number of `::` marks. -/
def scopeCount (tokens : List Token) : Nat :=
  tokens.countP (·.kind = .scope)

@[simp] theorem scopeCount_append (first second : List Token) :
    scopeCount (first ++ second) = scopeCount first + scopeCount second :=
  List.countP_append

theorem scopeCount_tail_le (tokens : List Token) : scopeCount tokens.tail ≤ scopeCount tokens :=
  (List.tail_sublist tokens).countP_le

theorem scopeCount_tail_lt {setting : Setting} {session : Session}
    (h : (setting.head session).kind = .scope) (hended : setting.finish.kind = .endOfSource) :
    scopeCount session.ahead.tail < scopeCount session.ahead := by
  rcases hahead : session.ahead with _ | ⟨token, rest⟩
  · rw [Setting.head_nil hahead, hended] at h
    cases h
  · rw [Setting.head_cons hahead] at h
    simp [scopeCount, h]

theorem scopeCount_of_angles {tokens : List Token}
    (h : ∀ token ∈ tokens, token.kind.isAngle = true) : scopeCount tokens = 0 := by
  refine List.countP_eq_zero.mpr fun token hmem hscope => ?_
  have hangle := h token hmem
  rw [of_decide_eq_true hscope] at hangle
  cases hangle

/-- Text that is read anew behind an operator has no marks that were not there before. -/
theorem Setting.Reads.scopeCount_step_le {setting : Setting} {tokens next : List Token}
    (h : setting.Reads tokens) (hstep : setting.Step tokens next) :
    scopeCount next ≤ scopeCount tokens := by
  rcases hstep with ⟨token, rfl⟩ | hgreater
  · exact scopeCount_tail_le (token :: next)
  · obtain ⟨token, rest, rfl, hkind, rfl⟩ := h.of_afterGreater? hgreater
    obtain ⟨offset, hoffset⟩ := h
    obtain ⟨fresh, stale, common, hresynced⟩ :=
      Source.resynced_of_startsWithGreater hoffset.symm hkind
    rw [hresynced.fresh_eq, scopeCount_append, scopeCount_of_angles hresynced.freshAngle]
    calc 0 + scopeCount common
      _ ≤ scopeCount stale + scopeCount common := Nat.add_le_add_right (Nat.zero_le _) _
      _ = scopeCount rest := by rw [hresynced.stale_eq, scopeCount_append]
      _ ≤ scopeCount (token :: rest) := scopeCount_tail_le (token :: rest)

theorem Setting.Reads.scopeCount_le {setting : Setting} {tokens next : List Token}
    (h : setting.Reads tokens) (hleads : setting.Leads tokens next) :
    scopeCount next ≤ scopeCount tokens := by
  induction hleads with
  | refl => exact Nat.le_refl _
  | tail hbefore hstep ih => exact Nat.le_trans ((h.leads hbefore).scopeCount_step_le hstep) ih

namespace Parse

/-! ## Declarations without namespaces -/

section

set_option synthInstance.maxSize 2000

instance : Rises capturedInitializer 1 := by
  have htext (kind : TokenKind) : Rises (match kind with
      | .assign => do
          skip
          if Capture.endsInitializer (← peek).kind then failExpected .expectedExpressionValue
          let start ← ahead
          capture .expression start (.initializer 0 0 start)
      | .openParen => do
          let start ← ahead
          capture .argumentList start (.group .openParen .closeParen 0 start.tail)
      | _ => failExpected (.expectedOneOfKinds [.assign, .openParen])) 0 := by
    split
    · refine Rises.mono (show Rises _ (max 0 (max 0 0)) from .bind inferInstance ?_) (by omega)
      intro _
      refine .bind inferInstance ?_
      intro token
      extract_lets after
      have hafter (read : Unit) : Rises (after read) 0 := by
        unfold after
        exact Rises.mono inferInstance (by omega)
      exact Rises.mono inferInstance (by omega)
    · exact Rises.mono inferInstance (by omega)
    · exact Rises.mono inferInstance (by omega)
  unfold capturedInitializer
  exact Rises.mono inferInstance (by omega)

instance : Rises laterInitializer 1 := by
  unfold laterInitializer
  exact Rises.mono inferInstance (by omega)

instance : Rises accessModifier 1 := by
  unfold accessModifier
  exact Rises.mono inferInstance (by omega)

instance (room : Nat) : Rises (globalVariable room) (2 * room + 2) := by
  unfold globalVariable
  exact Rises.mono inferInstance (by omega)

instance (room : Nat) : Rises (memberVariable room) (2 * room + 2) := by
  unfold memberVariable
  exact Rises.mono inferInstance (by omega)

instance (keyword : Keyword) : Rises (anchorRequired keyword) 0 := by
  unfold anchorRequired
  exact Rises.mono inferInstance (by omega)

instance : Rises sharedModifiers 1 := by
  unfold sharedModifiers
  exact Rises.mono inferInstance (by omega)

instance : Rises expectIdentifier 0 := by
  unfold expectIdentifier
  exact Rises.mono inferInstance (by omega)

instance (room : Nat) : Rises (importDeclaration room) (2 * room + 5) := by
  unfold importDeclaration
  exact Rises.mono inferInstance (by omega)

instance : Rises enumerator 1 := by
  unfold enumerator
  exact Rises.mono inferInstance (by omega)

instance : Rises enumDeclaration 3 := by
  have hbody (kind : TokenKind) : Rises (match kind with
      | .semicolon => mark
      | .openBrace => do
          skip
          repeatRule enumerator
          coverRequired .closeBrace
      | _ => failExpected (.expectedOneOfKinds [.openBrace, .semicolon])) 1 := by
    split <;> exact Rises.mono inferInstance (by omega)
  unfold enumDeclaration
  exact Rises.mono inferInstance (by omega)

instance : Rises typedefDeclaration 2 := by
  unfold typedefDeclaration
  exact Rises.mono inferInstance (by omega)

instance (room : Nat) : Rises (funcdefDeclaration room) (2 * room + 4) := by
  unfold funcdefDeclaration
  exact Rises.mono inferInstance (by omega)

instance : Rises functionBody 1 := by
  unfold functionBody
  exact Rises.mono inferInstance (by omega)

instance (room : Nat) : Rises (globalFunction room) (2 * room + 4) := by
  unfold globalFunction
  exact Rises.mono inferInstance (by omega)

instance (room : Nat) : Rises (method room) (2 * room + 4) := by
  unfold method
  exact Rises.mono inferInstance (by omega)

instance (room : Nat) : Rises (interfaceMethod room) (2 * room + 4) := by
  unfold interfaceMethod
  exact Rises.mono inferInstance (by omega)

instance (place : PropertyPlace) : Rises (accessor place) 2 := by
  unfold accessor
  exact Rises.mono inferInstance (by omega)

instance (room : Nat) (place : PropertyPlace) : Rises (property room place) (2 * room + 3) := by
  unfold property
  exact Rises.mono inferInstance (by omega)

instance (room : Nat) : Rises (baseName room) (2 * room + 3) := by
  unfold baseName
  exact Rises.mono inferInstance (by omega)

instance (room : Nat) (member : Parse Unit) (height : Nat) [Rises member height] :
    Rises (namedMembers room member) (max height (2 * room + 3)) := by
  unfold namedMembers
  exact Rises.mono inferInstance (by omega)

instance (room : Nat) : Rises (interfaceMember room) (2 * room + 4) := by
  unfold interfaceMember
  exact Rises.mono inferInstance (by omega)

instance (room : Nat) : Rises (interfaceDeclaration room) (2 * room + 5) := by
  unfold interfaceDeclaration
  exact Rises.mono inferInstance (by omega)

instance (room : Nat) : Rises (classMember room) (2 * room + 4) := by
  unfold classMember
  exact Rises.mono inferInstance (by omega)

instance (inBraces : Bool) (rule : Parse Unit) (height : Nat) [Rises rule height] :
    Rises (recovering inBraces rule) height := by
  unfold recovering
  exact Rises.mono inferInstance (by omega)

instance (room : Nat) : Rises (classDeclaration room) (2 * room + 5) := by
  unfold classDeclaration
  exact Rises.mono inferInstance (by omega)

instance (room : Nat) : Rises (mixinDeclaration room) (2 * room + 6) := by
  unfold mixinDeclaration
  exact Rises.mono inferInstance (by omega)

instance (room : Nat) : Rises (globalMember room) (2 * room + 4) := by
  unfold globalMember
  exact Rises.mono inferInstance (by omega)

end

/-! ## Paths of names -/

section

variable {α β : Type} {setting : Setting} {session : Session}

/-- The nodes that a rule adds are at most so high, and two higher for each `::` mark ahead. -/
structure Climbs (rule : Parse α) (height : Nat) : Prop where
  heights_le : ∀ setting session, setting.Ended → setting.Reads session.ahead →
    heights (rule setting session).2.building.children ≤
      max (heights session.building.children) (height + 2 * scopeCount session.ahead)

variable {rule : Parse α} {next : α → Parse β} {height high : Nat}

theorem Climbs.mono (h : Climbs rule height) (hle : height ≤ high) : Climbs rule high :=
  ⟨fun setting session hended hreads =>
    Nat.le_trans (h.heights_le setting session hended hreads) (by omega)⟩

theorem Rises.climbs (h : Rises rule height) (hle : height ≤ high) : Climbs rule high :=
  ⟨fun setting session _ _ => Nat.le_trans (h.heights_le setting session) (by omega)⟩

theorem Climbs.bind [Advances rule] (hrule : Climbs rule high)
    (hnext : ∀ value, Climbs (next value) high) : Climbs (rule >>= next) high := by
  constructor
  intro setting session hended hreads
  have hfirst := hrule.heights_le setting session hended hreads
  have hforward := (advance rule setting session).forward
  rw [bind_run]
  rcases hrun : rule setting session with ⟨interruption | value, middle⟩ <;>
    rw [hrun] at hfirst hforward <;> dsimp only at hfirst hforward ⊢
  · exact hfirst
  · have hsecond := (hnext value).heights_le setting middle hended (hreads.leads hforward)
    have hmarks := hreads.scopeCount_le hforward
    omega

/-- What follows adds nodes whose height does not depend on the marks. -/
theorem Climbs.followed (hrule : Climbs rule high) (hnext : ∀ value, Rises (next value) height)
    (hle : height ≤ high) : Climbs (rule >>= next) high := by
  constructor
  intro setting session hended hreads
  have hfirst := hrule.heights_le setting session hended hreads
  rw [bind_run]
  rcases hrun : rule setting session with ⟨interruption | value, middle⟩ <;>
    rw [hrun] at hfirst <;> dsimp only at hfirst ⊢
  · exact hfirst
  · have hsecond := (hnext value).heights_le setting middle
    omega

theorem Climbs.node (kind : NodeKind) (h : Climbs rule height) :
    Climbs (node kind rule) (height + 1) := by
  constructor
  intro setting session hended hreads
  have hinner : _ ≤ max (heights (Node.empty kind).children) (height + 2 * scopeCount session.ahead) :=
    h.heights_le setting { session with building := .empty kind } hended hreads
  have hempty : (Node.empty kind).children = [] := rfl
  rw [hempty, heights_nil, Nat.zero_max] at hinner
  change heights (session.building.append _).children ≤ _
  rw [children_append, heights_append, heights_cons, heights_nil, height_eq, Nat.max_zero]
  omega

theorem Climbs.attempt (h : Climbs rule height) : Climbs (attempt rule) height := by
  constructor
  intro setting session hended hreads
  have hrule := h.heights_le setting session hended hreads
  rw [attempt_run]
  split <;> rename_i heq <;> rw [heq] at hrule <;> exact hrule

theorem Climbs.repeatRule {body : Parse Bool} [Advances body] (h : Climbs body height) :
    Climbs (repeatRule body) height := by
  have hdone : Rises (pure () : Parse Unit) 0 := inferInstance
  have hrounds (count : Nat) : Climbs (repeatUpTo count body) height := by
    induction count with
    | zero => exact hdone.climbs (Nat.zero_le _)
    | succ count ih =>
        unfold repeatUpTo
        refine h.bind fun again => ?_
        cases again with
        | true => exact ih
        | false => exact hdone.climbs (Nat.zero_le _)
  exact ⟨fun setting session => (hrounds _).heights_le setting session⟩

theorem Climbs.recovering {inBraces : Bool} {rule : Parse Unit} (h : Climbs rule height) :
    Climbs (recovering inBraces rule) height := by
  unfold Parse.recovering
  refine h.attempt.followed (fun done => ?_) (Nat.zero_le _)
  exact Rises.mono inferInstance (by simp)

end

/-- A path stacks a script and a namespace for each mark between its names. -/
theorem climbs_namespacePath {body : Parse Unit} {height : Nat} [Advances body]
    (hbody : Climbs body height) (count : Nat) :
    Climbs (namespacePath body count) (max 1 height) := by
  induction count with
  | zero =>
      have hnothing : Rises (namespacePath body 0) 0 := inferInstanceAs (Rises (pure ()) 0)
      exact hnothing.climbs (Nat.zero_le _)
  | succ count ih =>
      unfold namespacePath
      refine Climbs.bind (Rises.climbs inferInstance (by omega)) fun _ => ?_
      constructor
      intro setting session hended hreads
      rw [nextIs_bind]
      by_cases hscope : (setting.head session).kind = .scope
      · simp only [hscope, decide_true, ↓reduceIte]
        -- The mark is behind the names that follow it, and the two nodes count for it.
        have hmarks := scopeCount_tail_lt hscope hended
        have hbelow := ((ih.node .namespace_).node .script).heights_le setting
          { session with
            ahead := session.ahead.tail
            building := session.building.widen (setting.head session).span } hended hreads.tail
        rw [children_widen] at hbelow
        dsimp only at hbelow
        exact Nat.le_trans hbelow (by omega)
      · simp only [hscope, decide_false, Bool.false_eq_true, ↓reduceIte]
        have hbrace : Climbs (do let _ ← require .openBrace; body) (max 1 height) :=
          .bind (Rises.climbs inferInstance (by omega)) fun _ => hbody.mono (Nat.le_max_right _ _)
        exact hbrace.heights_le setting session hended hreads

instance (message : Message) : Rises (reportExpected message) 0 :=
  rises_of_same fun _ _ => rfl

instance : Rises (interrupt : Parse α) 0 :=
  rises_of_same fun _ _ => rfl

instance (construct : Construct) (start : List Token) :
    Rises (failInside construct start : Parse α) 0 :=
  rises_of_same fun _ _ => rfl

instance : Rises namespaceKeyword 1 := by
  unfold namespaceKeyword
  exact Rises.mono inferInstance (by omega)

instance (opening : List Token) : Rises (namespaceClosing opening) 0 := by
  unfold namespaceClosing
  exact Rises.mono inferInstance (by omega)

theorem climbs_namespaceBody {body : Parse Unit} {height : Nat} [Advances body]
    (hbody : Climbs body height) : Climbs (namespaceBody body) (max 1 height + 1) := by
  have hpath (opening : List Token) : Climbs (do
      namespacePath body ((← ahead).length + 1)
      namespaceClosing opening) (max 1 height) := by
    refine .bind (Rises.climbs inferInstance (by omega)) fun rest => ?_
    exact (climbs_namespacePath hbody _).followed (fun _ => inferInstance) (Nat.zero_le _)
  refine Climbs.node .namespace_ ?_
  refine .bind (Rises.climbs inferInstance (by omega)) fun _ => ?_
  refine .bind (Rises.climbs inferInstance (by omega)) fun tokens => ?_
  dsimp only
  split
  · exact .bind (Rises.climbs inferInstance (by omega)) fun _ => hpath _
  · exact hpath _

theorem climbs_scriptItem {nested : Parse Unit} {height : Nat} (hnested : Climbs nested height)
    (room : Nat) (behind : List Token) :
    Climbs (scriptItem room nested behind) (max height (2 * room + 6)) := by
  unfold scriptItem
  refine .bind (Rises.climbs inferInstance (by omega)) fun setting => ?_
  dsimp only
  split
  case h_8 => exact hnested.mono (Nat.le_max_left _ _)
  all_goals exact Rises.climbs inferInstance (by omega)

theorem climbs_scriptBody {nested : Parse Unit} {height : Nat} [Advances nested]
    (hnested : Climbs nested height) (room : Nat) (inBraces : Bool) :
    Climbs (scriptBody room inBraces nested) (max height (2 * room + 6) + 1) := by
  refine Climbs.node .script (Climbs.repeatRule ?_)
  unfold scriptStep
  refine .bind (Rises.climbs inferInstance (by omega)) fun tokens => ?_
  refine .bind (Rises.climbs inferInstance (by omega)) fun setting => ?_
  dsimp only
  split
  · exact Rises.climbs inferInstance (by omega)
  · exact (climbs_scriptItem hnested room _).recovering.followed (fun _ => inferInstance)
      (Nat.zero_le _)

theorem climbs_namespaceDeclaration (room : Nat) :
    Climbs (namespaceDeclaration room) (2 * room + 6) := by
  induction room with
  | zero =>
      have hdeep : Rises (tooDeep .namespace_) 1 := inferInstance
      exact hdeep.climbs (by omega)
  | succ room ih =>
      have hbody := climbs_namespaceBody (climbs_scriptBody ih room true)
      have hmono := hbody.mono (show _ ≤ 2 * (room + 1) + 6 by omega)
      exact ⟨fun setting session => hmono.heights_le setting session⟩

theorem climbs_script (room : Nat) : Climbs (script room) (2 * room + 7) :=
  (climbs_scriptBody (climbs_namespaceDeclaration room) room false).mono (by omega)

end Parse

end Grammar

namespace Entry

open Grammar

theorem script_height_le (options : Options) (source : Source) :
    (script.parse options source).root.height ≤
      2 * options.maxDepth + 7 + 2 * scopeCount (source.tokensFrom 0) := by
  have hclimbs := (Parse.climbs_script options.maxDepth).heights_le (script.setting options source)
    ⟨source.tokensFrom 0, {}, .empty .undefined⟩ rfl ⟨0, rfl⟩
  refine root_height_le (Nat.le_trans hclimbs ?_) (by omega)
  simp [Node.empty]

/-- No path down the tree of a script has more than sixteen nodes for each level and for the first,
but for two nodes for each `::` mark of the source. -/
theorem script_path_le (options : Options) (source : Source) (path : List Node) :
    let root := (script.parse options source).root
    (root :: path).IsChain (fun parent child => child ∈ parent.children) →
      (root :: path).length ≤ 16 * (options.maxDepth + 1) + 2 * scopeCount (source.tokensFrom 0) := by
  intro root hchain
  calc (root :: path).length
      ≤ root.height := Node.length_le_height hchain
    _ ≤ 2 * options.maxDepth + 7 + 2 * scopeCount (source.tokensFrom 0) :=
        script_height_le options source
    _ ≤ 16 * (options.maxDepth + 1) + 2 * scopeCount (source.tokensFrom 0) := by omega

end Entry

end ScriptSyntax
