import ScriptSyntax.Proofs.Comparison.LockstepRules
import ScriptSyntax.Proofs.Separators

/-!
# Layout

Two sources of the same words may differ in all that stands between the words: blanks, comments and
line breaks.  Whether anything stands there does matter, but only inside a run of `>` and `=`, which
is read anew when a template list is closed in the middle of it.  So two sources whose words touch in
the same places have the same tree, apart from the places of the spans, and the same reports.
-/

namespace ScriptSyntax

/-! ## Words in the same order -/

/-- The tokens behind the two offsets are alike one by one, and each touches what stands before it
in both lists or in none. -/
inductive Twins : Nat → List Token → Nat → List Token → Prop
  | nil (offset offset' : Nat) : Twins offset [] offset' []
  | cons {offset offset' : Nat} {token other : Token} {tokens others : List Token}
      (halike : token.Alike other) (hgap : token.span.start = offset ↔ other.span.start = offset')
      (hrest : Twins token.span.stop tokens other.span.stop others) :
      Twins offset (token :: tokens) offset' (other :: others)

namespace Twins

variable {offset offset' first first' : Nat} {tokens others : List Token} {token other : Token}

/-- What stands before the first token makes no difference behind it. -/
theorem rebase (h : Twins offset (token :: tokens) offset' (other :: others)) :
    Twins token.span.start (token :: tokens) other.span.start (other :: others) := by
  cases h with
  | cons halike hgap hrest => exact .cons halike ⟨fun _ => rfl, fun _ => rfl⟩ hrest

theorem tail (h : Twins offset tokens offset' others) :
    ∃ first first', Twins first tokens.tail first' others.tail := by
  cases h with
  | nil => exact ⟨_, _, .nil offset offset'⟩
  | cons halike hgap hrest => exact ⟨_, _, hrest⟩

theorem nil_iff (h : Twins offset tokens offset' others) : others = [] ↔ tokens = [] := by
  cases h <;> simp

end Twins

/-! ## Runs of angle brackets -/

/-- What is cut out of a run does not depend on the text behind it. -/
theorem Lexeme.angle_append {c : Char} {run after : List Char}
    (hrun : (c :: run).all isAngleChar = true) (hafter : after.head?.any isAngleChar = false) :
    angle (c :: (run ++ after)) = angle (c :: run) := by
  have hchar {d : Char} (h : isAngleChar d = true) : d = '>' ∨ d = '=' := by
    simpa [isAngleChar] using h
  cases after with
  | nil => rw [List.append_nil]
  | cons d tail =>
      obtain ⟨hgreater, hequal⟩ : d ≠ '>' ∧ d ≠ '=' := by
        simpa [isAngleChar] using hafter
      -- four characters decide, and only those of the run can be of use
      rcases run with _ | ⟨x, _ | ⟨y, _ | ⟨z, run⟩⟩⟩ <;>
        simp only [List.all_cons, List.all_nil, Bool.and_eq_true] at hrun
      · rcases hchar hrun.1 with rfl | rfl <;> simp [angle, hgreater, hequal]
      · rcases hchar hrun.1 with rfl | rfl <;> rcases hchar hrun.2.1 with rfl | rfl <;>
          simp [angle, hgreater, hequal]
      · rcases hchar hrun.1 with rfl | rfl <;> rcases hchar hrun.2.1 with rfl | rfl <;>
          rcases hchar hrun.2.2.1 with rfl | rfl <;> simp [angle, hequal]
      · rcases hchar hrun.1 with rfl | rfl <;> rcases hchar hrun.2.1 with rfl | rfl <;>
          rcases hchar hrun.2.2.1 with rfl | rfl <;> rcases hchar hrun.2.2.2.1 with rfl | rfl <;> rfl

/-- No operator is cut out of a run that is longer than the run. -/
theorem Lexeme.angle_le {c : Char} {run : List Char} (hc : isAngleChar c = true) :
    0 < (angle (c :: run)).2 ∧ (angle (c :: run)).2 ≤ (c :: run).length := by
  have hne : c :: run ≠ [] := List.cons_ne_nil c run
  have hpos := classify_pos hne
  have hle := classify_le_length (c :: run)
  rw [classify_angle run hc] at hpos hle
  exact ⟨hpos, hle⟩

/-- The text of the operators of `>` and `=` that touch each other from an offset on, where the last
of them ends, and the tokens behind. -/
def angleRun : Nat → List Token → List Char × Nat × List Token
  | offset, [] => ([], offset, [])
  | offset, token :: rest =>
      if token.span.start = offset ∧ token.kind.isAngle then
        let behind := angleRun token.span.stop rest
        (token.text.toList ++ behind.1, behind.2)
      else ([], offset, token :: rest)

namespace Source

/-- The first token of a text that starts with an angle bracket. -/
theorem tokensAt_angle {c : Char} {run after : Source} (offset : Nat)
    (hrun : (c :: run).all Lexeme.isAngleChar = true)
    (hafter : after.head?.any Lexeme.isAngleChar = false) :
    ∃ operator body behind, c :: run = body ++ behind ∧ body ≠ [] ∧
      Lexeme.angle (c :: run) = (operator, body.length) ∧
      (TokenKind.operator operator).isAngle = true ∧
      tokensAt offset (c :: run ++ after) =
        ⟨.operator operator, ⟨offset, offset + size body⟩, String.ofList body⟩ ::
          tokensAt (offset + size body) (behind ++ after) := by
  have hc : Lexeme.isAngleChar c = true := by
    rw [List.all_cons, Bool.and_eq_true] at hrun
    exact hrun.1
  obtain ⟨hpos, hle⟩ := @Lexeme.angle_le c run hc
  have hkind := (Lexeme.angle_spec run hc).1
  have hclassify : Lexeme.classify (c :: run ++ after) =
      (.operator (Lexeme.angle (c :: run)).1, (Lexeme.angle (c :: run)).2) := by
    rw [List.cons_append, Lexeme.classify_angle _ hc, Lexeme.angle_append hrun hafter]
  generalize Lexeme.angle (c :: run) = found at *
  obtain ⟨operator, count⟩ := found
  dsimp only at *
  have hlength : ((c :: run).take count).length = count := List.length_take_of_le hle
  refine ⟨operator, (c :: run).take count, (c :: run).drop count,
    (List.take_append_drop count _).symm, ?_, by rw [hlength], hkind, ?_⟩
  · intro hnil
    rw [hnil, List.length_nil] at hlength
    omega
  · have hne : c :: run ++ after ≠ [] := by simp
    have hsignificant : (TokenKind.operator operator).isTrivia = false := rfl
    rw [tokensAt_eq hne, hclassify]
    simp only [hsignificant, Bool.false_eq_true, ↓reduceIte]
    rw [List.take_append_of_le_length hle, List.drop_append_of_le_length hle]

theorem vocabulary_isAngle : ∀ entry ∈ Lexeme.vocabulary, entry.2.isAngle = true →
    entry.1.head?.any Lexeme.isAngleChar = true := by decide

theorem inVocabulary_of_isAngle {kind : TokenKind} (h : kind.isAngle = true) :
    kind.inVocabulary = true := by
  unfold TokenKind.isAngle TokenKind.startsWithGreater at h
  split at h <;> simp_all [TokenKind.inVocabulary]
  split at h <;> simp_all

/-- Where a text starts with no angle bracket there is no run. -/
theorem angleRun_of_other {after : Source} (offset : Nat)
    (hafter : after.head?.any Lexeme.isAngleChar = false) :
    angleRun offset (tokensAt offset after) = ([], offset, tokensAt offset after) := by
  cases htokens : tokensAt offset after with
  | nil => rfl
  | cons token rest =>
      refine if_neg ?_
      rintro ⟨hstart, hkind⟩
      have hne : after ≠ [] := by
        rintro rfl
        simp at htokens
      rw [tokensAt_eq hne] at htokens
      dsimp only at htokens
      split at htokens
      · -- behind a blank there is no token at the offset
        have hmem : token ∈ tokensAt (offset + size (after.take (Lexeme.classify after).2))
            (after.drop (Lexeme.classify after).2) := htokens ▸ List.mem_cons_self
        have hle := le_start_of_mem_tokensAt hmem
        have hpos : 0 < size (after.take (Lexeme.classify after).2) := by
          refine size_pos ?_
          rw [ne_eq, List.take_eq_nil_iff, not_or]
          exact ⟨Nat.ne_of_gt (Lexeme.classify_pos hne), hne⟩
        omega
      · obtain ⟨rfl, -⟩ := List.cons.inj htokens
        obtain ⟨entry, hmem, hspells, hentry⟩ :=
          Lexeme.mem_vocabulary_of_classify hne (inVocabulary_of_isAngle hkind)
        have hangle := vocabulary_isAngle entry hmem (by
          rw [hentry] at hkind
          exact hkind)
        obtain ⟨tail, htail⟩ := Lexeme.isPrefixOf_of_spells hspells
        obtain ⟨c, body, hbody⟩ := List.exists_cons_of_ne_nil (Lexeme.vocabulary_ne_nil entry hmem)
        rw [← htail, hbody] at hafter
        rw [hbody] at hangle
        exact absurd hangle (by simpa using hafter)

/-- The run at the start of a text is read off its tokens. -/
theorem angleRun_tokensAt {run after : Source} (offset : Nat)
    (hrun : run.all Lexeme.isAngleChar = true)
    (hafter : after.head?.any Lexeme.isAngleChar = false) :
    angleRun offset (tokensAt offset (run ++ after)) =
      (run, offset + size run, tokensAt (offset + size run) after) := by
  induction hlength : run.length using Nat.strongRecOn generalizing run offset with
  | ind length ih =>
      cases run with
      | nil => exact angleRun_of_other offset hafter
      | cons c rest =>
          obtain ⟨operator, body, behind, hsplit, hne, -, hkind, htokens⟩ :=
            tokensAt_angle offset hrun hafter
          have hbehind : behind.all Lexeme.isAngleChar = true := by
            rw [hsplit, List.all_append, Bool.and_eq_true] at hrun
            exact hrun.2
          have hshorter : behind.length < length := by
            have hpos := List.length_pos_iff.mpr hne
            rw [← hlength, hsplit, List.length_append]
            omega
          rw [htokens, angleRun, if_pos ⟨rfl, hkind⟩]
          dsimp only
          rw [ih _ hshorter _ hbehind rfl, hsplit, size_append, Nat.add_assoc, String.toList_ofList]

/-- Runs of the same text are cut into the same operators, whatever stands behind them. -/
theorem twins_of_run {run after after' : Source} {offset offset' : Nat}
    (hrun : run.all Lexeme.isAngleChar = true)
    (hafter : after.head?.any Lexeme.isAngleChar = false)
    (hafter' : after'.head?.any Lexeme.isAngleChar = false)
    (h : Twins (offset + size run) (tokensAt (offset + size run) after)
      (offset' + size run) (tokensAt (offset' + size run) after')) :
    Twins offset (tokensAt offset (run ++ after)) offset' (tokensAt offset' (run ++ after')) := by
  induction hlength : run.length using Nat.strongRecOn generalizing run offset offset' with
  | ind length ih =>
      cases run with
      | nil => exact h
      | cons c rest =>
          obtain ⟨operator, body, behind, hsplit, hne, hangle, -, htokens⟩ :=
            tokensAt_angle offset hrun hafter
          obtain ⟨operator', body', behind', hsplit', -, hangle', -, htokens'⟩ :=
            tokensAt_angle offset' hrun hafter'
          rw [hangle, Prod.mk.injEq] at hangle'
          obtain ⟨rfl, hcount⟩ := hangle'
          obtain ⟨rfl, rfl⟩ := List.append_inj (hsplit.symm.trans hsplit') hcount
          have hbehind : behind.all Lexeme.isAngleChar = true := by
            rw [hsplit, List.all_append, Bool.and_eq_true] at hrun
            exact hrun.2
          have hshorter : behind.length < length := by
            have hpos := List.length_pos_iff.mpr hne
            rw [← hlength, hsplit, List.length_append]
            omega
          rw [htokens, htokens']
          refine .cons ⟨rfl, rfl⟩ ⟨fun _ => rfl, fun _ => rfl⟩ ?_
          refine ih _ hshorter hbehind ?_ rfl
          rw [hsplit, size_append, ← Nat.add_assoc, ← Nat.add_assoc] at h
          exact h

end Source

namespace Twins

variable {offset offset' : Nat} {tokens others : List Token} {token other : Token}

theorem angleRuns (h : Twins offset tokens offset' others) :
    (angleRun offset' others).1 = (angleRun offset tokens).1 ∧
      Twins (angleRun offset tokens).2.1 (angleRun offset tokens).2.2
        (angleRun offset' others).2.1 (angleRun offset' others).2.2 := by
  induction h with
  | nil => exact ⟨rfl, .nil _ _⟩
  | @cons offset offset' token other tokens others halike hgap hrest ih =>
      by_cases hangle : token.span.start = offset ∧ token.kind.isAngle
      · have hangle' : other.span.start = offset' ∧ other.kind.isAngle :=
          ⟨hgap.mp hangle.1, halike.kind ▸ hangle.2⟩
        rw [angleRun, angleRun, if_pos hangle, if_pos hangle']
        dsimp only
        exact ⟨by rw [halike.text, ih.1], ih.2⟩
      · have hangle' : ¬(other.span.start = offset' ∧ other.kind.isAngle) := by
          rintro ⟨hstart, hkind⟩
          exact hangle ⟨hgap.mpr hstart, halike.kind ▸ hkind⟩
        rw [angleRun, angleRun, if_neg hangle, if_neg hangle']
        exact ⟨rfl, .cons halike hgap hrest⟩

end Twins

/-- The text behind the first byte of an operator, as its run goes on. -/
theorem Source.Holds.split_run {source : Source} {token : Token} {others after : Source}
    (h : Source.Holds source token ('>' :: others) after) :
    ∃ run behind, run.all Lexeme.isAngleChar = true ∧
      behind.head?.any Lexeme.isAngleChar = false ∧
      source.tokensFrom token.span.start =
        tokensAt token.span.start ('>' :: run ++ behind) ∧
      source.tokensFrom (token.span.start + 1) =
        tokensAt (token.span.start + 1) (run ++ behind) := by
  have hsplit : (others ++ after).takeWhile Lexeme.isAngleChar ++
      (others ++ after).dropWhile Lexeme.isAngleChar = others ++ after :=
    List.takeWhile_append_dropWhile
  refine ⟨(others ++ after).takeWhile Lexeme.isAngleChar, _, List.all_takeWhile,
    head?_dropWhile_any _ (others ++ after), ?_, ?_⟩
  · rw [tokensFrom_of_suffix? h.found, List.cons_append, List.cons_append, hsplit]
  · rw [tokensFrom_of_suffix? h.found_next, hsplit]

namespace Grammar

variable {left right : Setting} {offset offset' : Nat} {tokens others : List Token}
  {token other : Token}

/-- The first byte of an operator is taken off on both sides. -/
theorem reread_twins (h : Twins offset (token :: tokens) offset' (other :: others))
    (hleft : left.Reads (token :: tokens)) (hright : right.Reads (other :: others))
    (hkind : token.kind.startsWithGreater = true) (hkind' : other.kind.startsWithGreater = true) :
    Twins (token.span.start + 1) (left.source.tokensFrom (token.span.start + 1))
      (other.span.start + 1) (right.source.tokensFrom (other.span.start + 1)) := by
  obtain ⟨⟨body, after, hholds⟩, hrest⟩ := hleft.cons
  obtain ⟨⟨body', after', hholds'⟩, hrest'⟩ := hright.cons
  obtain ⟨more, rfl⟩ := hholds.greater_cons hkind
  obtain ⟨more', rfl⟩ := hholds'.greater_cons hkind'
  obtain ⟨run, behind, hrun, hbehind, hwhole, hnext⟩ := hholds.split_run
  obtain ⟨run', behind', hrun', hbehind', hwhole', hnext'⟩ := hholds'.split_run
  have hgreater {run : Source} (h : run.all Lexeme.isAngleChar = true) :
      ('>' :: run).all Lexeme.isAngleChar = true := by
    rw [List.all_cons, h]
    rfl
  obtain ⟨hsame, htwins⟩ := h.rebase.angleRuns
  rw [hrest, hrest', ← hholds.tokensFrom_start, ← hholds'.tokensFrom_start, hwhole, hwhole',
    Source.angleRun_tokensAt _ (hgreater hrun) hbehind,
    Source.angleRun_tokensAt _ (hgreater hrun') hbehind'] at hsame htwins
  obtain rfl : run' = run := (List.cons.inj hsame).2
  rw [hnext, hnext']
  refine Source.twins_of_run hrun hbehind hbehind' ?_
  have hsize : Source.size ('>' :: run') = 1 + Source.size run' := rfl
  dsimp only at htwins
  rw [hsize, ← Nat.add_assoc, ← Nat.add_assoc] at htwins
  exact htwins

/-- Tokens that are alike are of the same length. -/
theorem length_of_alike (h : token.Alike other) (hleft : left.Reads (token :: tokens))
    (hright : right.Reads (other :: others)) : other.span.length = token.span.length := by
  obtain ⟨⟨body, after, hholds⟩, -⟩ := hleft.cons
  obtain ⟨⟨body', after', hholds'⟩, -⟩ := hright.cons
  have hbody : body' = body := by
    have htext := h.text
    rw [hholds.text, hholds'.text] at htext
    exact String.ofList_injective htext
  rw [Span.length, Span.length, hholds.stop, hholds'.stop, hbody, Nat.add_sub_cancel_left,
    Nat.add_sub_cancel_left]

theorem byteCount_twins (h : Twins offset tokens offset' others) (hleft : left.Reads tokens)
    (hright : right.Reads others) : byteCount others = byteCount tokens := by
  induction h with
  | nil => rfl
  | @cons offset offset' token other tokens others halike hgap hrest ih =>
      rw [byteCount_cons, byteCount_cons, length_of_alike halike hleft hright,
        ih hleft.tail hright.tail]

/-- The same words in two settings. -/
def Correspondence.twins (left right : Setting) (hoptions : right.options = left.options)
    (happlication : right.application = left.application) (hended : left.Ended)
    (hfinish : left.finish.Alike right.finish) : Correspondence where
  left := left
  right := right
  pairs tokens others := (left.Reads tokens ∧ right.Reads others) ∧
    ∃ offset offset', Twins offset tokens offset' others
  options_eq := hoptions
  application_eq := happlication
  ended := hended
  finish := hfinish
  reads h := h.1
  nil := by
    have hreads (setting : Setting) : setting.Reads [] :=
      ⟨setting.source.size, (Source.tokensFrom_of_size_le (Nat.le_refl _)).symm⟩
    exact ⟨⟨hreads left, hreads right⟩, 0, 0, .nil 0 0⟩
  nil_iff := by
    rintro tokens others ⟨-, offset, offset', h⟩
    exact h.nil_iff
  heads := by
    rintro token other tokens others ⟨-, offset, offset', h⟩
    cases h with
    | cons halike => exact halike
  tails := by
    rintro tokens others ⟨⟨hleft, hright⟩, offset, offset', h⟩
    exact ⟨⟨hleft.tail, hright.tail⟩, h.tail⟩
  greater := by
    rintro tokens others ⟨⟨hleft, hright⟩, offset, offset', h⟩
    cases h with
    | nil => exact .none
    | @cons _ _ token other tokens others halike hgap hrest =>
        rw [hleft.afterGreater?, hright.afterGreater?, halike.kind]
        split
        · rename_i hkind
          exact .some ⟨⟨⟨_, rfl⟩, ⟨_, rfl⟩⟩, _, _,
            reread_twins (.cons halike hgap hrest) hleft hright hkind (halike.kind ▸ hkind)⟩
        · exact .none
  bytes := by
    rintro tokens others ⟨⟨hleft, hright⟩, offset, offset', h⟩
    exact byteCount_twins h hleft hright

end Grammar

/-! ## Trees without places -/

namespace Node

mutual

/-- The tree with no place in any span. -/
def erase : Node → Node
  | ⟨kind, token, span, children⟩ => ⟨kind, token, span.map fun _ => .nowhere, eraseAll children⟩

def eraseAll : List Node → List Node
  | [] => []
  | node :: rest => erase node :: eraseAll rest

end

theorem eraseAll_eq (nodes : List Node) : eraseAll nodes = nodes.map erase := by
  induction nodes with
  | nil => rfl
  | cons node rest ih => rw [eraseAll, ih, List.map_cons]

theorem erase_eq (node : Node) :
    node.erase =
      ⟨node.kind, node.token, node.span.map fun _ => .nowhere, node.children.map erase⟩ := by
  obtain ⟨kind, token, span, children⟩ := node
  rw [erase, eraseAll_eq]

/-- The nodes are of the same kind, have spans both or neither, and their children are the same
apart from where they stand. -/
structure SameShape (first second : Node) : Prop where
  kind : second.kind = first.kind
  token : second.token = first.token
  spanned : second.span.isSome = first.span.isSome
  children : second.children.map erase = first.children.map erase

/-- No span of the node ends where the source starts. -/
def Solid (node : Node) : Prop :=
  ∀ span, node.span = some span → 0 < span.stop

theorem isSome_widen_of {node : Node} {span : Span} (h : 0 < span.stop ∨ node.span.isSome) :
    (node.widen span).span.isSome = true := by
  unfold widen
  split
  · rename_i hnowhere
    refine h.resolve_left fun hpos => ?_
    rw [hnowhere] at hpos
    exact absurd hpos (Nat.lt_irrefl 0)
  · rfl

theorem Solid.widen {node : Node} {span : Span} (h : node.Solid)
    (hspan : 0 < span.stop ∨ node.span.isSome) : (node.widen span).Solid :=
  span_of_widen (P := (0 < ·.stop)) h (fun hnone => hspan.resolve_right (by simp [hnone]))
    fun hold => Nat.lt_of_lt_of_le hold (Nat.le_max_left _ _)

theorem Solid.append {node child : Node} (h : node.Solid) (hchild : child.Solid) :
    (node.append child).Solid :=
  span_of_append (P := (0 < ·.stop)) h hchild
    fun hold _ => Nat.lt_of_lt_of_le hold (Nat.le_max_left _ _)

namespace SameShape

variable {first second child child' : Node}

theorem iff_erase : first.SameShape second ↔ second.erase = first.erase := by
  rw [erase_eq, erase_eq, Node.mk.injEq]
  constructor
  · rintro ⟨hkind, htoken, hspanned, hchildren⟩
    refine ⟨hkind, htoken, ?_, hchildren⟩
    cases hfirst : first.span <;> cases hsecond : second.span <;> simp_all
  · rintro ⟨hkind, htoken, hspan, hchildren⟩
    refine ⟨hkind, htoken, ?_, hchildren⟩
    have hsome := congrArg Option.isSome hspan
    rwa [Option.isSome_map, Option.isSome_map] at hsome

theorem widen {span span' : Span} (h : first.SameShape second)
    (hspan : 0 < span.stop ∨ first.span.isSome) (hspan' : 0 < span'.stop ∨ second.span.isSome) :
    (first.widen span).SameShape (second.widen span') where
  kind := by rw [(first.grows_widen span).kind, (second.grows_widen span').kind, h.kind]
  token := by rw [token_widen, token_widen, h.token]
  spanned := by rw [isSome_widen_of hspan, isSome_widen_of hspan']
  children := by rw [children_widen, children_widen, h.children]

theorem append (h : first.SameShape second) (hchild : child.SameShape child')
    (hsolid : child.Solid) (hsolid' : child'.Solid) :
    (first.append child).SameShape (second.append child') where
  kind := by rw [(first.grows_append child).kind, (second.grows_append child').kind, h.kind]
  token := by rw [token_append, token_append, h.token]
  spanned := by
    have hboth := hchild.spanned
    rw [span_append, span_append]
    cases hspan : child.span with
    | none =>
        rw [hspan, Option.isSome_none, Option.isSome_eq_false_iff, Option.isNone_iff_eq_none] at hboth
        rw [hboth]
        exact h.spanned
    | some span =>
        rw [hspan] at hboth
        obtain ⟨span', hspan'⟩ := Option.isSome_iff_exists.mp hboth
        rw [hspan', Option.elim_some, Option.elim_some, isSome_widen_of (.inl (hsolid span hspan)),
          isSome_widen_of (.inl (hsolid' span' hspan'))]
  children := by
    have herase := iff_erase.mp hchild
    rw [children_append, children_append, List.map_append, List.map_append, h.children]
    simp only [List.map_cons, List.map_nil, herase]

end SameShape

end Node

/-! ## Runs -/

namespace Grammar

/-- The sessions are the same apart from the places of spans and reports. -/
structure SameShape (s t : Session) : Prop where
  building : s.building.SameShape t.building
  solid : s.building.Solid
  solid' : t.building.Solid
  reports : t.diagnostics.reported.map (fun report => (report.severity, report.text)) =
    s.diagnostics.reported.map fun report => (report.severity, report.text)

namespace SameShape

variable {s t : Session} {span span' : Span} {left right : Setting}

theorem widen (h : SameShape s t) (hspan : 0 < span.stop ∨ s.building.span.isSome)
    (hspan' : 0 < span'.stop ∨ t.building.span.isSome) :
    SameShape { s with building := s.building.widen span }
      { t with building := t.building.widen span' } :=
  ⟨h.building.widen hspan hspan', h.solid.widen hspan, h.solid'.widen hspan', h.reports⟩

theorem labelled (h : SameShape s t) {kind : TokenKind} :
    SameShape { s with building := { s.building with token := some kind } }
      { t with building := { t.building with token := some kind } } :=
  ⟨⟨h.building.kind, rfl, h.building.spanned, h.building.children⟩, h.solid, h.solid', h.reports⟩

theorem moved (h : SameShape s t) (tokens others : List Token) :
    SameShape (s.at tokens) (t.at others) :=
  ⟨h.building, h.solid, h.solid', h.reports⟩

theorem opened (h : SameShape s t) (kind : NodeKind) :
    SameShape (s.opened kind) (t.opened kind) := by
  refine ⟨⟨rfl, rfl, rfl, rfl⟩, ?_, ?_, h.reports⟩
  · rintro span ⟨⟩
  · rintro span ⟨⟩

theorem closed {after other : Session} (h : SameShape s t) (hafter : SameShape after other) :
    SameShape (s.closed after) (t.closed other) :=
  ⟨h.building.append hafter.building hafter.solid hafter.solid', h.solid.append hafter.solid,
    h.solid'.append hafter.solid', hafter.reports⟩

theorem reported (h : SameShape s t) (severity : Severity) {message message' : Message}
    (htext : message'.text = message.text) :
    SameShape (left.reports severity message s) (right.reports severity message' t) := by
  refine ⟨h.building, h.solid, h.solid', ?_⟩
  change List.map _ (_ ++ [_]) = List.map _ (_ ++ [_])
  rw [List.map_append, List.map_append, h.reports, List.map_singleton, List.map_singleton, htext]

end SameShape

/-- Runs over the same words keep to the same shapes. -/
def Lockstep.sameShape (C : Correspondence) : Lockstep where
  toCorrespondence := C
  Frame := Unit
  holds _ _ := SameShape
  rewound _ _ _ := False
  astray _ _ _ := False
  inside _ _ := ()
  within _ _ := True
  begins _ _ := True
  within_ahead _ := trivial
  within_suffix _ _ _ := trivial
  begins_ahead _ _ := trivial
  begins_suffix _ _ _ := trivial
  begins_wider _ _ := trivial
  lost _ := False
  lost_reported _ h := h
  loosen := id
  loosest := id
  note := by
    intro p n s t imprint hpairs h hthere
    have hkind := (C.head hpairs).kind
    have hstops : 0 < (C.left.head s).span.stop ∨ s.building.span.isSome :=
      hthere.imp_left fun hne => Nat.zero_lt_of_lt (Correspondence.solid hpairs hne).1
    have hstops' : 0 < (C.right.head t).span.stop ∨ t.building.span.isSome := by
      refine hthere.imp ?_ fun hspan => h.building.spanned.trans hspan
      exact fun hne => Nat.zero_lt_of_lt (Correspondence.solid hpairs hne).2
    cases imprint with
    | none => exact h
    | span => exact h.widen hstops hstops'
    | anchor =>
        unfold Setting.noted Node.imprinted Node.anchor
        rw [show (C.right.head t).kind = (C.left.head s).kind from hkind]
        exact (@SameShape.labelled s t h (C.left.head s).kind).widen hstops hstops'
  label := by
    intro n s t hpairs h
    unfold Setting.labelled
    rw [show (C.right.head t).kind = (C.left.head s).kind from (C.head hpairs).kind]
    exact h.labelled
  slot := by
    intro n s t hpairs h hkind
    exact h.widen (.inl (Nat.succ_pos _)) (.inl (Nat.succ_pos _))
  shorten := by
    intro n s t tokens others hpairs h hgreater hothers
    exact (h.widen (.inl (Nat.succ_pos _)) (.inl (Nat.succ_pos _))).moved tokens others
  behind _ h _ _ _ := h.moved _ _
  onward _ h _ _ := h.moved _ _
  opened kind _ h := h.opened kind
  closed _ _ h _ hafter := h.closed hafter
  rewound_closed _ _ _ _ _ h := h
  astray_closed _ _ _ _ _ h := h
  report severity message message' _ htext _ h := h.reported severity htext
  rewind _ _ _ _ _ h _ := .inr (.inl ((h.moved _ _).reported .info rfl))
  rewound_reach _ _ _ _ _ _ h _ := h
  astray_reach _ _ _ _ _ _ h _ := h
  reach := by
    intro p n s t s₀ t₀ token tokens other others h₀ hpairs₀ hsuffix hpairs hpairs' h hleads
    obtain ⟨hstop, hstop'⟩ := Correspondence.solid hpairs (by simp)
    exact h.widen (.inl (Nat.zero_lt_of_lt hstop)) (.inl (Nat.zero_lt_of_lt hstop'))

instance (C : Correspondence) : (Lockstep.sameShape C).Resumes :=
  ⟨fun _ _ h => h.elim⟩

end Grammar

/-! ## Sources -/

namespace Source

/-- The words of a source in order. -/
def words (source : Source) : List (TokenKind × String) :=
  (source.tokensFrom 0).map fun token => (token.kind, token.text)

/-- Whether each token touches the next one. -/
def touching (source : Source) : List Bool :=
  ((source.tokensFrom 0).zip (source.tokensFrom 0).tail).map fun pair =>
    decide (pair.1.span.stop = pair.2.span.start)

/-- The two sources may differ only in what stands between words that do not touch. -/
structure SameWords (first second : Source) : Prop where
  words : second.words = first.words
  touching : second.touching = first.touching

instance (first second : Source) : Decidable (first.SameWords second) :=
  decidable_of_iff (second.words = first.words ∧ second.touching = first.touching)
    ⟨fun h => ⟨h.1, h.2⟩, fun h => ⟨h.words, h.touching⟩⟩

theorem twins_of_words {tokens others : List Token}
    (hwords : others.map (fun token => (token.kind, token.text)) =
      tokens.map fun token => (token.kind, token.text))
    (htouching : (others.zip others.tail).map (fun pair => decide (pair.1.span.stop = pair.2.span.start)) =
      (tokens.zip tokens.tail).map fun pair => decide (pair.1.span.stop = pair.2.span.start)) :
    ∃ offset offset', Twins offset tokens offset' others := by
  induction tokens generalizing others with
  | nil =>
      obtain rfl : others = [] := List.map_eq_nil_iff.mp hwords
      exact ⟨0, 0, .nil 0 0⟩
  | cons token tokens ih =>
      cases others with
      | nil => simp at hwords
      | cons other others =>
          rw [List.map_cons, List.map_cons, List.cons.injEq, Prod.mk.injEq] at hwords
          obtain ⟨⟨hkind, htext⟩, hwords⟩ := hwords
          refine ⟨token.span.start, other.span.start, .cons ⟨hkind, htext⟩ ⟨fun _ => rfl, fun _ => rfl⟩ ?_⟩
          cases tokens with
          | nil =>
              obtain rfl : others = [] := List.map_eq_nil_iff.mp hwords
              exact .nil _ _
          | cons next tokens =>
              cases others with
              | nil => simp at hwords
              | cons next' others =>
                  simp only [List.tail_cons, List.zip_cons_cons, List.map_cons, List.cons.injEq,
                    decide_eq_decide] at htouching
                  obtain ⟨hgap, htouching⟩ := htouching
                  obtain ⟨offset, offset', htwins⟩ := ih hwords htouching
                  cases htwins with
                  | cons halike _ hrest =>
                      exact .cons halike ⟨fun h => (hgap.mpr h.symm).symm, fun h => (hgap.mp h.symm).symm⟩ hrest

/-- From where a token starts on, the tokens are those of the source from that token on. -/
theorem tokensFrom_start_of_getElem? {source : Source} {index : Nat} {token : Token}
    (h : source.tokens[index]? = some token) :
    source.tokensFrom token.span.start = (source.tokensFrom 0).drop index := by
  have hfrom (offset : Nat) (hinside : (source.tokensFrom offset)[index]? = some token) :
      source.tokensFrom token.span.start = (source.tokensFrom offset).drop index := by
    clear h
    induction index generalizing offset with
    | zero =>
        cases htokens : source.tokensFrom offset with
        | nil => simp [htokens] at hinside
        | cons first rest =>
            obtain ⟨body, after, hholds, -, hrest⟩ := tokensFrom_eq_cons htokens
            obtain rfl : first = token := by simpa [htokens] using hinside
            rw [hholds.tokensFrom_start, hrest, List.drop_zero]
    | succ index ih =>
        cases htokens : source.tokensFrom offset with
        | nil => simp [htokens] at hinside
        | cons first rest =>
            obtain ⟨body, after, hholds, -, hrest⟩ := tokensFrom_eq_cons htokens
            rw [htokens, List.getElem?_cons_succ, hrest] at hinside
            rw [ih _ hinside, hrest, List.drop_succ_cons]
  by_cases hindex : index < (source.tokensFrom 0).length
  · rw [tokens, List.getElem?_append_left hindex] at h
    exact hfrom 0 h
  · rw [tokens, List.getElem?_append_right (Nat.le_of_not_lt hindex)] at h
    obtain rfl : Token.endAt source.size = token := by
      cases hrest : index - (source.tokensFrom 0).length with
      | zero => simpa [hrest] using h
      | succ count => simp [hrest] at h
    rw [List.drop_eq_nil_of_le (Nat.le_of_not_lt hindex)]
    exact tokensFrom_of_size_le (Nat.le_refl _)

end Source

theorem Twins.drop {offset offset' : Nat} {tokens others : List Token}
    (h : Twins offset tokens offset' others) (count : Nat) :
    ∃ first first', Twins first (tokens.drop count) first' (others.drop count) := by
  induction count generalizing offset offset' tokens others with
  | zero => exact ⟨offset, offset', h⟩
  | succ count ih =>
      obtain ⟨first, first', htail⟩ := h.tail
      rw [← List.drop_tail, ← List.drop_tail]
      exact ih htail

namespace Diagnostics

theorem ofSeverity_texts {first second : Diagnostics}
    (h : second.reported.map (fun report => (report.severity, report.text)) =
      first.reported.map fun report => (report.severity, report.text)) (severity : Severity) :
    (second.ofSeverity severity).map (·.text) = (first.ofSeverity severity).map (·.text) := by
  have hread (all : Diagnostics) : (all.ofSeverity severity).map (·.text) =
      ((all.reported.map fun report => (report.severity, report.text)).filter
        (·.1 = severity)).map (·.2) := by
    rw [List.filter_map, List.map_map]
    rfl
  rw [hread, hread, h]

end Diagnostics

namespace Entry

open Grammar

/-- The entry, from another offset on if it does not start where the source does. -/
def withStart (start : Nat) : Entry → Entry
  | statementBlock _ => statementBlock start
  | initializer _ => initializer start
  | entry => entry

/-- Blanks, comments and line breaks make no difference, as long as the same words touch: the trees
are the same but for the places of their spans, and so are the reports. -/
theorem parse_layout (entry : Entry) (options : Options) {first second : Source}
    (hwords : first.SameWords second) {index : Nat} {token other : Token}
    (htoken : first.tokens[index]? = some token) (hother : second.tokens[index]? = some other) :
    let outcome := (entry.withStart token.span.start).parse options first
    let outcome' := (entry.withStart other.span.start).parse options second
    outcome'.root.erase = outcome.root.erase ∧
      outcome'.diagnostics.errors.map (·.text) = outcome.diagnostics.errors.map (·.text) ∧
      outcome'.diagnostics.warnings.map (·.text) = outcome.diagnostics.warnings.map (·.text) ∧
      outcome'.diagnostics.infos.map (·.text) = outcome.diagnostics.infos.map (·.text) := by
  have hfinish : ((entry.withStart token.span.start).setting options first).finish.Alike
      ((entry.withStart other.span.start).setting options second).finish := ⟨rfl, rfl⟩
  have happlication : (entry.withStart other.span.start).ofApplication =
      (entry.withStart token.span.start).ofApplication := by
    cases entry <;> rfl
  have hrule (room : Nat) : (entry.withStart other.span.start).rule room =
      (entry.withStart token.span.start).rule room := by
    cases entry <;> rfl
  obtain ⟨offset, offset', htwins⟩ := Source.twins_of_words hwords.words hwords.touching
  have hstart : ∃ offset offset',
      Twins offset (first.tokensFrom (entry.withStart token.span.start).start)
        offset' (second.tokensFrom (entry.withStart other.span.start).start) := by
    have hbehind := htwins.drop index
    rw [← Source.tokensFrom_start_of_getElem? htoken,
      ← Source.tokensFrom_start_of_getElem? hother] at hbehind
    cases entry with
    | statementBlock start => exact hbehind
    | initializer start => exact hbehind
    | _ => exact ⟨offset, offset', htwins⟩
  let L := Lockstep.sameShape (.twins ((entry.withStart token.span.start).setting options first)
    ((entry.withStart other.span.start).setting options second) rfl happlication rfl hfinish)
  have hfirst : L.Related .settled ()
      ⟨first.tokensFrom (entry.withStart token.span.start).start, {}, .empty .undefined⟩
      ⟨second.tokensFrom (entry.withStart other.span.start).start, {}, .empty .undefined⟩ := by
    refine ⟨⟨⟨⟨_, rfl⟩, ⟨_, rfl⟩⟩, hstart⟩, ⟨rfl, rfl, rfl, rfl⟩, ?_, ?_, rfl⟩
    · rintro span ⟨⟩
    · rintro span ⟨⟩
  have hlast : SameShape ((entry.withStart token.span.start).session options first)
      ((entry.withStart other.span.start).session options second) := by
    have hrelated := (L.entry_related (entry.withStart token.span.start) options.maxDepth
      hfirst).resolve_left id
    rw [session, session, hrule]
    exact hrelated.2.resolve_right id
  refine ⟨?_, Diagnostics.ofSeverity_texts hlast.reports _,
    Diagnostics.ofSeverity_texts hlast.reports _, Diagnostics.ofSeverity_texts hlast.reports _⟩
  have hchildren := hlast.building.children
  unfold parse
  dsimp only
  generalize ((entry.withStart token.span.start).session options first).building.children =
    children at hchildren
  generalize ((entry.withStart other.span.start).session options second).building.children =
    children' at hchildren
  cases children with
  | nil =>
      obtain rfl : children' = [] := List.map_eq_nil_iff.mp hchildren
      rfl
  | cons child rest =>
      cases children' with
      | nil => simp at hchildren
      | cons child' rest' => exact (List.cons.inj hchildren).1

/-- Two template lists that are closed by one operator: the inner one ends in the middle of it.  Of
the other blanks only the places of the spans are seen. -/
theorem parse_layout_splitOperator :
    let options : Options := { templateTypes := ["A"] }
    let first : Source := ['{', ' ', 'A', '<', 'A', '<', 'b', '>', '>', ' ', 'd', ' ', ';', ' ', '}']
    let second : Source := ['\n', '{', '\t', 'A', '<', 'A', '<', 'b', '>', '>', '/', '*', '*', '/', 'd',
      '\n', ';', '\n', '}']
    let outcome := (Entry.statementBlock 0).parse options first
    let outcome' := (Entry.statementBlock 1).parse options second
    (⟨.operator .shiftRight, ⟨7, 9⟩, ">>"⟩ : Token) ∈ first.tokens ∧
      (∀ span ∈ [(⟨2, 9⟩ : Span), ⟨4, 8⟩], some span ∈ outcome.root.descendants.map (·.span)) ∧
      (∀ span ∈ [(⟨3, 10⟩ : Span), ⟨5, 9⟩], some span ∈ outcome'.root.descendants.map (·.span)) ∧
      outcome.diagnostics.reported = [] ∧
      outcome'.root.erase = outcome.root.erase := by
  intro options first second outcome outcome'
  have hwords : first.SameWords second := by decide +kernel
  have htoken : first.tokens[0]? = some ⟨.openBrace, ⟨0, 1⟩, "\x7b"⟩ := by decide +kernel
  have hother : second.tokens[0]? = some ⟨.openBrace, ⟨1, 2⟩, "\x7b"⟩ := by decide +kernel
  have hparse := parse_layout (.statementBlock 0) options hwords htoken hother
  exact ⟨by decide +kernel, by decide +kernel, by decide +kernel, by decide +kernel, hparse.1⟩

end Entry

end ScriptSyntax
