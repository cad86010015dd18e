import ScriptSyntax.Proofs.Separators
import ScriptSyntax.Proofs.Termination

/-!
# Reading on

What a rule does on a text that is known: the tokens that stand at an offset, the loops round by
round, and how far the node reaches that is being built.
-/

namespace ScriptSyntax

namespace Source

theorem upTo?_append_size (first second : Source) :
    upTo? (first ++ second) (size first) = some first := by
  induction first with
  | nil => cases second <;> rfl
  | cons c rest ih =>
      have hpos : 0 < c.utf8Size := Char.utf8Size_pos c
      obtain ⟨n, hn⟩ : ∃ n, size (c :: rest) = n + 1 := by
        refine ⟨size (c :: rest) - 1, ?_⟩
        simp only [size_cons]
        omega
      have hle : c.utf8Size ≤ n + 1 := by
        rw [← hn, size_cons]
        omega
      have hsub : n + 1 - c.utf8Size = size rest := by
        rw [← hn, size_cons]
        omega
      rw [hn, List.cons_append, upTo?, if_pos hle, hsub, ih]
      rfl

/-- The token at the start of a text, and the text behind it. -/
theorem tokensFrom_token {source : Source} (body after : Source) (kind : TokenKind) {offset : Nat}
    (h : source.suffix? offset = some (body ++ after))
    (hclassify : Lexeme.classify (body ++ after) = (kind, body.length)) (hne : body ≠ [])
    (hkind : kind.isTrivia = false) :
    source.tokensFrom offset =
        ⟨kind, ⟨offset, offset + size body⟩, String.ofList body⟩ ::
          source.tokensFrom (offset + size body) ∧
      source.suffix? (offset + size body) = some after := by
  have hholds : source.Holds ⟨kind, ⟨offset, offset + size body⟩, String.ofList body⟩ body after :=
    ⟨h, rfl, hne, hclassify, hkind, rfl⟩
  exact ⟨hholds.tokensFrom_start, hholds.found_after⟩

theorem suffix?_behind {source body after : Source} {offset : Nat}
    (h : source.suffix? offset = some (body ++ after)) :
    source.suffix? (offset + size body) = some after := by
  obtain ⟨before, hsource, hsize⟩ := suffix?_eq_some_iff.mp h
  refine suffix?_eq_some_iff.mpr ⟨before ++ body, by simp [hsource], ?_⟩
  rw [size_append, hsize]

/-- The kind of the token at the start of a text. -/
theorem tokensFrom_head {source text : Source} {offset : Nat} (h : source.suffix? offset = some text)
    (hne : text ≠ []) (hkind : (Lexeme.classify text).1.isTrivia = false) :
    ∃ token rest, source.tokensFrom offset = token :: rest ∧
      token.kind = (Lexeme.classify text).1 ∧ token.span.start = offset := by
  rw [tokensFrom_of_suffix? h, tokensAt_eq hne]
  simp only [hkind, Bool.false_eq_true, ↓reduceIte]
  exact ⟨_, _, rfl, rfl, rfl⟩

end Source

namespace Node

/-- The node over one token. -/
theorem span_ofToken (kind : NodeKind) {token : Token} (h : token.span.start < token.span.stop) :
    (ofToken kind token).span = some token.span :=
  span_widen h

theorem token_ofToken (kind : NodeKind) (token : Token) :
    (ofToken kind token).token = some token.kind := by
  unfold ofToken anchor widen
  split <;> rfl

theorem kind_ofToken (kind : NodeKind) (token : Token) : (ofToken kind token).kind = kind :=
  (grows_anchor (empty kind) token).kind

/-- A node of one kind whose children so far cover the text between two offsets. -/
def grown (kind : NodeKind) (start reached : Nat) (children : List Node) : Node :=
  ⟨kind, none, if start < reached then some ⟨start, reached⟩ else none, children⟩

theorem grown_empty (kind : NodeKind) (start : Nat) : grown kind start start [] = empty kind := by
  simp [grown, empty]

end Node

namespace Grammar

/-- How far a node reaches that was started at an offset, once the text up to `here` is read. -/
structure Reaches (start reached here : Nat) : Prop where
  start_le : start ≤ reached
  le_here : reached ≤ here
  begun : start < reached ∨ here = start

theorem Reaches.refl (start : Nat) : Reaches start start start :=
  ⟨Nat.le_refl _, Nat.le_refl _, .inr rfl⟩

theorem Reaches.next {start reached here stop : Nat} (h : Reaches start reached here)
    (hstop : here < stop) : Reaches start stop stop := by
  obtain ⟨hstart, hreached, -⟩ := h
  exact ⟨by omega, Nat.le_refl _, .inl (by omega)⟩

theorem Reaches.widen {start reached here stop : Nat} {kind : NodeKind} {children : List Node}
    (h : Reaches start reached here) (hstop : here < stop) :
    (Node.grown kind start reached children).widen ⟨here, stop⟩ =
      Node.grown kind start stop children := by
  obtain ⟨hstart, hreached, hbegun⟩ := h
  have hsomewhere : (⟨here, stop⟩ : Span) ≠ .nowhere := by
    intro heq
    have hzero : stop = 0 := congrArg Span.stop heq
    omega
  have hlt : start < stop := by omega
  unfold Node.widen Node.grown
  rw [if_neg hsomewhere]
  by_cases hopen : start < reached
  · simp only [hopen, hlt, ↓reduceIte, Option.elim_some, Span.hull]
    rw [Nat.min_eq_left (by omega), Nat.max_eq_right (by omega)]
  · simp only [hopen, hlt, ↓reduceIte, Option.elim_none]
    rw [show here = start by omega]

theorem Reaches.append {start reached here stop : Nat} {kind : NodeKind} {children : List Node}
    {child : Node} (h : Reaches start reached here) (hstop : here < stop)
    (hchild : child.span = some ⟨here, stop⟩) :
    (Node.grown kind start reached children).append child =
      Node.grown kind start stop (children ++ [child]) := by
  unfold Node.append
  rw [hchild, Option.elim_some]
  exact h.widen hstop

namespace Parse

/-! ## Loops -/

theorem Repeats.unique {body : Parse Bool} {setting : Setting} {session : Session}
    {first second : Except Interruption Unit × Session} (hfirst : Repeats body setting session first)
    (hsecond : Repeats body setting session second) : first = second := by
  induction hfirst with
  | last hbody =>
      cases hsecond with
      | last hbody' =>
          rw [hbody] at hbody'
          cases hbody'
          rfl
      | broken hbody' =>
          rw [hbody] at hbody'
          cases hbody'
      | again hbody' =>
          rw [hbody] at hbody'
          cases hbody'
  | broken hbody =>
      cases hsecond with
      | last hbody' =>
          rw [hbody] at hbody'
          cases hbody'
      | broken hbody' =>
          rw [hbody] at hbody'
          cases hbody'
          rfl
      | again hbody' =>
          rw [hbody] at hbody'
          cases hbody'
  | again hbody hrest ih =>
      cases hsecond with
      | last hbody' =>
          rw [hbody] at hbody'
          cases hbody'
      | broken hbody' =>
          rw [hbody] at hbody'
          cases hbody'
      | again hbody' hrest' =>
          rw [hbody] at hbody'
          cases hbody'
          exact ih hrest'

/-- A round that asks for another one does not count. -/
theorem repeatRule_again {body : Parse Bool} [Rounds body] {setting : Setting}
    (hended : setting.Ended) {session next : Session} (hreads : setting.Reads session.ahead)
    (hbody : body setting session = (.ok true, next)) :
    repeatRule body setting session = repeatRule body setting next := by
  have hnext : setting.Reads next.ahead :=
    hreads.leads (Rounds.passes setting session next hended hbody).to_reflTransGen
  exact (repeatRule_repeats hended hreads).unique (.again hbody (repeatRule_repeats hended hnext))

theorem repeatRule_last {body : Parse Bool} {setting : Setting} {session after : Session}
    (hbody : body setting session = (.ok false, after)) :
    repeatRule body setting session = (.ok (), after) := by
  unfold repeatRule
  rw [ahead_bind]
  unfold repeatUpTo
  rw [bind_run, hbody]
  rfl

end Parse

/-! ## Reading on from an offset -/

/-- The session that goes on reading at an offset. -/
def Setting.reading (setting : Setting) (diagnostics : Diagnostics) (offset : Nat) (node : Node) :
    Session :=
  ⟨setting.source.tokensFrom offset, diagnostics, node⟩

/-- The next token from an offset on. -/
def Setting.tokenFrom (setting : Setting) (offset : Nat) : Token :=
  (setting.source.tokensFrom offset).headD setting.finish

/-- The token after the next one from an offset on. -/
def Setting.secondFrom (setting : Setting) (offset : Nat) : Token :=
  (setting.source.tokensFrom offset).tail.headD setting.finish

/-- A name and a scope mark come next from an offset on. -/
def Setting.namesScope (setting : Setting) (offset : Nat) : Bool :=
  (setting.tokenFrom offset).kind.isIdentifier && (setting.secondFrom offset).kind = .scope

theorem Setting.tokenFrom_of_cons {setting : Setting} {offset : Nat} {token : Token}
    {rest : List Token} (h : setting.source.tokensFrom offset = token :: rest) :
    setting.tokenFrom offset = token := by
  rw [Setting.tokenFrom, h, List.headD_cons]

namespace Parse

variable {setting : Setting} {diagnostics : Diagnostics} {node : Node} {offset stop : Nat}
  {token : Token}

theorem node_reading {kind : NodeKind} {rule : Parse Unit} {inner : Node}
    (h : rule setting (setting.reading diagnostics offset (.empty kind)) =
      (.ok (), setting.reading diagnostics stop inner)) (outer : Node) :
    Parse.node kind rule setting (setting.reading diagnostics offset outer) =
      (.ok (), setting.reading diagnostics stop (outer.append inner)) := by
  rw [Comparison.node_run]
  exact congrArg (fun result : Except Interruption Unit × Session =>
    (result.1, Session.closed (setting.reading diagnostics offset outer) result.2)) h

theorem leaf_reading (kind : NodeKind)
    (h : setting.source.tokensFrom offset = token :: setting.source.tokensFrom stop) :
    leaf kind setting (setting.reading diagnostics offset node) =
      (.ok (), setting.reading diagnostics stop (node.append (.ofToken kind token))) := by
  unfold Setting.reading
  rw [h]
  rfl

theorem identifier_reading
    (h : setting.source.tokensFrom offset = token :: setting.source.tokensFrom stop)
    (hkind : token.kind.isIdentifier = true) :
    identifier setting (setting.reading diagnostics offset node) =
      (.ok (), setting.reading diagnostics stop (node.append (.ofToken .identifier token))) := by
  unfold Setting.reading identifier
  rw [h, Comparison.node_run, peek_bind]
  have hhead : setting.head (Session.opened .identifier
      ⟨token :: setting.source.tokensFrom stop, diagnostics, node⟩) = token := rfl
  rw [hhead, hkind]
  rfl

theorem typeName_reading {forms : TypeForms}
    (h : setting.source.tokensFrom offset = token :: setting.source.tokensFrom stop)
    (hkind : token.isTypeName = true) :
    typeName forms setting (setting.reading diagnostics offset node) =
      (.ok (), setting.reading diagnostics stop (node.append (.ofToken .dataType token))) := by
  unfold Setting.reading typeName
  rw [h, Comparison.node_run, peek_bind]
  have hhead : setting.head (Session.opened .dataType
      ⟨token :: setting.source.tokensFrom stop, diagnostics, node⟩) = token := rfl
  have hallows : forms.allows token = true := by
    rw [TypeForms.allows, hkind, Bool.true_or, Bool.true_or]
  rw [hhead, hallows]
  rfl

theorem markIf_reading {kind : TokenKind}
    (h : setting.source.tokensFrom offset = token :: setting.source.tokensFrom stop)
    (hkind : token.kind = kind) :
    markIf kind setting (setting.reading diagnostics offset node) =
      (.ok (), setting.reading diagnostics stop (node.append (.ofToken .undefined token))) := by
  have hhead : (setting.head (setting.reading diagnostics offset node)).kind = kind := by
    change (setting.tokenFrom offset).kind = kind
    rw [Setting.tokenFrom_of_cons h, hkind]
  rw [markIf, nextIs_bind]
  simp only [hhead, decide_true, ↓reduceIte]
  exact leaf_reading .undefined h

theorem markIf_absent {kind : TokenKind} (h : (setting.tokenFrom offset).kind ≠ kind) :
    markIf kind setting (setting.reading diagnostics offset node) =
      (.ok (), setting.reading diagnostics offset node) := by
  have hhead : (setting.head (setting.reading diagnostics offset node)).kind ≠ kind := h
  rw [markIf, nextIs_bind]
  simp only [hhead, decide_false, Bool.false_eq_true, ↓reduceIte]
  rfl

theorem require_reading {kind : TokenKind}
    (h : setting.source.tokensFrom offset = token :: setting.source.tokensFrom stop)
    (hkind : token.kind = kind) :
    require kind setting (setting.reading diagnostics offset node) =
      (.ok token, setting.reading diagnostics stop node) := by
  have hhead : (setting.head (setting.reading diagnostics offset node)).kind = kind := by
    change (setting.tokenFrom offset).kind = kind
    rw [Setting.tokenFrom_of_cons h, hkind]
  rw [require, nextIs_bind]
  simp only [hhead, decide_true, ↓reduceIte]
  unfold Setting.reading
  rw [h]
  rfl

theorem coverRequired_reading {kind : TokenKind} {node covered : Node}
    (h : setting.source.tokensFrom offset = token :: setting.source.tokensFrom stop)
    (hkind : token.kind = kind) (hcovered : node.widen token.span = covered) :
    coverRequired kind setting (setting.reading diagnostics offset node) =
      (.ok (), setting.reading diagnostics stop covered) := by
  rw [coverRequired, bind_run, require_reading h hkind, ← hcovered]
  rfl

theorem reads_reading (setting : Setting) (diagnostics : Diagnostics) (offset : Nat) (node : Node) :
    setting.Reads (setting.reading diagnostics offset node).ahead :=
  ⟨offset, rfl⟩

end Parse

end Grammar

end ScriptSyntax
