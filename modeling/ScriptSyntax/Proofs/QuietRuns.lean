import ScriptSyntax.Proofs.ReadingOn

/-!
# Runs without a report

What a rule does on given tokens if it comes to its end and reports nothing, whatever has been
reported before and whatever node is being built.
-/

namespace ScriptSyntax.Grammar.Parse

variable {α β : Type} {setting : Setting} {answer : α} {result : β} {rule : Parse α}
  {next : α → Parse β} {tokens middle rest : List Token}

theorem identifier_eq {session : Session} (h : (setting.head session).kind.isIdentifier = true) :
    identifier setting session = (.ok (), ⟨session.ahead.tail, session.diagnostics,
      session.building.append (.ofToken .identifier (setting.head session))⟩) := by
  have hopened : (setting.head (session.opened .identifier)).kind.isIdentifier = true := h
  unfold identifier
  rw [Comparison.node_run, peek_bind, if_pos hopened]
  rfl

/-- From the tokens the rule comes to its end before the rest, and reports nothing. -/
def Quiet (setting : Setting) (rule : Parse α) (answer : α) (tokens rest : List Token) : Prop :=
  ∀ diagnostics building, ∃ built,
    rule setting ⟨tokens, diagnostics, building⟩ = (.ok answer, ⟨rest, diagnostics, built⟩)

namespace Quiet

theorem bind (hrule : Quiet setting rule answer tokens middle)
    (hnext : Quiet setting (next answer) result middle rest) :
    Quiet setting (rule >>= next) result tokens rest := by
  intro diagnostics building
  obtain ⟨inner, hinner⟩ := hrule diagnostics building
  obtain ⟨built, hbuilt⟩ := hnext diagnostics inner
  exact ⟨built, by rw [bind_run, hinner, ← hbuilt]⟩

theorem node {kind : NodeKind} (h : Quiet setting rule answer tokens rest) :
    Quiet setting (node kind rule) answer tokens rest := by
  intro diagnostics building
  obtain ⟨built, hbuilt⟩ := h diagnostics (.empty kind)
  refine ⟨building.append built, ?_⟩
  rw [Comparison.node_run]
  unfold Session.opened Session.closed
  rw [hbuilt]

theorem still (h : ∀ diagnostics building,
    rule setting ⟨tokens, diagnostics, building⟩ = (.ok answer, ⟨tokens, diagnostics, building⟩)) :
    Quiet setting rule answer tokens tokens :=
  fun diagnostics building => ⟨building, h diagnostics building⟩

theorem read {next : Setting → Parse β} (h : Quiet setting (next setting) result tokens rest) :
    Quiet setting (read >>= next) result tokens rest :=
  h

theorem peek {next : Token → Parse β}
    (h : Quiet setting (next (tokens.headD setting.finish)) result tokens rest) :
    Quiet setting (peek >>= next) result tokens rest :=
  h

theorem peekSecond {next : Token → Parse β}
    (h : Quiet setting (next (tokens.tail.headD setting.finish)) result tokens rest) :
    Quiet setting (peekSecond >>= next) result tokens rest :=
  h

theorem nextIs {kind : TokenKind} {next : Bool → Parse β} (found : Bool)
    (hfound : decide ((tokens.headD setting.finish).kind = kind) = found)
    (h : Quiet setting (next found) result tokens rest) :
    Quiet setting (nextIs kind >>= next) result tokens rest := by
  subst hfound
  exact h

theorem sees {scan : Scan Unit} {next : Bool → Parse β} (found : Bool)
    (hfound : ((scan setting).run tokens).isSome = found)
    (h : Quiet setting (next found) result tokens rest) :
    Quiet setting (sees scan >>= next) result tokens rest := by
  subst hfound
  exact h

theorem leaf (kind : NodeKind) : Quiet setting (leaf kind) () tokens tokens.tail :=
  fun _ building =>
    ⟨building.append ((Node.empty kind).anchor (tokens.headD setting.finish)), rfl⟩

theorem identifier (h : (tokens.headD setting.finish).kind.isIdentifier = true) :
    Quiet setting identifier () tokens tokens.tail :=
  fun _ _ => ⟨_, identifier_eq h⟩

theorem mark : Quiet setting mark () tokens tokens.tail :=
  .leaf .undefined

theorem markIf (kind : TokenKind) :
    Quiet setting (markIf kind) () tokens (setting.dropKind kind tokens) := by
  unfold Setting.dropKind
  split
  · rename_i hkind
    exact .nextIs true (decide_eq_true hkind) .mark
  · rename_i hkind
    exact .nextIs false (decide_eq_false hkind) (.still fun _ _ => rfl)

theorem require {kind : TokenKind} (h : (tokens.headD setting.finish).kind = kind) :
    Quiet setting (require kind) (tokens.headD setting.finish) tokens tokens.tail :=
  .nextIs true (decide_eq_true h) fun _ building => ⟨building, rfl⟩

theorem coverRequired {kind : TokenKind} (h : (tokens.headD setting.finish).kind = kind) :
    Quiet setting (coverRequired kind) () tokens tokens.tail :=
  .bind (.require h) fun _ building => ⟨building.widen (tokens.headD setting.finish).span, rfl⟩

theorem typeName {forms : TypeForms} (h : (tokens.headD setting.finish).isTypeName = true) :
    Quiet setting (typeName forms) () tokens tokens.tail := by
  have hallows : forms.allows (tokens.headD setting.finish) = true := by
    unfold TypeForms.allows
    rw [h]
    rfl
  refine .node (.peek ?_)
  rw [if_pos hallows]
  exact fun _ building => ⟨building.anchor (tokens.headD setting.finish), rfl⟩

section

variable {body : Parse Bool}

/-- One more round of a loop. -/
theorem again [Rounds body] (hended : setting.Ended) (hreads : setting.Reads tokens)
    (hbody : Quiet setting body true tokens middle)
    (hrest : Quiet setting (repeatRule body) () middle rest) :
    Quiet setting (repeatRule body) () tokens rest := by
  intro diagnostics building
  obtain ⟨inner, hinner⟩ := hbody diagnostics building
  obtain ⟨built, hbuilt⟩ := hrest diagnostics inner
  exact ⟨built, by rw [repeatRule_again hended hreads hinner, hbuilt]⟩

theorem last (hbody : Quiet setting body false tokens rest) :
    Quiet setting (repeatRule body) () tokens rest := by
  intro diagnostics building
  obtain ⟨built, hbuilt⟩ := hbody diagnostics building
  exact ⟨built, repeatRule_last hbuilt⟩

end

end Quiet

end ScriptSyntax.Grammar.Parse
