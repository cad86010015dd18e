import ScriptSyntax.Proofs.Advance

/-!
# Running scans

What the parts of a scan answer about given tokens.
-/

namespace ScriptSyntax.Grammar

namespace Scan

variable {α β : Type} (setting : Setting) (tokens : List Token)

theorem bind_run (scan : Scan α) (next : α → Scan β) :
    ((scan >>= next) setting).run tokens =
      ((scan setting).run tokens).bind fun seen => (next seen.1 setting).run seen.2 := rfl

theorem peek_bind (next : Token → Scan β) :
    ((peek >>= next) setting).run tokens =
      (next (tokens.headD setting.finish) setting).run tokens := rfl

theorem read_bind (next : Setting → Scan β) :
    ((read >>= next) setting).run tokens = (next setting setting).run tokens := rfl

theorem get_bind (next : List Token → Scan β) :
    ((get >>= next) setting).run tokens = (next tokens setting).run tokens := rfl

theorem skip_bind (next : Unit → Scan β) :
    ((skip >>= next) setting).run tokens = (next () setting).run tokens.tail := rfl

theorem next_bind (next : Token → Scan β) :
    ((Scan.next >>= next) setting).run tokens =
      (next (tokens.headD setting.finish) setting).run tokens.tail := rfl

theorem modify_bind (change : List Token → List Token) (next : Unit → Scan β) :
    ((modify change >>= next) setting).run tokens = (next () setting).run (change tokens) := rfl

theorem set_bind (others : List Token) (next : Unit → Scan β) :
    ((set others >>= next) setting).run tokens = (next () setting).run others := rfl

theorem require_run (kind : TokenKind) :
    (require kind setting).run tokens =
      if (tokens.headD setting.finish).kind = kind then some ((), tokens.tail) else none := by
  unfold require
  rw [peek_bind]
  split <;> rfl

theorem requireIdentifier_run :
    (requireIdentifier setting).run tokens =
      if (tokens.headD setting.finish).kind.isIdentifier then some ((), tokens.tail) else none := by
  unfold requireIdentifier
  rw [peek_bind]
  split <;> rfl

theorem skipIf_run (test : Token → Bool) :
    (skipIf test setting).run tokens =
      some ((), if test (tokens.headD setting.finish) then tokens.tail else tokens) := by
  unfold skipIf
  rw [peek_bind]
  split <;> rfl

theorem skipKind_run (kind : TokenKind) :
    (skipKind kind setting).run tokens =
      some ((), if (tokens.headD setting.finish).kind = kind then tokens.tail else tokens) := by
  unfold skipKind
  rw [skipIf_run]
  simp

theorem update_run (change : List Token → Option (List Token)) :
    (update change setting).run tokens = (change tokens).map fun others => ((), others) := by
  unfold update
  rw [get_bind]
  cases change tokens <;> rfl

theorem passes_run (scan : Scan Unit) :
    (passes scan setting).run tokens =
      some (match (scan setting).run tokens with
        | some seen => (true, seen.2)
        | none => (false, tokens)) := by
  change (((scan setting).run tokens).bind fun seen => some (true, seen.2)).orElse
    (fun _ => some (false, tokens)) = _
  cases (scan setting).run tokens <;> rfl

end Scan

theorem kind_of_isWord {token : Token} {word : ContextualWord} (h : token.isWord word = true) :
    token.kind = .identifier := by
  simp only [Token.isWord, Bool.and_eq_true, TokenKind.isIdentifier, decide_eq_true_eq] at h
  exact h.1

theorem kind_of_hasRole {token : Token} {role : ContextualRole} (h : token.hasRole role = true) :
    token.kind = .identifier := by
  simp only [Token.hasRole, Bool.and_eq_true, TokenKind.isIdentifier, decide_eq_true_eq] at h
  exact h.1

theorem lambdaAhead_isSome {setting : Setting} {session : Session}
    (h : ((lambdaAhead setting).run session.ahead).isSome = true) :
    (setting.head session).kind = .identifier ∧ (setting.second session).kind = .openParen := by
  unfold lambdaAhead at h
  rw [Scan.peek_bind] at h
  split at h
  · cases h
  · rename_i hword
    dsimp only at h
    rw [Scan.skip_bind, Scan.bind_run, Scan.require_run] at h
    split at h
    · rename_i hparen
      simp only [Bool.not_eq_true', Bool.not_eq_false] at hword
      exact ⟨kind_of_isWord hword, hparen⟩
    · cases h

end ScriptSyntax.Grammar
