import ScriptSyntax.Proofs.Variation.Lookahead

/-!
# Types and signatures under two options

A name is asked for template arguments behind its own token, so the two sides agree on the answer.
-/

namespace ScriptSyntax.Grammar.Variation

open Parse

set_option synthInstance.maxSize 2000

variable {V : Variation} {bound room room' : Nat} {argument argument' : Parse Unit}

/-! ## Types -/

instance (forms : TypeForms) : V.Agrees bound (typeName forms) (typeName forms) :=
  .node (by decide) inferInstance

theorem agrees_listClosing : V.Agrees bound
    (do
      match (← read).afterGreater? (← ahead) with
      | some rest =>
          widen (.ofLength (← peek).span.start 1)
          goTo rest
      | none => (failExpected (.expectedKind .greater) : Parse Unit))
    (do
      match (← read).afterGreater? (← ahead) with
      | some rest =>
          widen (.ofLength (← peek).span.start 1)
          goTo rest
      | none => (failExpected (.expectedKind .greater) : Parse Unit)) := by
  constructor
  intro n s t h hbytes
  rw [read_bind, read_bind, ahead_bind, ahead_bind, h.ahead]
  have hsame : V.right.afterGreater? s.ahead = V.left.afterGreater? s.ahead := rfl
  rw [hsame]
  cases hrest : V.left.afterGreater? s.ahead with
  | none =>
      have hfail : V.Agrees bound (failExpected (.expectedKind .greater) : Parse Unit)
          (failExpected (.expectedKind .greater)) := inferInstance
      exact hfail.meets h hbytes
  | some rest =>
      have hrelated := (h.widened (.ofLength (V.left.head s).span.start 1)).at
        (h.fine.leads (.single (.inr hrest)))
      dsimp only
      rw [peek_bind, peek_bind, h.head]
      exact hrelated.meets (.ok ())

instance [Advances argument] [V.Agrees bound argument argument'] :
    V.Agrees bound (templateArguments argument) (templateArguments argument') := by
  have hclosing := @agrees_listClosing V bound
  unfold templateArguments
  infer_instance

instance [Advances argument] [V.Agrees bound argument argument'] :
    V.Agrees (bound + 1) (templateArguments argument) (templateArguments argument') := by
  have hclosing := @agrees_listClosing V bound
  unfold templateArguments
  infer_instance

instance [Advances argument] [V.Agrees bound argument argument']
    [Fact (V.Rooms bound 0 room room')] :
    V.Agrees bound (scopeOver room argument) (scopeOver room' argument') := by
  have hkind : Fact (NodeKind.scope ≠ .namedArgument) := ⟨by decide⟩
  unfold scopeOver
  infer_instance

instance [Advances argument] [V.Agrees bound argument argument']
    [Fact (V.Rooms (bound + 1) 0 room room')] :
    V.Agrees (bound + 1) (scopeOver room argument) (scopeOver room' argument') := by
  have hkind : Fact (NodeKind.scope ≠ .namedArgument) := ⟨by decide⟩
  unfold scopeOver
  infer_instance

instance : V.Agrees bound typeSuffixes typeSuffixes := by
  unfold typeSuffixes
  have hsuffix (kind : TokenKind) : V.Agrees bound
      (match kind with
        | .openBracket => do
            mark
            coverRequired .closeBracket
            return true
        | .handle => do
            mark
            markIf .const
            return true
        | _ => return false)
      (match kind with
        | .openBracket => do
            mark
            coverRequired .closeBracket
            return true
        | .handle => do
            mark
            markIf .const
            return true
        | _ => return false) := by
    split <;> infer_instance
  infer_instance

/-- Whether a list follows a name is asked behind the name. -/
theorem agrees_named (forms : TypeForms) {list list' rest rest' : Parse Unit} [Forwards list]
    [V.Agrees bound list list'] [V.Agrees bound rest rest'] :
    V.Agrees bound
      (do
        let name ← peek
        typeName forms
        if (← read).isTemplateName name && (← nextIs .less) then list
        rest)
      (do
        let name ← peek
        typeName forms
        if (← read).isTemplateName name && (← nextIs .less) then list'
        rest') := by
  constructor
  intro n s t h hbytes
  rw [peek_bind, peek_bind, h.head]
  have hname : V.Agrees bound (typeName forms) (typeName forms) := inferInstance
  refine (hname.meets h hbytes).bind ?_
  intro _ after after' hrun hafter
  obtain ⟨-, hahead⟩ := typeName_ok hrun
  have hlists : V.right.listsArguments (V.left.head s) after.ahead =
      V.left.listsArguments (V.left.head s) after.ahead := by
    rw [hahead]
    exact h.fine.lists_head
  have hless : byteCount after.ahead < bound := by
    rw [hahead]
    exact Nat.lt_of_le_of_lt (h.fine.byteCount_le (V.left.leads_tail _)) hbytes
  unfold Setting.listsArguments at hlists
  rw [read_bind, read_bind, nextIs_bind, nextIs_bind, hafter.head]
  unfold Setting.head at hlists ⊢
  rw [hlists]
  have hbehind : V.Agrees bound
      (do if V.left.isTemplateName (s.ahead.headD V.left.finish) &&
            (after.ahead.headD V.left.finish).kind = .less then list
          rest)
      (do if V.left.isTemplateName (s.ahead.headD V.left.finish) &&
            (after.ahead.headD V.left.finish).kind = .less then list'
          rest') := inferInstance
  exact hbehind.meets hafter hless

instance (forms : TypeForms) [Advances argument] [V.Agrees bound argument argument']
    [Fact (V.Rooms (bound + 1) 0 room room')] :
    V.Agrees (bound + 1) (typeBody room argument forms) (typeBody room' argument' forms) := by
  have hname := @agrees_named V (bound + 1) forms (templateArguments argument)
    (templateArguments argument') typeSuffixes typeSuffixes inferInstance inferInstance inferInstance
  refine .node (by decide) ?_
  infer_instance

theorem agrees_dataType (hrooms : V.Rooms bound 1 room room') (forms : TypeForms) :
    V.Agrees bound (dataType room forms) (dataType room' forms) := by
  induction bound generalizing room room' forms with
  | zero => exact ⟨fun _ hbytes => absurd hbytes (Nat.not_lt_zero _)⟩
  | succ bound ih =>
      rcases hrooms.levels with ⟨rfl, rfl⟩ | ⟨less, less', rfl, rfl⟩
      · exact agrees_tooDeep (by decide)
      · have hscans : Fact (V.Rooms (bound + 1) 0 less less') := ⟨hrooms.succ (by omega)⟩
        have hargument : V.Agrees bound (dataType less {}) (dataType less' {}) :=
          ih (hrooms.succ (by omega)) {}
        unfold dataType
        infer_instance

instance [hrooms : Fact (V.Rooms bound 1 room room')] (forms : TypeForms) :
    V.Agrees bound (dataType room forms) (dataType room' forms) :=
  agrees_dataType hrooms.out forms

instance [hrooms : Fact (V.Rooms bound 1 room room')] : Fact (V.Rooms bound 0 room room') :=
  ⟨hrooms.out.le (by omega)⟩

instance [Fact (V.Rooms bound 1 room room')] : V.Agrees bound (scope room) (scope room') := by
  unfold scope
  infer_instance

instance (ofParameter : Bool) :
    V.Agrees bound (typeModifier ofParameter) (typeModifier ofParameter) :=
  .node (by decide) inferInstance

/-! ## Captured text -/

theorem capture_meets {n : V.Frame} {s t : Session} (construct : Construct) {start : List Token}
    {text : Capture} (h : V.Related n s t) (hstart : V.Fine start) (hrest : text.rest <:+ s.ahead) :
    V.Meets n (capture construct start text V.left s) (capture construct start text V.right t) := by
  have hfine : Fact (V.Fine start) := ⟨hstart⟩
  have hcaptured : V.Related n (captured text s) (captured text t) :=
    (h.widened_all text.taken).at (h.fine.suffix hrest)
  have meets {rule : Parse Unit} [hrule : V.Agrees (byteCount text.rest + 1) rule rule] :
      V.Meets n (rule V.left (captured text s)) (rule V.right (captured text t)) :=
    hrule.meets hcaptured (Nat.lt_succ_self _)
  rw [capture_run, capture_run]
  cases text.ending with
  | complete => exact meets
  | fault message => exact meets
  | endOfSource => exact meets

theorem agrees_capture (construct : Construct) {text : List Token → Capture}
    (hrest : ∀ tokens, (text tokens).rest <:+ tokens) : V.Agrees bound
      (do
        let start ← ahead
        capture construct start (text start))
      (do
        let start ← ahead
        capture construct start (text start)) := by
  constructor
  intro n s t h hbytes
  rw [ahead_bind, ahead_bind, h.ahead]
  exact capture_meets construct h h.fine (hrest s.ahead)

instance : V.Agrees bound defaultArgument defaultArgument :=
  .node (by decide) (agrees_capture _ fun tokens =>
    suffix_of_append (Capture.argument_append [] tokens))

instance : V.Agrees bound capturedInitializer capturedInitializer := by
  have hassigned := @agrees_capture V bound .expression (Capture.initializer 0 0) fun tokens =>
    suffix_of_append (Capture.initializer_append 0 0 tokens)
  have harguments := @agrees_capture V bound .argumentList
    (fun start => Capture.group .openParen .closeParen 0 start.tail) fun tokens =>
      (suffix_of_append (Capture.group_append .openParen .closeParen 0 tokens.tail)).trans
        (List.tail_suffix _)
  refine .node (by decide) (.bind inferInstance fun first => .bind inferInstance fun _ => ?_)
  generalize first.kind = kind
  split
  · infer_instance
  · infer_instance
  · infer_instance

/-- A body that is not complete is covered up to where it ends. -/
instance (start : List Token) [hfine : Fact (V.Fine start)] : V.Agrees bound
    (do
      let block := Capture.group .openBrace .closeBrace 0 (← ahead)
      unless block.ending = .complete do
        widen (block.rest.headD (← read).finish).span
      capture .statementBlock start block)
    (do
      let block := Capture.group .openBrace .closeBrace 0 (← ahead)
      unless block.ending = .complete do
        widen (block.rest.headD (← read).finish).span
      capture .statementBlock start block) := by
  constructor
  intro n s t h hbytes
  rw [ahead_bind, ahead_bind, h.ahead]
  have hrest := suffix_of_append (Capture.group_append .openBrace .closeBrace 0 s.ahead)
  split
  · exact capture_meets .statementBlock h hfine.out hrest
  · rw [read_bind, read_bind, widen_bind, widen_bind]
    exact capture_meets .statementBlock (h.widened _) hfine.out hrest

instance : V.Agrees bound capturedBlock capturedBlock := by
  refine .node (by decide) (.from_start fun start hstart => ?_)
  have hfine : Fact (V.Fine start) := ⟨hstart⟩
  infer_instance

/-! ## Signatures -/

section

variable [hlevel : Fact V.level]

instance (cost : Nat) : Fact (V.Rooms bound cost room room) :=
  ⟨.inl ⟨hlevel.out, rfl⟩⟩

instance : V.Agrees bound (returnType room) (returnType room) := by
  unfold returnType
  infer_instance

instance : V.Agrees bound (parameter room) (parameter room) := by
  unfold parameter
  refine .read ?_
  infer_instance

instance : V.Agrees bound (parameterList room) (parameterList room) :=
  .node (by decide) inferInstance

instance : V.Agrees bound methodAttributes methodAttributes := by
  unfold methodAttributes
  infer_instance

instance : V.Agrees bound (signature room) (signature room) := by
  unfold signature
  infer_instance

instance : V.Agrees bound (functionSignature room) (functionSignature room) :=
  .node (by decide) inferInstance

/-! ## List patterns -/

instance {nested : Parse Unit} [Advances nested] (start : List Token) :
    Forwards (patternElement room nested start) := by
  refine .bind inferInstance fun token => .bind inferInstance fun _ => ?_
  split <;> infer_instance

instance (start : List Token) : Forwards (patternSeparator start) := by
  refine .bind inferInstance fun token => .bind inferInstance fun _ => ?_
  split <;> infer_instance

instance {nested nested' : Parse Unit} [V.Agrees bound nested nested'] (start : List Token)
    [Fact (V.Fine start)] :
    V.Agrees bound (patternElement room nested start) (patternElement room nested' start) := by
  refine .bind inferInstance fun token => .bind inferInstance fun _ => ?_
  generalize token.kind = kind
  split <;> infer_instance

instance (start : List Token) [Fact (V.Fine start)] :
    V.Agrees bound (patternSeparator start) (patternSeparator start) := by
  refine .bind inferInstance fun token => .bind inferInstance fun _ => ?_
  generalize token.kind = kind
  split <;> infer_instance

instance {nested nested' : Parse Unit} [Advances nested] [V.Agrees bound nested nested'] :
    V.Agrees bound (listPatternBody room nested) (listPatternBody room nested') := by
  refine .node (by decide) (.from_start fun start hstart => ?_)
  have hfine : Fact (V.Fine start) := ⟨hstart⟩
  infer_instance

instance : V.Agrees bound (listPattern room) (listPattern room) := by
  induction room with
  | zero => exact agrees_tooDeep (by decide)
  | succ room ih =>
      unfold listPattern
      infer_instance

end

end ScriptSyntax.Grammar.Variation
