import ScriptSyntax.Proofs.InitializerEnd
import ScriptSyntax.Proofs.Separators
import ScriptSyntax.Proofs.StatementBlock

/-!
# Initializers are captured whole

While a script is parsed, the end of an initializer is found by counting parentheses and braces.
When the initializer is parsed on its own later it ends where its grammar ends.  The two ends are
the same if every comma stands in brackets that are counted and the parentheses are paired.  Square
and angle brackets are not counted, so a comma that stands in no others ends the capture.
-/

namespace ScriptSyntax

namespace Grammar

/-! ## Counting brackets -/

namespace Bracket

/-- One more for a token that opens the bracket, one less for a token that closes it. -/
def delta (bracket : Bracket) (token : Token) : Int :=
  if token.kind = bracket.opening then 1 else if token.kind = bracket.closing then -1 else 0

/-- How many more of the brackets are opened than closed. -/
def surplus (bracket : Bracket) (tokens : List Token) : Int :=
  tokens.foldr (fun token total => bracket.delta token + total) 0

@[simp] theorem surplus_nil (bracket : Bracket) : bracket.surplus [] = 0 := rfl

@[simp] theorem surplus_cons (bracket : Bracket) (token : Token) (rest : List Token) :
    bracket.surplus (token :: rest) = bracket.delta token + bracket.surplus rest := rfl

@[simp] theorem surplus_append (bracket : Bracket) (first second : List Token) :
    bracket.surplus (first ++ second) = bracket.surplus first + bracket.surplus second := by
  induction first with
  | nil => simp
  | cons token rest ih =>
      rw [List.cons_append, surplus_cons, surplus_cons, ih, Int.add_assoc]

end Bracket

/-- The parentheses are paired, and every comma stands where the parentheses or the braces that were
opened and those that were closed differ in number. -/
structure Enclosed (tokens : List Token) : Prop where
  comma : ∀ before comma after, tokens = before ++ comma :: after → comma.kind = .comma →
    Bracket.paren.surplus before ≠ 0 ∨ Bracket.brace.surplus before ≠ 0
  paired : Bracket.paren.surplus tokens = 0

instance (tokens : List Token) : Decidable (Enclosed tokens) :=
  decidable_of_iff
    ((∀ i : Fin tokens.length, tokens[i].kind = .comma →
        Bracket.paren.surplus (tokens.take i) ≠ 0 ∨ Bracket.brace.surplus (tokens.take i) ≠ 0) ∧
      Bracket.paren.surplus tokens = 0) <| by
    constructor
    · rintro ⟨hcomma, hpaired⟩
      refine ⟨?_, hpaired⟩
      rintro before comma after rfl hkind
      simpa [hkind] using hcomma ⟨before.length, by simp⟩
    · rintro ⟨hcomma, hpaired⟩
      refine ⟨fun i hkind => ?_, hpaired⟩
      refine hcomma (tokens.take i) tokens[i] (tokens.drop (i + 1)) ?_ hkind
      rw [Fin.getElem_fin, List.getElem_cons_drop, List.take_append_drop]

variable {token last : Token} {tokens rest : List Token} {level : Nat} {parens braces : Int}

theorem textEnd_step
    (h : ¬(level = 0 ∧ (token.kind = .semicolon ∨ token.kind = .closeBrace))) :
    ∃ inner : Nat, (inner : Int) = level + Bracket.brace.delta token ∧
      textEnd level (token :: rest) = textEnd inner rest := by
  unfold Bracket.delta Bracket.opening Bracket.closing
  by_cases hopen : token.kind = .openBrace
  · exact ⟨level + 1, by simp [hopen], textEnd_openBrace hopen⟩
  by_cases hclose : token.kind = .closeBrace
  · cases level with
    | zero => exact absurd ⟨rfl, .inr hclose⟩ h
    | succ level =>
        refine ⟨level, ?_, textEnd_closeBrace hclose⟩
        rw [if_neg hopen, if_pos hclose]
        omega
  · refine ⟨level, by simp [hopen, hclose], textEnd_other hopen hclose ?_⟩
    exact fun hzero hsemicolon => h ⟨hzero, .inl hsemicolon⟩

theorem initializer_step
    (hends : ¬(parens = 0 ∧ braces = 0 ∧ Capture.endsInitializer token.kind = true))
    (hstring : token.kind ≠ .unterminatedString) :
    Capture.initializer parens braces (token :: rest) =
      (Capture.initializer (parens + Bracket.paren.delta token)
        (braces + Bracket.brace.delta token) rest).take token := by
  rw [Capture.initializer, if_neg hends]
  unfold Bracket.delta Bracket.opening Bracket.closing
  split
  · rename_i hkind
    simp [hkind]
  · rename_i hkind
    simp [hkind, Int.sub_eq_add_neg]
  · rename_i hkind
    simp [hkind]
  · rename_i hkind
    simp [hkind, Int.sub_eq_add_neg]
  · contradiction
  · simp_all

/-- The capture of an initializer goes on to the semicolon behind it. -/
theorem initializer_complete (hending : textEnd level tokens = ([last], 0))
    (hlast : last.kind = .semicolon) (hstrings : ∀ token ∈ tokens, token.kind ≠ .unterminatedString)
    (hcommas : ∀ before comma after, tokens = before ++ comma :: after → comma.kind = .comma →
      parens + Bracket.paren.surplus before ≠ 0 ∨ level + Bracket.brace.surplus before ≠ 0)
    (hpaired : parens + Bracket.paren.surplus tokens = 0) :
    ∃ taken, tokens = taken ++ [last] ∧
      Capture.initializer parens level tokens = ⟨taken, [last], .complete⟩ := by
  induction tokens generalizing level parens with
  | nil => cases hending
  | cons token rest ih =>
      by_cases hstop : level = 0 ∧ (token.kind = .semicolon ∨ token.kind = .closeBrace)
      · obtain ⟨rfl, hkind⟩ := hstop
        rw [textEnd_stop hkind, Prod.mk.injEq, List.cons.injEq] at hending
        obtain ⟨⟨rfl, rfl⟩, -⟩ := hending
        have hzero : parens = 0 := by
          simpa [Bracket.delta, Bracket.opening, Bracket.closing, hlast] using hpaired
        refine ⟨[], rfl, ?_⟩
        rw [Capture.initializer, if_pos ⟨hzero, rfl, by simp [Capture.endsInitializer, hlast]⟩]
        rfl
      · obtain ⟨inner, hinner, hrest⟩ := @textEnd_step _ rest _ hstop
        have hends : ¬(parens = 0 ∧ (level : Int) = 0 ∧
            Capture.endsInitializer token.kind = true) := by
          rintro ⟨rfl, hlevel, hends⟩
          simp only [Capture.endsInitializer, Bool.or_eq_true, decide_eq_true_eq] at hends
          rcases hends with (hcomma | hsemicolon) | hclose
          · have := hcommas [] token rest rfl hcomma
            simp at this
            omega
          · exact hstop ⟨by omega, .inl hsemicolon⟩
          · exact hstop ⟨by omega, .inr hclose⟩
        rw [initializer_step hends (hstrings token List.mem_cons_self), ← hinner]
        rw [hrest] at hending
        obtain ⟨taken, rfl, hcapture⟩ := @ih inner (parens + Bracket.paren.delta token) hending
          (fun other hmem => hstrings other (List.mem_cons_of_mem _ hmem))
          (by
            intro before comma after hsplit hcomma
            have := hcommas (token :: before) comma after (by rw [hsplit]; rfl) hcomma
            rw [Bracket.surplus_cons, Bracket.surplus_cons] at this
            omega)
          (by
            rw [Bracket.surplus_cons] at hpaired
            omega)
        exact ⟨token :: taken, rfl, by rw [hcapture]; rfl⟩

theorem delta_shifted (bracket : Bracket) (distance : Nat) (token : Token) :
    bracket.delta (token.shifted distance) = bracket.delta token := rfl

theorem surplus_shifted (bracket : Bracket) (distance : Nat) (tokens : List Token) :
    bracket.surplus (tokens.map (Token.shifted distance)) = bracket.surplus tokens := by
  induction tokens with
  | nil => rfl
  | cons token rest ih =>
      rw [List.map_cons, Bracket.surplus_cons, Bracket.surplus_cons, delta_shifted, ih]

theorem textEnd_shifted (distance : Nat) :
    textEnd level (tokens.map (Token.shifted distance)) =
      ((textEnd level tokens).1.map (Token.shifted distance), (textEnd level tokens).2) := by
  induction tokens generalizing level with
  | nil => rfl
  | cons token rest ih =>
      rw [List.map_cons]
      by_cases hstop : level = 0 ∧ (token.kind = .semicolon ∨ token.kind = .closeBrace)
      · obtain ⟨rfl, hkind⟩ := hstop
        rw [textEnd_stop hkind, @textEnd_stop (token.shifted distance) _ hkind]
        rfl
      · obtain ⟨inner, hinner, hrest⟩ := @textEnd_step _ rest _ hstop
        obtain ⟨inner', hinner', hrest'⟩ := @textEnd_step (token.shifted distance)
          (rest.map (Token.shifted distance)) _ hstop
        rw [delta_shifted] at hinner'
        obtain rfl : inner' = inner := by omega
        rw [hrest, hrest', ih]

/-- The brackets of a text and the semicolon behind it, wherever they stand. -/
theorem Enclosed.shifted {distance : Nat} (h : Enclosed tokens) (hlast : last.kind = .semicolon) :
    Enclosed (tokens.map (Token.shifted distance) ++ [last]) := by
  constructor
  · intro before comma after hsplit hcomma
    have hne : comma ≠ last := by
      rintro rfl
      rw [hlast] at hcomma
      cases hcomma
    rcases List.append_eq_append_iff.mp hsplit with ⟨inner, -, hafter⟩ | ⟨inner, htokens, hafter⟩
    · have hmem : comma ∈ [last] := hafter ▸ List.mem_append_right inner List.mem_cons_self
      exact absurd (List.mem_singleton.mp hmem) hne
    · cases inner with
      | nil => exact absurd (List.cons.inj hafter).1 hne
      | cons first more =>
          obtain rfl : comma = first := (List.cons.inj hafter).1
          obtain ⟨passed, behind, rfl, rfl, hbehind⟩ := List.map_eq_append_iff.mp htokens
          obtain ⟨mark, rest, rfl, rfl, -⟩ := List.map_eq_cons_iff.mp hbehind
          rw [surplus_shifted, surplus_shifted]
          exact h.comma passed mark rest rfl hcomma
  · have hdelta : Bracket.paren.surplus [last] = 0 := by
      simp [Bracket.delta, Bracket.opening, Bracket.closing, hlast]
    rw [Bracket.surplus_append, surplus_shifted, h.paired, hdelta, Int.add_zero]

namespace Parse

/-- An assigned initializer that is parsed without an error ends where an initializer may end. -/
theorem initializer_ok {rules : ValueRules} {setting : Setting} {session after : Session}
    (hhead : (setting.head session).kind = .assign)
    (hok : initializer rules setting session = (.ok (), after)) :
    assignedValue rules setting { session with ahead := session.ahead.tail } = (.ok (), after) ∧
      ((setting.head after).kind = .endOfSource ∨
        Capture.endsInitializer (setting.head after).kind = true) := by
  unfold initializer at hok
  rw [peek_bind] at hok
  simp only [hhead] at hok
  rw [skip_bind] at hok
  obtain ⟨_, middle, hvalue, hends⟩ := bind_ok hok
  rw [peek_bind] at hends
  split at hends
  · rename_i hkind
    cases hends
    exact ⟨hvalue, by simpa [TokenKind.isEnd] using hkind⟩
  · cases hends

/-- A value that is assigned is one more child. -/
theorem assignedValue_child {room : Nat} {setting : Setting} {session after : Session}
    (hok : assignedValue (valueRules room) setting session = (.ok (), after)) :
    ∃ child, after.building = session.building.append child := by
  have hnode {kind : NodeKind} {rule : Parse Unit}
      (h : node kind rule setting session = (.ok (), after)) :
      ∃ child, after.building = session.building.append child := by
    obtain ⟨inner, -, rfl⟩ := node_ok h
    exact ⟨inner.building, rfl⟩
  unfold assignedValue at hok
  rw [nextIs_bind] at hok
  split at hok
  · cases room with
    | zero =>
        change tooDeep .initList setting session = _ at hok
        exact hnode hok
    | succ room =>
        change initListBody (valueRules room) setting session = _ at hok
        exact hnode hok
  · cases room with
    | zero =>
        change tooDeep .assignment setting session = _ at hok
        exact hnode hok
    | succ room =>
        change assignmentBody (valueRules room) setting session = _ at hok
        exact hnode hok

/-- A single item, behind which no comma follows. -/
theorem commaSeparated_single {item : Parse Unit} {setting : Setting} {session after : Session}
    (hitem : item setting session = (.ok (), after))
    (hcomma : (setting.head after).kind ≠ .comma) :
    commaSeparated item setting session = (.ok (), after) := by
  unfold commaSeparated repeatRule
  rw [ahead_bind]
  unfold repeatUpTo
  rw [bind_run, bind_run, hitem]
  dsimp only
  rw [nextIs_bind]
  simp only [hcomma, decide_false, Bool.false_eq_true, ↓reduceIte]
  rfl

section Declaration

variable (setting : Setting) (diagnostics : Diagnostics) (building : Node)

/-- The tokens of a declared variable up to its initializer. -/
def declared : List Token :=
  [⟨.keyword .int, ⟨0, 3⟩, "int"⟩, ⟨.identifier, ⟨4, 5⟩, "x"⟩, ⟨.assign, ⟨6, 7⟩, "="⟩]

theorem dataType_int (room : Nat) (rest : List Token) :
    dataType (room + 1) { auto := true } setting ⟨declared ++ rest, diagnostics, building⟩ =
      (.ok (), ⟨declared.tail ++ rest, diagnostics, building.append ⟨.dataType, none, some ⟨0, 3⟩,
        [⟨.dataType, some (.keyword .int), some ⟨0, 3⟩, []⟩]⟩⟩) := by
  rfl

theorem identifier_x (rest : List Token) :
    identifier setting ⟨declared.tail ++ rest, diagnostics, building⟩ =
      (.ok (), ⟨declared.tail.tail ++ rest, diagnostics,
        building.append ⟨.identifier, some .identifier, some ⟨4, 5⟩, []⟩⟩) := by
  rfl

theorem sees_declared (room : Nat) (rest : List Token) :
    ((propertyAhead (room + 1) setting).run (declared ++ rest)).isSome = false ∧
      ((variableAhead (room + 1) setting).run (declared ++ rest)).isSome = true :=
  ⟨rfl, rfl⟩

variable {taken rest : List Token} {first last semicolon : Token}

theorem capturedInitializer_run (hcapture : Capture.initializer 0 0 (first :: taken ++ [semicolon]) =
      ⟨first :: taken, [semicolon], .complete⟩)
    (hfirst : Capture.endsInitializer first.kind = false)
    (hlast : (first :: taken).getLast? = some last)
    (htokens : ∀ token ∈ first :: taken, token.span.Within 6 last.span.stop ∧
      token.span.start < token.span.stop) :
    capturedInitializer setting
        ⟨declared.tail.tail ++ (first :: taken ++ [semicolon]), diagnostics, building⟩ =
      (.ok (), ⟨[semicolon], diagnostics,
        building.append ⟨.assignment, none, some ⟨6, last.span.stop⟩, []⟩⟩) := by
  let start : List Token := first :: taken ++ [semicolon]
  let opened : Session := ⟨start, diagnostics, ⟨.assignment, none, some ⟨6, 7⟩, []⟩⟩
  have hcovered : ∃ stop, opened.building.span = some ⟨6, stop⟩ ∧ stop ≤ last.span.stop := by
    have hfirst := htokens first List.mem_cons_self
    have hlow := hfirst.1.low_le
    have hhigh := hfirst.1.le_high
    exact ⟨7, rfl, by omega⟩
  have hspan := span_widen_all hcovered hlast htokens
  have hinner : capture .expression start (.initializer 0 0 start) setting opened =
      (.ok (), ⟨[semicolon], diagnostics, ⟨.assignment, none, some ⟨6, last.span.stop⟩, []⟩⟩) := by
    rw [capture_run, hcapture]
    change (Except.ok (), Session.mk [semicolon] diagnostics
      ((first :: taken).foldl (fun node token => node.widen token.span) opened.building)) = _
    rw [widen_all_eq, hspan]
  have hbody : (do
      if Capture.endsInitializer (← peek).kind then failExpected .expectedExpressionValue
      let start ← ahead
      capture .expression start (.initializer 0 0 start)) setting opened =
      (.ok (), ⟨[semicolon], diagnostics, ⟨.assignment, none, some ⟨6, last.span.stop⟩, []⟩⟩) := by
    rw [peek_bind]
    have hhead : setting.head opened = first := rfl
    simp only [hhead, hfirst, Bool.false_eq_true, ↓reduceIte]
    exact hinner
  let session : Session := ⟨declared.tail.tail ++ start, diagnostics, building⟩
  unfold capturedInitializer
  rw [Comparison.node_run]
  exact congrArg (fun result => (result.1, session.closed result.2)) hbody

/-- A variable with a captured initializer, and the semicolon behind it. -/
def declaration (last semicolon : Token) : Node :=
  ⟨.declaration, none, some ⟨0, semicolon.span.stop⟩,
    [⟨.dataType, none, some ⟨0, 3⟩, [⟨.dataType, some (.keyword .int), some ⟨0, 3⟩, []⟩]⟩,
      ⟨.identifier, some .identifier, some ⟨4, 5⟩, []⟩,
      ⟨.assignment, none, some ⟨6, last.span.stop⟩, []⟩]⟩

theorem globalVariable_run (room : Nat)
    (hcapture : Capture.initializer 0 0 (first :: taken ++ [semicolon]) =
      ⟨first :: taken, [semicolon], .complete⟩)
    (hfirst : Capture.endsInitializer first.kind = false)
    (hlast : (first :: taken).getLast? = some last)
    (htokens : ∀ token ∈ first :: taken, token.span.Within 6 last.span.stop ∧
      token.span.start < token.span.stop)
    (hkind : semicolon.kind = .semicolon) (hbehind : last.span.stop < semicolon.span.stop) :
    globalVariable (room + 1) setting
        ⟨declared ++ (first :: taken ++ [semicolon]), diagnostics, building⟩ =
      (.ok (), ⟨[], diagnostics, building.append (declaration last semicolon)⟩) := by
  have hname (node : Node) : (do identifier; laterInitializer) setting
      ⟨declared.tail ++ (first :: taken ++ [semicolon]), diagnostics, node⟩ =
      (.ok (), ⟨[semicolon], diagnostics,
        (node.append ⟨.identifier, some .identifier, some ⟨4, 5⟩, []⟩).append
          ⟨.assignment, none, some ⟨6, last.span.stop⟩, []⟩⟩) := by
    rw [bind_run, identifier_x]
    exact capturedInitializer_run setting diagnostics _ hcapture hfirst hlast htokens
  have hlisted (node : Node) := commaSeparated_single (hname node) (by
    change semicolon.kind ≠ .comma
    simp [hkind])
  have hgrown : (((((Node.empty .declaration).append
      ⟨.dataType, none, some ⟨0, 3⟩, [⟨.dataType, some (.keyword .int), some ⟨0, 3⟩, []⟩]⟩).append
      ⟨.identifier, some .identifier, some ⟨4, 5⟩, []⟩).append
      ⟨.assignment, none, some ⟨6, last.span.stop⟩, []⟩).widen semicolon.span) =
      declaration last semicolon := by
    have hwide := htokens first List.mem_cons_self
    have hlow := hwide.1.low_le
    have hhigh := hwide.1.le_high
    have hsemicolon : semicolon.span ≠ ⟨0, 0⟩ := by
      intro hnowhere
      rw [hnowhere] at hbehind
      exact Nat.not_lt_zero _ hbehind
    have hstop : max (max 5 last.span.stop) semicolon.span.stop = semicolon.span.stop := by
      omega
    simp [Node.append, Node.empty, Node.widen, Span.hull, Span.nowhere, declaration, hstop,
      hsemicolon]
  have hbody : (do
      dataType (room + 1) { auto := true }
      variableNames laterInitializer) setting
        ⟨declared ++ (first :: taken ++ [semicolon]), diagnostics, .empty .declaration⟩ =
      (.ok (), ⟨[], diagnostics, declaration last semicolon⟩) := by
    rw [bind_run, dataType_int]
    unfold variableNames
    dsimp only
    rw [bind_run, hlisted]
    dsimp only
    rw [nextIs_bind, ← hgrown]
    have hhead (node : Node) : (setting.head ⟨[semicolon], diagnostics, node⟩).kind = .semicolon :=
      hkind
    simp only [hhead, decide_true, ↓reduceIte]
    rfl
  let session : Session :=
    ⟨declared ++ (first :: taken ++ [semicolon]), diagnostics, building⟩
  unfold globalVariable
  rw [Comparison.node_run]
  exact congrArg (fun result => (result.1, session.closed result.2)) hbody

theorem recovering_ok {rule : Parse Unit} {inBraces : Bool} {session after : Session}
    (h : rule setting session = (.ok (), after)) :
    recovering inBraces rule setting session = (.ok (), after) := by
  unfold recovering
  rw [bind_run, attempt_run, h]
  rfl

theorem scriptStep_declared {room : Nat} {inBraces : Bool} {nested : Parse Unit} {after : Session}
    {tokens : List Token}
    (hmember : globalMember room setting ⟨declared ++ tokens, diagnostics, building⟩ = (.ok (), after)) :
    scriptStep room inBraces nested setting ⟨declared ++ tokens, diagnostics, building⟩ =
      (.ok true, after) := by
  have hitem : scriptItem room nested (declared ++ tokens) setting
      ⟨declared ++ tokens, diagnostics, building⟩ = (.ok (), after) := hmember
  have hstep : scriptStep room inBraces nested setting
      ⟨declared ++ tokens, diagnostics, building⟩ =
      (do
        recovering inBraces (scriptItem room nested (declared ++ tokens))
        return true) setting ⟨declared ++ tokens, diagnostics, building⟩ := by
    cases inBraces <;> rfl
  rw [hstep, bind_run, recovering_ok setting hitem]
  rfl

theorem scriptStep_end (hended : setting.Ended) {room : Nat} {inBraces : Bool}
    {nested : Parse Unit} :
    scriptStep room inBraces nested setting ⟨[], diagnostics, building⟩ =
      (.ok false, ⟨[], diagnostics, building⟩) := by
  have hend : setting.finish.kind.isEnd = true := decide_eq_true hended
  unfold scriptStep
  rw [ahead_bind, read_bind]
  simp only [List.dropWhile_nil, List.headD_nil, hend, Bool.true_or, ↓reduceIte]
  rfl

theorem script_run (hended : setting.Ended) (room : Nat)
    (hcapture : Capture.initializer 0 0 (first :: taken ++ [semicolon]) =
      ⟨first :: taken, [semicolon], .complete⟩)
    (hfirst : Capture.endsInitializer first.kind = false)
    (hlast : (first :: taken).getLast? = some last)
    (htokens : ∀ token ∈ first :: taken, token.span.Within 6 last.span.stop ∧
      token.span.start < token.span.stop)
    (hkind : semicolon.kind = .semicolon) (hbehind : last.span.stop < semicolon.span.stop) :
    script (room + 1) setting
        ⟨declared ++ (first :: taken ++ [semicolon]), diagnostics, building⟩ =
      (.ok (), ⟨[], diagnostics, building.append
        ⟨.script, none, some ⟨0, semicolon.span.stop⟩, [declaration last semicolon]⟩⟩) := by
  let nested := namespaceDeclaration (room + 1)
  let tokens := declared ++ (first :: taken ++ [semicolon])
  have hmember (node : Node) : globalMember (room + 1) setting ⟨tokens, diagnostics, node⟩ =
      (.ok (), ⟨[], diagnostics, node.append (declaration last semicolon)⟩) := by
    obtain ⟨hproperty, hvariable⟩ :=
      sees_declared setting room (first :: taken ++ [semicolon])
    unfold globalMember
    rw [sees_bind, hproperty]
    simp only [Bool.false_eq_true, ↓reduceIte]
    rw [sees_bind, hvariable]
    simp only [↓reduceIte]
    exact globalVariable_run setting diagnostics node room hcapture hfirst hlast htokens hkind hbehind
  have hloop (count : Nat) (node : Node) : repeatUpTo (count + 1)
      (scriptStep (room + 1) false nested) setting ⟨tokens, diagnostics, node⟩ =
      (.ok (), ⟨[], diagnostics, node.append (declaration last semicolon)⟩) := by
    rw [repeatUpTo, bind_run, scriptStep_declared setting diagnostics node (hmember node)]
    exact repeatUpTo_still (scriptStep_end setting diagnostics _ hended) count
  have hspan : (Node.empty .script).append (declaration last semicolon) =
      ⟨.script, none, some ⟨0, semicolon.span.stop⟩, [declaration last semicolon]⟩ := by
    have hne : (⟨0, semicolon.span.stop⟩ : Span) ≠ .nowhere := by
      intro hnowhere
      have hstop : semicolon.span.stop = 0 := congrArg Span.stop hnowhere
      exact Nat.not_lt_zero _ (hstop ▸ hbehind)
    simp [Node.append, Node.empty, Node.widen, declaration, hne]
  have hbody : repeatRule (scriptStep (room + 1) false nested) setting
      ⟨tokens, diagnostics, .empty .script⟩ = _ := hloop (byteCount tokens) (.empty .script)
  rw [hspan] at hbody
  let session : Session := ⟨tokens, diagnostics, building⟩
  unfold script scriptBody
  rw [Comparison.node_run]
  exact congrArg (fun result => (result.1, session.closed result.2)) hbody

end Declaration

end Parse

end Grammar

open Grammar Grammar.Parse

/-! ## Texts of initializers -/

/-- An initializer behind an equals sign. -/
def assignedText (text : Source) : Source :=
  '=' :: ' ' :: (text ++ [';'])

/-- A variable declared with an initializer. -/
def declaredText (text : Source) : Source :=
  'i' :: 'n' :: 't' :: ' ' :: 'x' :: ' ' :: assignedText text

def semicolonAt (offset : Nat) : Token :=
  ⟨.semicolon, ⟨offset, offset + 1⟩, ";"⟩

theorem tokensAt_semicolon (offset : Nat) : Source.tokensAt offset [';'] = [semicolonAt offset] := rfl

theorem tokensAt_word {offset : Nat} {word rest : Source} {kind : TokenKind} (hne : word ≠ [])
    (hkind : kind.isTrivia = false)
    (hclassify : Lexeme.classify (word ++ ' ' :: rest) = (kind, word.length)) :
    Source.tokensAt offset (word ++ ' ' :: rest) =
      ⟨kind, ⟨offset, offset + Source.size word⟩, String.ofList word⟩ ::
        Source.tokensAt (offset + Source.size word + 1) rest := by
  have hblank : Source.tokensAt (offset + Source.size word) (' ' :: rest) =
      Source.tokensAt (offset + Source.size word + 1) rest := Source.tokensAt_blank rfl rest
  rw [Source.tokensAt_eq (List.append_ne_nil_of_left_ne_nil hne _), hclassify]
  simp only [hkind, Bool.false_eq_true, ↓reduceIte, List.take_left, List.drop_left, hblank]

theorem tokensAt_assignedText (offset : Nat) (text : Source) :
    Source.tokensAt offset (assignedText text) =
      ⟨.assign, ⟨offset, offset + 1⟩, "="⟩ :: Source.tokensAt (offset + 2) (text ++ [';']) :=
  @tokensAt_word _ ['='] _ _ (by simp) rfl rfl

theorem tokensAt_declaredText (text : Source) :
    Source.tokensAt 0 (declaredText text) = declared ++ Source.tokensAt 8 (text ++ [';']) := by
  have hint : Source.tokensAt 0 (declaredText text) = _ :=
    @tokensAt_word _ ['i', 'n', 't'] _ _ (by simp) rfl rfl
  have hname : Source.tokensAt 4 ('x' :: ' ' :: assignedText text) = _ :=
    @tokensAt_word _ ['x'] _ _ (by simp) rfl rfl
  rw [hint]
  change _ :: Source.tokensAt 4 ('x' :: ' ' :: assignedText text) = _
  rw [hname]
  change _ :: _ :: Source.tokensAt 6 (assignedText text) = _
  rw [tokensAt_assignedText]
  rfl

theorem suffix?_assignedText (text : Source) :
    (assignedText text).suffix? (2 + text.size) = some [';'] := by
  have hsize : Source.size ('=' :: ' ' :: text) = 2 + text.size := by
    rw [Source.size_cons, Source.size_cons, ← Nat.add_assoc]
    rfl
  rw [← hsize]
  exact Source.suffix?_append_size ('=' :: ' ' :: text) [';']

theorem assignedValue_zero {setting : Setting} {session after : Session} :
    assignedValue (valueRules 0) setting session ≠ (.ok (), after) := by
  have hdeep (kind : NodeKind) : tooDeep kind setting session ≠ (.ok (), after) := by
    intro h
    obtain ⟨inner, hinner, -⟩ := node_ok h
    cases hinner
  intro h
  unfold assignedValue at h
  rw [nextIs_bind] at h
  split at h
  · exact hdeep .initList h
  · exact hdeep .assignment h

/-- An initializer that is parsed on its own without an error, up to the semicolon behind it. -/
theorem textEnd_of_quiet {options : Options} {text : Source} {start : Nat}
    (hquiet : ((Entry.initializer 0).parse options (assignedText text)).diagnostics.isEmpty = true)
    (hspan : ((Entry.initializer 0).parse options (assignedText text)).root.span =
      some ⟨start, 2 + text.size⟩) :
    ∃ room, options.maxDepth = room + 1 ∧
      Source.tokensAt 2 (text ++ [';']) =
        (Source.tokensAt 0 text).map (Token.shifted 2) ++ [semicolonAt (2 + text.size)] ∧
      textEnd 0 (Source.tokensAt 2 (text ++ [';'])) = ([semicolonAt (2 + text.size)], 0) := by
  let setting := (Entry.initializer 0).setting options (assignedText text)
  let tokens := Source.tokensAt 2 (text ++ [';'])
  let session : Session := ⟨tokens, {}, .empty .undefined⟩
  have hended : setting.Ended := rfl
  have hwhole : setting.Whole := Nat.le_max_right _ _
  have htokens : (assignedText text).tokensFrom 0 = ⟨.assign, ⟨0, 1⟩, "="⟩ :: tokens :=
    (Source.tokensFrom_zero _).trans (tokensAt_assignedText 0 text)
  have hreads : setting.Reads tokens := by
    have hall : setting.Reads ((assignedText text).tokensFrom 0) := ⟨0, rfl⟩
    rw [htokens] at hall
    exact hall.tail
  obtain ⟨after, hafter⟩ : ∃ after, (Entry.initializer 0).session options (assignedText text) =
      after := ⟨_, rfl⟩
  have hrun : (initializer (valueRules options.maxDepth) setting
      ⟨⟨.assign, ⟨0, 1⟩, "="⟩ :: tokens, {}, .empty .undefined⟩).2 = after := by
    rw [← htokens]
    exact hafter
  have hclean : after.faults = [] := by
    have hempty : after.diagnostics.reported = [] := by
      rw [← hafter]
      exact List.isEmpty_iff.mp hquiet
    rw [Session.faults, hempty]
    rfl
  obtain ⟨hvalue, hends⟩ := initializer_ok rfl (ok_of_quiet hrun (hclean.trans rfl))
  have hvalue : assignedValue (valueRules options.maxDepth) setting session = (.ok (), after) := hvalue
  obtain ⟨child, hchild⟩ := assignedValue_child hvalue
  have hroot : child.span = some ⟨start, 2 + text.size⟩ := by
    have hsame : ((Entry.initializer 0).parse options (assignedText text)).root = child := by
      unfold Entry.parse
      rw [hafter]
      change after.building.children.headD _ = child
      rw [hchild, Node.children_append]
      rfl
    rwa [hsame] at hspan
  have hbuilding : after.building.span = some ⟨start, 2 + text.size⟩ := by
    have hne : (⟨start, 2 + text.size⟩ : Span) ≠ .nowhere := by
      intro hnowhere
      have hstop : 2 + text.size = 0 := congrArg Span.stop hnowhere
      omega
    rw [hchild, Node.append, hroot]
    dsimp only [Option.elim_some]
    rw [Node.widen, if_neg hne]
    rfl
  have hstart : InInitializer setting tokens 0 session :=
    ⟨.refl, rfl, Node.stopsAt_empty .undefined⟩
  have hin := assignedValue_inInitializer hended hwhole hreads options.maxDepth hstart rfl
    (congrArg Prod.snd hvalue) hclean
  obtain ⟨hahead, hending⟩ := hin.ahead_of_stop hreads hends (suffix?_assignedText text) hbuilding rfl
  have hlast : tokens.getLast? = some (semicolonAt (2 + text.size)) :=
    hreads.getLast?_of_leads (hahead ▸ hin.reached) rfl rfl
  have happend := Source.tokensAt_append_of_start (.inr rfl) (List.mem_of_getLast? hlast) rfl
  refine ⟨options.maxDepth - 1, ?_, ?_, hending⟩
  · cases hdepth : options.maxDepth with
    | zero =>
        rw [hdepth] at hvalue
        exact absurd hvalue assignedValue_zero
    | succ room => rfl
  · rw [happend, tokensAt_semicolon, ← Source.tokensAt_shifted, Nat.zero_add]

/-- The tree of a variable whose initializer has so many bytes. -/
def declaredTree (size : Nat) : Node :=
  ⟨.script, none, some ⟨0, 9 + size⟩,
    [⟨.declaration, none, some ⟨0, 9 + size⟩,
      [⟨.dataType, none, some ⟨0, 3⟩, [⟨.dataType, some (.keyword .int), some ⟨0, 3⟩, []⟩]⟩,
        ⟨.identifier, some .identifier, some ⟨4, 5⟩, []⟩,
        ⟨.assignment, none, some ⟨6, 8 + size⟩, []⟩]⟩]⟩

/-- An initializer that is parsed on its own without an error, all of it, is captured as a whole
while a script is parsed, if its brackets are such that the capture may count them. -/
theorem initializer_captured_whole (options : Options) (text : Source) {start : Nat} {last : Token}
    (hlast : (text.tokensFrom 0).getLast? = some last) (hends : last.span.stop = text.size)
    (henclosed : Enclosed (text.tokensFrom 0))
    (hquiet : ((Entry.initializer 0).parse options (assignedText text)).diagnostics.isEmpty = true)
    (hspan : ((Entry.initializer 0).parse options (assignedText text)).root.span =
      some ⟨start, 2 + text.size⟩) :
    Entry.script.parse options (declaredText text) = ⟨declaredTree text.size, {}⟩ := by
  obtain ⟨room, hroom, htokens, hending⟩ := textEnd_of_quiet hquiet hspan
  rw [Source.tokensFrom_zero] at hlast henclosed
  generalize hbody : Source.tokensAt 0 text = body at hlast henclosed htokens
  let setting := Entry.script.setting options (declaredText text)
  let semicolon := semicolonAt (8 + text.size)
  -- The same tokens stand six bytes further on behind the name of the variable.
  have hmove : Source.tokensAt 8 (text ++ [';']) =
      (Source.tokensAt 2 (text ++ [';'])).map (Token.shifted 6) := Source.tokensAt_shifted 6
  have hsemicolon : (semicolonAt (2 + text.size)).shifted 6 = semicolon := by
    simp only [Token.shifted, semicolonAt, semicolon, Token.mk.injEq, Span.mk.injEq, true_and,
      and_true]
    omega
  have hshifted : Source.tokensAt 8 (text ++ [';']) = body.map (Token.shifted 8) ++ [semicolon] := by
    rw [hmove, htokens, List.map_append, List.map_map, List.map_singleton, hsemicolon]
    rfl
  have hending' : textEnd 0 (body.map (Token.shifted 8) ++ [semicolon]) = ([semicolon], 0) := by
    rw [← hshifted, hmove, textEnd_shifted, hending, List.map_singleton, hsemicolon]
  have hreads : setting.Reads (body.map (Token.shifted 8) ++ [semicolon]) := by
    have hall : setting.Reads ((declaredText text).tokensFrom 0) := ⟨0, rfl⟩
    rw [Source.tokensFrom_zero, tokensAt_declaredText, hshifted] at hall
    exact hall.suffix (List.suffix_append _ _)
  have hlow : ∀ token ∈ body.map (Token.shifted 8), 8 ≤ token.span.start := by
    intro token hmem
    refine @Source.le_start_of_mem_tokensAt (text ++ [';']) _ _ ?_
    rw [hshifted]
    exact List.mem_append_left _ hmem
  have hlast' : (body.map (Token.shifted 8)).getLast? = some (last.shifted 8) := by
    rw [List.getLast?_map, hlast]
    rfl
  have hends' : (last.shifted 8).span.stop = 8 + text.size := by
    change last.span.stop + 8 = _
    omega
  have henclosed' : Enclosed (body.map (Token.shifted 8) ++ [semicolon]) := henclosed.shifted rfl
  generalize body.map (Token.shifted 8) = tokens at *
  generalize last.shifted 8 = final at *
  obtain ⟨first, taken, rfl⟩ : ∃ first taken, tokens = first :: taken := by
    cases tokens with
    | nil => cases hlast'
    | cons first taken => exact ⟨first, taken, rfl⟩
  have hordered {token : Token} (hmem : token ∈ first :: taken) :
      token.span.stop ≤ 8 + text.size ∧ token.kind ≠ .unterminatedString := by
    obtain ⟨passed, between, hsplit⟩ := List.append_of_mem hmem
    have hread : setting.Reads (token :: (between ++ [semicolon])) :=
      hreads.suffix ⟨passed, by rw [hsplit]; simp⟩
    have hbehind : semicolon ∈ between ++ [semicolon] := by simp
    refine ⟨hread.stop_le_of_mem hbehind, ?_⟩
    intro hstring
    rw [hread.rest_eq_nil hstring] at hbehind
    cases hbehind
  have hcapture : Capture.initializer 0 0 (first :: taken ++ [semicolon]) =
      ⟨first :: taken, [semicolon], .complete⟩ := by
    have hstrings : ∀ token ∈ first :: taken ++ [semicolon], token.kind ≠ .unterminatedString := by
      intro token hmem
      rcases List.mem_append.mp hmem with hmem | hmem
      · exact (hordered hmem).2
      · rw [List.mem_singleton.mp hmem]
        simp [semicolon, semicolonAt]
    obtain ⟨all, hall, hcapture⟩ := @initializer_complete _ _ _ 0 hending' rfl hstrings
      (by simpa using henclosed'.comma) (by simpa using henclosed'.paired)
    rw [← List.append_cancel_right hall] at hcapture
    exact hcapture
  have hfirst : Capture.endsInitializer first.kind = false := by
    rw [← Bool.not_eq_true]
    intro hkind
    simp only [Capture.endsInitializer, Bool.or_eq_true, decide_eq_true_eq, or_assoc] at hkind
    rcases hkind with hcomma | hstop
    · simpa using henclosed'.comma [] first _ rfl hcomma
    · rw [List.cons_append, textEnd_stop hstop] at hending'
      simp at hending'
  have hwithin : ∀ token ∈ first :: taken, token.span.Within 6 final.span.stop ∧
      token.span.start < token.span.stop := by
    intro token hmem
    have hstart := hlow token hmem
    have hlt := hreads.lt_of_mem (List.mem_append_left _ hmem)
    have hstop := (hordered hmem).1
    exact ⟨⟨by omega, Nat.le_of_lt hlt, by omega⟩, hlt⟩
  have hbehind : final.span.stop < semicolon.span.stop := hends' ▸ Nat.lt_succ_self _
  have hrun := script_run setting {} (.empty .undefined) rfl room hcapture hfirst hlast' hwithin
    rfl hbehind
  have hstop : semicolon.span.stop = 9 + text.size := by
    change 8 + text.size + 1 = _
    omega
  have htree : (⟨.script, none, some ⟨0, semicolon.span.stop⟩, [declaration final semicolon]⟩ : Node) =
      declaredTree text.size := by
    rw [declaration, hstop, hends']
    rfl
  rw [← hshifted, ← tokensAt_declaredText, ← Source.tokensFrom_zero, ← hroom, htree] at hrun
  have hsession : Entry.script.session options (declaredText text) =
      ⟨[], {}, (Node.empty .undefined).append (declaredTree text.size)⟩ := congrArg Prod.snd hrun
  unfold Entry.parse
  rw [hsession]
  simp [Node.empty]

theorem initializer_captured_whole_call :
    Entry.script.parse {} (declaredText ['f', '(', '1', ',', ' ', '2', ')']) = ⟨declaredTree 7, {}⟩ :=
  @initializer_captured_whole {} ['f', '(', '1', ',', ' ', '2', ')'] 2
    ⟨.punctuation .closeParen, ⟨6, 7⟩, ")"⟩ (by decide +kernel) rfl (by decide +kernel)
    (by decide +kernel) (by decide +kernel)

/-- Square brackets are not counted: the comma between two indices ends the capture, and the script
is in error behind it, although the initializer is not. -/
theorem indices_not_captured_whole :
    ¬∀ (options : Options) (text : Source) (start : Nat),
      (text.tokensFrom 0).getLast?.map (·.span.stop) = some text.size →
      ((Entry.initializer 0).parse options (assignedText text)).diagnostics.isEmpty = true →
      ((Entry.initializer 0).parse options (assignedText text)).root.span =
        some ⟨start, 2 + text.size⟩ →
      (Entry.script.parse options (declaredText text)).diagnostics.errors = [] ∧
        (Entry.script.parse options (declaredText text)).root = declaredTree text.size := by
  intro h
  have hindices := (h {} ['a', '[', '1', ',', ' ', '2', ']'] 2 (by decide +kernel)
    (by decide +kernel) (by decide +kernel)).1
  revert hindices
  decide +kernel

end ScriptSyntax
