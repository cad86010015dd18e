import ScriptSyntax.Proofs.Comparison.Entry
import ScriptSyntax.Proofs.Reading

/-!
# Every run comes to its end

The loops of the grammar carry a bound on the number of their rounds.  No loop ever comes to that
bound: each round but the last leaves less text ahead, also one that passes over broken text.  So a
loop does what it would do without a bound, and the bounds only say so in advance.
-/

namespace ScriptSyntax

namespace Grammar

/-- Where the next token starts. -/
def Setting.position (setting : Setting) (session : Session) : Nat :=
  (setting.head session).span.start

namespace Parse

/-! ## The rules and the loops of the grammar -/

/-- The rules that something of the source is read by. -/
inductive IsRule : {α : Type} → Parse α → Prop
  | require (kind : TokenKind) : IsRule (require kind)
  | leaf (kind : NodeKind) : IsRule (leaf kind)
  | markIf (kind : TokenKind) : IsRule (markIf kind)
  | coverRequired (kind : TokenKind) : IsRule (coverRequired kind)
  | identifier : IsRule identifier
  | expectEnd : IsRule expectEnd
  | typeName (forms : TypeForms) : IsRule (typeName forms)
  | templateArguments (room : Nat) : IsRule (templateArguments (dataType room {}))
  | typeSuffixes : IsRule typeSuffixes
  | dataType (room : Nat) (forms : TypeForms) : IsRule (dataType room forms)
  | scope (room : Nat) : IsRule (scope room)
  | typeModifier (ofParameter : Bool) : IsRule (typeModifier ofParameter)
  | defaultArgument : IsRule defaultArgument
  | capturedInitializer : IsRule capturedInitializer
  | laterInitializer : IsRule laterInitializer
  | capturedBlock : IsRule capturedBlock
  | returnType (room : Nat) : IsRule (returnType room)
  | parameter (room : Nat) : IsRule (parameter room)
  | parameterList (room : Nat) : IsRule (parameterList room)
  | methodAttributes : IsRule methodAttributes
  | signature (room : Nat) : IsRule (signature room)
  | functionSignature (room : Nat) : IsRule (functionSignature room)
  | listPattern (room : Nat) : IsRule (listPattern room)
  | argument (room : Nat) : IsRule (argument (valueRules room))
  | argumentList (room : Nat) (parenthesized : Bool) :
      IsRule (argumentList (valueRules room) parenthesized)
  | emptySlot : IsRule emptySlot
  | listElement (room : Nat) : IsRule (listElement (valueRules room))
  | initList (room : Nat) : IsRule (valueRules room).initList
  | constant : IsRule constant
  | functionCall (room : Nat) : IsRule (functionCall (valueRules room))
  | variableAccess (room : Nat) : IsRule (variableAccess room)
  | constructCall (room : Nat) : IsRule (constructCall (valueRules room))
  | cast (room : Nat) : IsRule (cast (valueRules room))
  | lambdaParameterType (room : Nat) : IsRule (lambdaParameterType room)
  | lambda (room : Nat) : IsRule (lambda room)
  | namedValue (room : Nat) : IsRule (namedValue (valueRules room))
  | value (room : Nat) : IsRule (value (valueRules room))
  | postOperator (room : Nat) : IsRule (postOperator (valueRules room))
  | term (room : Nat) : IsRule (term (valueRules room))
  | expression (room : Nat) : IsRule (expression (valueRules room))
  | condition (room : Nat) : IsRule (condition (valueRules room))
  | assignment (room : Nat) : IsRule (valueRules room).assignment
  | assignedValue (room : Nat) : IsRule (assignedValue (valueRules room))
  | initializer (room : Nat) : IsRule (initializer (valueRules room))
  | localVariable (room : Nat) : IsRule (localVariable (valueRules room))
  | blockItem (room : Nat) : IsRule (blockItem (blockRules room))
  | block (room : Nat) : IsRule (block (blockRules room))
  | expressionStatement (room : Nat) : IsRule (expressionStatement (blockRules room))
  | keywordCondition (room : Nat) (keyword : Keyword) :
      IsRule (keywordCondition (blockRules room) keyword)
  | jump (kind : NodeKind) : IsRule (jump kind)
  | caseLabel (room : Nat) : IsRule (caseLabel (blockRules room))
  | switchStatement (room : Nat) : IsRule (switchStatement (blockRules room))
  | ifStatement (room : Nat) : IsRule (ifStatement (blockRules room))
  | whileStatement (room : Nat) : IsRule (whileStatement (blockRules room))
  | doStatement (room : Nat) : IsRule (doStatement (blockRules room))
  | forStatement (room : Nat) : IsRule (forStatement (blockRules room))
  | returnStatement (room : Nat) : IsRule (returnStatement (blockRules room))
  | tryStatement (room : Nat) : IsRule (tryStatement (blockRules room))
  | statement (room : Nat) : IsRule (blockRules room).statement
  | globalVariable (room : Nat) : IsRule (globalVariable room)
  | memberVariable (room : Nat) : IsRule (memberVariable room)
  | accessModifier : IsRule accessModifier
  | sharedModifiers : IsRule sharedModifiers
  | importDeclaration (room : Nat) : IsRule (importDeclaration room)
  | enumerator : IsRule enumerator
  | enumDeclaration : IsRule enumDeclaration
  | typedefDeclaration : IsRule typedefDeclaration
  | funcdefDeclaration (room : Nat) : IsRule (funcdefDeclaration room)
  | functionBody : IsRule functionBody
  | globalFunction (room : Nat) : IsRule (globalFunction room)
  | method (room : Nat) : IsRule (method room)
  | interfaceMethod (room : Nat) : IsRule (interfaceMethod room)
  | accessor (place : PropertyPlace) : IsRule (accessor place)
  | property (room : Nat) (place : PropertyPlace) : IsRule (property room place)
  | baseName (room : Nat) : IsRule (baseName room)
  | interfaceMember (room : Nat) : IsRule (interfaceMember room)
  | interfaceDeclaration (room : Nat) : IsRule (interfaceDeclaration room)
  | classMember (room : Nat) : IsRule (classMember room)
  | classDeclaration (room : Nat) : IsRule (classDeclaration room)
  | mixinDeclaration (room : Nat) : IsRule (mixinDeclaration room)
  | globalMember (room : Nat) : IsRule (globalMember room)
  | namespaceDeclaration (room : Nat) : IsRule (namespaceDeclaration room)
  | script (room : Nat) : IsRule (script room)
  | scriptInBraces (room : Nat) : IsRule (scriptBody room true (namespaceDeclaration room))
  | template : IsRule template
  | registeredProperty (room : Nat) : IsRule (registeredProperty room)
  | entry (entry : Entry) (room : Nat) : IsRule (entry.rule room)

/-- The rounds of the loops that pass over broken text and go on: those of a script, of the members
of a class and of a block. -/
inductive IsRecoveringRound : Parse Bool → Prop
  | script (room : Nat) (inBraces : Bool) :
      IsRecoveringRound (scriptStep room inBraces (namespaceDeclaration room))
  | members (room : Nat) :
      IsRecoveringRound (do
        if !endsMembers (← peek) then
          recovering true (classMember room)
          return true
        else return false)
  | block (room : Nat) (start : List Token) :
      IsRecoveringRound (blockStep (blockRules room) start)

/-- A token test and the rule that is run as long as the test holds. -/
inductive IsRepeated : (Token → Bool) → Parse Unit → Prop
  | strings : IsRepeated (·.kind.isString) (leaf .constant)
  | beforeValue : IsRepeated (·.kind.isBeforeValue) (leaf .exprPreOp)
  | afterValue (room : Nat) :
      IsRepeated (·.kind.isAfterValue) (postOperator (valueRules room))
  | operands (room : Nat) :
      IsRepeated (·.kind.isBinaryOperator) (do
        leaf .exprOperator
        term (valueRules room))
  | lambdaParameters (room : Nat) :
      IsRepeated (·.kind = .comma) (do
        skip
        lambdaParameterType room
        identifier)
  | caseItems (room : Nat) :
      IsRepeated (fun token => !endsCase token.kind) (blockItem (blockRules room))
  | methodAttributes : IsRepeated (·.hasRole .methodAttribute) identifier
  | sharedModifiers :
      IsRepeated (fun token => token.isWord .shared || token.isWord .external) identifier
  | declarationModifiers : IsRepeated (·.hasRole .declarationModifier) identifier
  | interfaceMembers (room : Nat) :
      IsRepeated (fun token => !endsMembers token) (interfaceMember room)

/-- The rounds of the loops of the grammar. -/
inductive IsRound : Parse Bool → Prop
  | recovering {body : Parse Bool} (h : IsRecoveringRound body) : IsRound body
  | separated (item : Parse Unit) (h : Advances item) :
      IsRound (do
        item
        if ← nextIs .comma then
          skip
          return true
        else return false)
  | repeated {test : Token → Bool} {rule : Parse Unit} (h : IsRepeated test rule) :
      IsRound (do
        if test (← peek) then
          rule
          return true
        else return false)
  | scopeNames :
      IsRound (do
        if (← peek).kind.isIdentifier && (← peekSecond).kind = .scope then
          identifier
          mark
          return true
        else return false)
  | typeSuffixes :
      IsRound (do
        match (← peek).kind with
        | .openBracket =>
            mark
            coverRequired .closeBracket
            return true
        | .handle =>
            mark
            markIf .const
            return true
        | _ => return false)
  | cases (room : Nat) :
      IsRound (do
        match (← peek).kind with
        | .closeBrace =>
            cover
            return false
        | .keyword .case_ | .keyword .default_ =>
            caseLabel (blockRules room)
            return true
        | _ => failExpected (.expectedOneOfKinds [.keyword .case_, .keyword .default_]))
  | enumerators : IsRound enumerator
  | accessors (place : PropertyPlace) :
      IsRound (do
        let token ← peek
        if token.kind = .closeBrace then
          cover
          return false
        if !token.hasRole .accessor then
          failExpected (.expectedOneOf [ContextualWord.get.canonical, ContextualWord.set.canonical,
            TokenKind.closeBrace.describe])
        accessor place
        return true)
  | patternElements (room : Nat) (start : List Token) :
      IsRound (do
        patternElement room (listPattern room) start
        patternSeparator start)

/-! ## Rules move forward -/

instance : Advances Parse.template := by
  unfold Parse.template
  infer_instance

instance (room : Nat) : Advances (registeredProperty room) := by
  unfold registeredProperty
  infer_instance

instance (entry : Entry) (room : Nat) : Advances (entry.rule room) := by
  cases entry with
  | script => exact inferInstanceAs (Advances (script room))
  | functionSignature =>
      exact inferInstanceAs (Advances (do functionSignature room; expectEnd))
  | listFactorySignature =>
      exact inferInstanceAs (Advances (do
        node .function do
          signature room
          listPattern room
        expectEnd))
  | expression => exact inferInstanceAs (Advances (expression (valueRules room)))
  | statementBlock start => exact inferInstanceAs (Advances (block (blockRules room)))
  | initializer start => exact inferInstanceAs (Advances (initializer (valueRules room)))
  | dataType ofReturn =>
      unfold Entry.rule
      infer_instance
  | template => exact inferInstanceAs (Advances (do template; expectEnd))
  | property => exact inferInstanceAs (Advances (do registeredProperty room; expectEnd))

theorem IsRule.advances {α : Type} {rule : Parse α} (h : IsRule rule) : Advances rule := by
  cases h <;> infer_instance

/-! ## Loops come to their end -/

/-- What a loop without a bound ends with: its last round asks for no other one, or breaks off. -/
inductive Repeats (body : Parse Bool) (setting : Setting) :
    Session → Except Interruption Unit × Session → Prop
  | last {session after : Session} (hbody : body setting session = (.ok false, after)) :
      Repeats body setting session (.ok (), after)
  | broken {session after : Session} {interruption : Interruption}
      (hbody : body setting session = (.error interruption, after)) :
      Repeats body setting session (.error interruption, after)
  | again {session middle : Session} {result : Except Interruption Unit × Session}
      (hbody : body setting session = (.ok true, middle))
      (hrest : Repeats body setting middle result) : Repeats body setting session result

theorem repeatUpTo_repeats {body : Parse Bool} [Rounds body] {setting : Setting}
    (hended : setting.Ended) {session : Session} (hreads : setting.Reads session.ahead)
    {count : Nat} (hcount : byteCount session.ahead < count) :
    Repeats body setting session (repeatUpTo count body setting session) := by
  induction count generalizing session with
  | zero => exact absurd hcount (Nat.not_lt_zero _)
  | succ count ih =>
      unfold repeatUpTo
      rw [bind_run]
      rcases hbody : body setting session with ⟨interruption | again, middle⟩
      · exact .broken hbody
      · cases again with
        | false => exact .last hbody
        | true =>
            have hpasses := Rounds.passes setting session middle hended hbody
            have hshorter := hreads.orderly.byteCount_lt hpasses
            exact .again hbody (ih (hreads.leads hpasses.to_reflTransGen) (by omega))

theorem repeatRule_repeats {body : Parse Bool} [Rounds body] {setting : Setting}
    (hended : setting.Ended) {session : Session} (hreads : setting.Reads session.ahead) :
    Repeats body setting session (repeatRule body setting session) :=
  repeatUpTo_repeats hended hreads (Nat.lt_succ_self _)

theorem IsRecoveringRound.rounds {body : Parse Bool} (h : IsRecoveringRound body) :
    Rounds body := by
  cases h with
  | script room inBraces => infer_instance
  | members room =>
      refine rounds_recovering fun token htest => ?_
      simp only [endsMembers, Bool.not_eq_true', Bool.or_eq_false_iff, decide_eq_false_iff_not,
        TokenKind.isEnd] at htest
      exact ⟨htest.2, htest.1⟩
  | block room start => infer_instance

/-- The end of the source passes no test for strings or operators. -/
theorem IsRepeated.rounds {test : Token → Bool} {rule : Parse Unit} (h : IsRepeated test rule) :
    Rounds (do
      if test (← peek) then
        rule
        return true
      else return false) := by
  cases h with
  | strings =>
      refine rounds_leaf .constant fun token htest hend => ?_
      rw [hend] at htest
      cases htest
  | beforeValue =>
      refine rounds_leaf .exprPreOp fun token htest hend => ?_
      rw [hend] at htest
      cases htest
  | afterValue room => infer_instance
  | operands room => exact rounds_of_test (operand_passes (valueRules room))
  | lambdaParameters room => infer_instance
  | caseItems room => infer_instance
  | methodAttributes => infer_instance
  | sharedModifiers => infer_instance
  | declarationModifiers => infer_instance
  | interfaceMembers room => infer_instance

theorem IsRound.rounds {body : Parse Bool} (h : IsRound body) : Rounds body := by
  cases h with
  | recovering h => exact h.rounds
  | separated item h => infer_instance
  | repeated h => exact h.rounds
  | scopeNames => infer_instance
  | typeSuffixes => infer_instance
  | cases room => infer_instance
  | enumerators => infer_instance
  | accessors place => infer_instance
  | patternElements room start => infer_instance

/-- A path of namespaces has no more names than there are tokens, so two bounds that allow for
these do the same. -/
theorem namespacePath_congr (body : Parse Unit) {setting : Setting} (hended : setting.Ended)
    {session : Session} {count count' : Nat} (hcount : session.ahead.length < count)
    (hcount' : session.ahead.length < count') :
    namespacePath body count setting session = namespacePath body count' setting session := by
  induction count generalizing session count' with
  | zero => exact absurd hcount (Nat.not_lt_zero _)
  | succ count ih =>
      obtain ⟨count', rfl⟩ : ∃ bound, count' = bound + 1 :=
        ⟨count' - 1, by omega⟩
      unfold namespacePath
      rw [bind_run, bind_run]
      rcases hname : identifier setting session with ⟨interruption | value, named⟩
      · rfl
      obtain ⟨hkind, hnamed⟩ := identifier_ok hname
      have hpresent : session.ahead = setting.head session :: session.ahead.tail :=
        hended.ahead_cons (by simp [hkind])
      have hlength : named.ahead.tail.length < session.ahead.length := by
        rw [hnamed, hpresent, List.tail_cons, List.length_cons, List.length_tail]
        omega
      dsimp only
      rw [nextIs_bind, nextIs_bind]
      split
      · rw [bind_run, bind_run]
        change node .script (node .namespace_ (namespacePath body count)) setting
            (setting.passed .span named) =
          node .script (node .namespace_ (namespacePath body count')) setting
            (setting.passed .span named)
        rw [Comparison.node_run, Comparison.node_run, Comparison.node_run, Comparison.node_run]
        have hlt : (((setting.passed .span named).opened .script).opened .namespace_).ahead.length <
            session.ahead.length := hlength
        rw [ih (Nat.lt_of_lt_of_le hlt (Nat.lt_succ_iff.mp hcount))
          (Nat.lt_of_lt_of_le hlt (Nat.lt_succ_iff.mp hcount'))]
      · rfl

end Parse

/-! ## Scans come to their end -/

namespace Scan

/-- What the loop of a scan ends with that has no bound. -/
inductive Repeats (body : Scan Bool) (setting : Setting) :
    List Token → Option (Unit × List Token) → Prop
  | last {tokens rest : List Token} (hbody : (body setting).run tokens = some (false, rest)) :
      Repeats body setting tokens (some ((), rest))
  | failed {tokens : List Token} (hbody : (body setting).run tokens = none) :
      Repeats body setting tokens none
  | again {tokens middle : List Token} {result : Option (Unit × List Token)}
      (hbody : (body setting).run tokens = some (true, middle))
      (hrest : Repeats body setting middle result) : Repeats body setting tokens result

theorem Repeats.unique {body : Scan Bool} {setting : Setting} {tokens : List Token}
    {result other : Option (Unit × List Token)} (h : Repeats body setting tokens result)
    (h' : Repeats body setting tokens other) : result = other := by
  induction h with
  | last hbody => cases h' <;> simp_all
  | failed hbody => cases h' <;> simp_all
  | again hbody hrest ih =>
      cases h' with
      | last hbody' => simp_all
      | failed hbody' => simp_all
      | again hbody' hrest' =>
          cases hbody.symm.trans hbody'
          exact ih hrest'

/-- Past a scope in front of a name, which may take template arguments; says whether there is
one. -/
def leadingScope (room : Nat) : Scan Bool := do
  let start ← get
  let name ← next
  if !name.kind.isIdentifier then
    set start
    return false
  if (← peek).kind = .scope then
    skip
    return true
  if ← passes (do templateList room name; require .scope) then return true
  set start
  return false

theorem leadingScope_run (room : Nat) (setting : Setting) (tokens : List Token) :
    (leadingScope room setting).run tokens =
      let name := tokens.headD setting.finish
      if name.kind.isIdentifier then
        if (tokens.tail.headD setting.finish).kind = .scope then some (true, tokens.tail.tail)
        else
          match ((do templateList room name; require .scope : Scan Unit) setting).run tokens.tail with
          | some seen => some (true, seen.2)
          | none => some (false, tokens)
      else some (false, tokens) := by
  unfold leadingScope
  rw [get_bind, next_bind]
  dsimp only
  cases hname : (tokens.headD setting.finish).kind.isIdentifier with
  | false => rfl
  | true =>
      simp only [Bool.not_true, Bool.false_eq_true, ↓reduceIte]
      rw [peek_bind]
      split
      · rfl
      · rw [Scan.bind_run, passes_run]
        cases ((do templateList room (tokens.headD setting.finish); require .scope : Scan Unit)
          setting).run tokens.tail <;> rfl

/-- A scoped name is the token behind its scopes. -/
theorem scopedName_run (room count : Nat) (setting : Setting) (tokens : List Token) :
    (scopedName room count setting).run tokens =
      ((do repeatUpTo count (leadingScope room); next : Scan Token) setting).run tokens := by
  induction count generalizing tokens with
  | zero => rfl
  | succ count ih =>
      rw [Scan.bind_run, repeatUpTo_run, leadingScope_run]
      unfold scopedName
      rw [next_bind]
      cases hname : (tokens.headD setting.finish).kind.isIdentifier with
      | false =>
          simp only [hname, Bool.not_false, Bool.false_eq_true, ↓reduceIte]
          rfl
      | true =>
          simp only [hname, Bool.not_true, Bool.false_eq_true, ↓reduceIte]
          rw [peek_bind]
          split
          · rw [skip_bind, ih, Scan.bind_run]
            rfl
          · rw [Scan.bind_run, passes_run]
            cases ((do templateList room (tokens.headD setting.finish); require .scope : Scan Unit)
                setting).run tokens.tail with
            | none => rfl
            | some seen =>
                dsimp only [Option.bind_some]
                rw [if_pos rfl, if_pos rfl, ih, Scan.bind_run]

/-- The scan passes a token if it asks to be run again. -/
def Rounds (body : Scan Bool) : Prop :=
  ∀ setting tokens rest, setting.Ended → (body setting).run tokens = some (true, rest) →
    setting.Passes tokens rest

theorem rounds_templateArgument (room : Nat) : Rounds (templateArgument (templateList room)) := by
  intro setting tokens rest hended hrun
  rw [templateArgument_run] at hrun
  dsimp only at hrun
  split at hrun
  case isFalse => cases hrun
  obtain ⟨listed, hlisted, hsuffixes⟩ := Option.bind_eq_some_iff.mp hrun
  obtain ⟨behind, hbehind, hcomma⟩ := Option.map_eq_some_iff.mp hsuffixes
  split at hcomma
  case isFalse => cases hcomma
  rename_i hkind
  cases hcomma
  have hnamed := setting.leads_of_suffix (behindScopes_suffix setting tokens)
  have hlist := templateList_leads setting room _ _ _ hlisted
  have hrest := setting.leads_of_suffix (skipArgumentSuffixes?_suffix hbehind)
  have hleads := ((hnamed.trans (setting.leads_tail _)).trans hlist).trans hrest
  refine Relation.TransGen.trans_right hleads (Setting.passes_tail ?_)
  rintro rfl
  rw [List.headD_nil, hended] at hkind
  cases hkind

theorem rounds_leadingScope (room : Nat) : Rounds (leadingScope room) := by
  intro setting tokens rest hended hrun
  rw [leadingScope_run] at hrun
  dsimp only at hrun
  split at hrun
  case isFalse => cases hrun
  rename_i hname
  have hfirst : setting.Passes tokens tokens.tail := by
    refine Setting.passes_tail ?_
    rintro rfl
    rw [List.headD_nil, hended] at hname
    cases hname
  split at hrun
  · cases hrun
    exact hfirst.trans_left (setting.leads_tail _)
  split at hrun
  case h_2 => cases hrun
  rename_i seen hscan
  cases hrun
  rw [bind_run] at hscan
  obtain ⟨listed, hlisted, hscope⟩ := Option.bind_eq_some_iff.mp hscan
  rw [require_run] at hscope
  split at hscope
  case isFalse => cases hscope
  cases hscope
  have hlist := templateList_leads setting room _ _ _ hlisted
  exact (hfirst.trans_left hlist).trans_left (setting.leads_tail _)

theorem repeatUpTo_repeats {body : Scan Bool} (hbody : Rounds body) {setting : Setting}
    (hended : setting.Ended) {count : Nat} {tokens : List Token} (hreads : setting.Reads tokens)
    (hcount : byteCount tokens < count) :
    Repeats body setting tokens ((repeatUpTo count body setting).run tokens) := by
  induction count generalizing tokens with
  | zero => exact absurd hcount (Nat.not_lt_zero _)
  | succ count ih =>
      rw [repeatUpTo_run]
      cases hrun : (body setting).run tokens with
      | none => exact .failed hrun
      | some seen =>
          obtain ⟨again, rest⟩ := seen
          cases again with
          | false => exact .last hrun
          | true =>
              have hpasses := hbody setting tokens rest hended hrun
              have hshorter := hreads.orderly.byteCount_lt hpasses
              exact .again hrun (ih (hreads.leads hpasses.to_reflTransGen) (by omega))

theorem repeatScan_repeats {body : Scan Bool} (hbody : Rounds body) {setting : Setting}
    (hended : setting.Ended) {tokens : List Token} (hreads : setting.Reads tokens) :
    Repeats body setting tokens ((repeatScan body setting).run tokens) :=
  repeatUpTo_repeats hbody hended hreads (Nat.lt_succ_self _)

/-- The rounds of the loops of scans. -/
inductive IsRound : Scan Bool → Prop
  | templateArgument (room : Nat) : IsRound (templateArgument (templateList room))
  | leadingScope (room : Nat) : IsRound (leadingScope room)

theorem IsRound.rounds {body : Scan Bool} (h : IsRound body) : Rounds body := by
  cases h with
  | templateArgument room => exact rounds_templateArgument room
  | leadingScope room => exact rounds_leadingScope room

end Scan

/-! ## Entries -/

/-- Nothing that is run from tokens of the source goes back behind them, and all of it comes to its
end. -/
structure Progresses (setting : Setting) : Prop where
  /-- Cutting a text into pieces comes to the end of the text. -/
  pieces : ∀ text : Source, text.pieces.flatMap Piece.text = text
  /-- No rule goes back, whether it ends early or not. -/
  forward : ∀ {α : Type} {rule : Parse α}, Parse.IsRule rule →
    ∀ session, setting.Reads session.ahead → setting.Reads (rule setting session).2.ahead ∧
      setting.position session ≤ setting.position (rule setting session).2
  /-- Where a loop recovers from errors, each round that is followed by another one has passed a
  token. -/
  recovers : ∀ {body : Parse Bool}, Parse.IsRecoveringRound body →
    ∀ session after, setting.Reads session.ahead → body setting session = (.ok true, after) →
      setting.position session < setting.position after
  /-- No loop comes to its bound. -/
  repeats : ∀ {body : Parse Bool}, Parse.IsRound body →
    ∀ session, setting.Reads session.ahead →
      Parse.Repeats body setting session (Parse.repeatRule body setting session)
  /-- No path of namespaces comes to its bound. -/
  path : ∀ body session count, session.ahead.length < count →
    Parse.namespacePath body count setting session =
      Parse.namespacePath body (session.ahead.length + 1) setting session
  /-- No loop of a scan comes to its bound. -/
  scans : ∀ {body : Scan Bool}, Scan.IsRound body → ∀ tokens, setting.Reads tokens →
    Scan.Repeats body setting tokens ((Scan.repeatScan body setting).run tokens)
  /-- Past the scopes of a name goes a loop, too. -/
  scopes : ∀ room tokens,
    (scopedName room (byteCount tokens + 1) setting).run tokens =
      ((do Scan.repeatScan (Scan.leadingScope room); Scan.next : Scan Token) setting).run tokens

theorem Setting.Reads.position_lt {setting : Setting} (hwhole : setting.Whole)
    {session after : Session} (h : setting.Reads session.ahead)
    (hpasses : setting.Passes session.ahead after.ahead) :
    setting.position session < setting.position after := by
  obtain ⟨next, hstep, hleads⟩ := Relation.TransGen.head'_iff.mp hpasses
  obtain ⟨token, rest, hahead, -, hlt⟩ := h.start_lt hwhole hstep
  have hle := (h.step hstep).start_le hwhole hleads
  unfold Setting.position Setting.head
  rw [hahead, List.headD_cons]
  exact Nat.lt_of_lt_of_le hlt hle

theorem flatMap_text_pieces (text : Source) : text.pieces.flatMap Piece.text = text := by
  induction text using Source.pieces_induction with
  | nil => rfl
  | piece text hne ih =>
      rw [Source.pieces_eq_cons hne, List.flatMap_cons, ih]
      exact List.take_append_drop _ _

theorem progresses {setting : Setting} (hended : setting.Ended) (hwhole : setting.Whole) :
    Progresses setting where
  pieces := flatMap_text_pieces
  forward hrule session hreads := by
    have hleads := (hrule.advances.proceeds setting session).advance.forward
    exact ⟨hreads.leads hleads, hreads.start_le hwhole hleads⟩
  recovers hround session after hreads hrun :=
    hreads.position_lt hwhole (hround.rounds.passes setting session after hended hrun)
  repeats hround session hreads := by
    have hrounds := hround.rounds
    exact Parse.repeatRule_repeats hended hreads
  path body session count hcount :=
    Parse.namespacePath_congr body hended hcount (Nat.lt_succ_self _)
  scans hround tokens hreads := Scan.repeatScan_repeats hround.rounds hended hreads
  scopes room tokens := Scan.scopedName_run room _ setting tokens

end Grammar

namespace Entry

open Grammar

/-- Whatever a source is parsed as, and from wherever: parsing starts with tokens of the source, and
from such tokens no rule goes back, no round of recovery stands still and no loop runs on. -/
theorem entry_progresses (entry : Entry) (options : Options) (source : Source) :
    (entry.setting options source).Reads (source.tokensFrom entry.start) ∧
      Progresses (entry.setting options source) :=
  ⟨⟨entry.start, rfl⟩, progresses rfl (Nat.le_max_right _ _)⟩

end Entry

end ScriptSyntax
