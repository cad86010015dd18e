import ScriptSyntax.Entry
import ScriptSyntax.Proofs.Persistence.Declaration

/-!
# The limit of nesting

If a source is parsed without an error, the limit of nesting had no part in it: under any higher
limit it is parsed in the same way.
-/

namespace ScriptSyntax

open Grammar Grammar.Parse

namespace Grammar.Parse

section

set_option synthInstance.maxSize 2000

/-! ## Namespaces -/

/-- What was reported before a rule is still reported behind it. -/
theorem not_clean_identifier {setting : Setting} {session : Session} (h : ¬ session.Clean) :
    ¬ ((do identifier; interrupt : Parse Unit) setting session).2.Clean := by
  intro hclean
  have hidentifier : Persists identifier identifier := inferInstance
  refine h ((hidentifier.always setting session).clean ?_)
  rw [bind_run] at hclean
  rcases hrun : identifier setting session with ⟨_ | _, middle⟩ <;>
  · rw [hrun] at hclean
    exact hclean

/-- A modifier in the place of the keyword is an error, though reading goes on for a while. -/
instance : Persists namespaceKeyword namespaceKeyword := by
  have hmissing : Persists
      (do
        reportExpected (.expectedKind (.keyword .namespace_))
        identifier
        interrupt)
      (do
        reportExpected (.expectedKind (.keyword .namespace_))
        identifier
        interrupt : Parse Unit) :=
    persists_of_fault fun setting session => not_clean_identifier
      (not_clean_reported setting (.insteadFound (setting.head session)) (setting.head session) _)
  unfold namespaceKeyword
  infer_instance

instance (opening : List Token) : Persists (namespaceClosing opening) (namespaceClosing opening) := by
  have hmissing (token : Token) : Persists
      (do
        if token.kind.isEnd then diagnose .error .unexpectedEndOfFile token
        else reportExpected (.expectedKind .closeBrace)
        failInside .namespaceBody opening)
      (do
        if token.kind.isEnd then diagnose .error .unexpectedEndOfFile token
        else reportExpected (.expectedKind .closeBrace)
        failInside .namespaceBody opening : Parse Unit) := by
    refine persists_of_fault fun setting session hclean => ?_
    split at hclean
    · exact not_clean_reported setting .unexpectedEndOfFile token session (clean_failInside hclean)
    · exact not_clean_reported setting (.insteadFound (setting.head session)) (setting.head session) _
        (clean_failInside hclean)
  unfold namespaceClosing
  infer_instance

variable (body body' : Parse Unit) [Persists body body']

instance (count : Nat) : Persists (namespacePath body count) (namespacePath body' count) := by
  induction count with
  | zero => exact inferInstanceAs (Persists (pure ()) (pure ()))
  | succ count ih =>
      unfold namespacePath
      infer_instance

instance : Persists (namespaceBody body) (namespaceBody body') := by
  have hpath (opening : List Token) : Persists
      (do
        if let some brace := opening.head? then widen brace.span
        namespacePath body ((← ahead).length + 1)
        namespaceClosing opening)
      (do
        if let some brace := opening.head? then widen brace.span
        namespacePath body' ((← ahead).length + 1)
        namespaceClosing opening) := by
    dsimp only
    split <;> infer_instance
  unfold namespaceBody
  infer_instance

/-! ## Scripts -/

variable {room more : Nat} [Fact (room ≤ more)]

instance (behind : List Token) :
    Persists (scriptItem room body behind) (scriptItem more body' behind) := by
  have hitem (first : Token) : Persists
      (match first.kind with
        | .keyword .import_ => importDeclaration room
        | .keyword .enum => enumDeclaration
        | .keyword .typedef => typedefDeclaration
        | .keyword .class_ => classDeclaration room
        | .keyword .mixin => mixinDeclaration room
        | .keyword .interface => interfaceDeclaration room
        | .keyword .funcdef => funcdefDeclaration room
        | .keyword .namespace_ => body
        | .keyword .const | .keyword .auto | .scope => globalMember room
        | .semicolon => skip
        | kind =>
            if first.isTypeName then globalMember room
            else do
              goTo behind
              fail (if kind = .unterminatedString then .unterminatedString else .unexpectedKind kind))
      (match first.kind with
        | .keyword .import_ => importDeclaration more
        | .keyword .enum => enumDeclaration
        | .keyword .typedef => typedefDeclaration
        | .keyword .class_ => classDeclaration more
        | .keyword .mixin => mixinDeclaration more
        | .keyword .interface => interfaceDeclaration more
        | .keyword .funcdef => funcdefDeclaration more
        | .keyword .namespace_ => body'
        | .keyword .const | .keyword .auto | .scope => globalMember more
        | .semicolon => skip
        | kind =>
            if first.isTypeName then globalMember more
            else do
              goTo behind
              fail (if kind = .unterminatedString then .unterminatedString else .unexpectedKind kind)) := by
    have hfault (message : Message) : Persists (do goTo behind; fail message)
        (do goTo behind; fail message : Parse Unit) := by
      refine persists_of_fault fun setting session => ?_
      exact not_clean_reported setting message (behind.headD setting.finish)
        { session with ahead := behind }
    split <;> infer_instance
  exact persists_read (fun setting => hitem _) fun _ _ => rfl

instance (inBraces : Bool) :
    Persists (scriptStep room inBraces body) (scriptStep more inBraces body') := by
  have hstep (behind : List Token) : Persists
      (do
        let first := (behind.headD (← read).finish).kind
        if first.isEnd || inBraces && first = .closeBrace then return false
        recovering inBraces (scriptItem room body behind)
        return true)
      (do
        let first := (behind.headD (← read).finish).kind
        if first.isEnd || inBraces && first = .closeBrace then return false
        recovering inBraces (scriptItem more body' behind)
        return true) :=
    persists_read (fun _ => inferInstance) fun _ _ => rfl
  unfold scriptStep
  infer_instance

instance (inBraces : Bool) :
    Persists (scriptBody room inBraces body) (scriptBody more inBraces body') := by
  unfold scriptBody
  infer_instance

end

instance (room more : Nat) [hroom : Fact (room ≤ more)] :
    Persists (namespaceDeclaration room) (namespaceDeclaration more) := by
  obtain ⟨hle⟩ := hroom
  induction room generalizing more with
  | zero => exact inferInstanceAs (Persists (tooDeep .namespace_) (namespaceDeclaration more))
  | succ room ih =>
      obtain ⟨more, rfl⟩ : ∃ smaller, more = smaller + 1 := ⟨more - 1, by omega⟩
      have hroom : Fact (room ≤ more) := ⟨Nat.le_of_succ_le_succ hle⟩
      have hinner := ih more hroom.out
      exact inferInstanceAs (Persists
        (deferred fun _ => namespaceBody (scriptBody room true (namespaceDeclaration room)))
        (deferred fun _ => namespaceBody (scriptBody more true (namespaceDeclaration more))))

instance (room more : Nat) [Fact (room ≤ more)] : Persists (script room) (script more) := by
  unfold script
  infer_instance

end Grammar.Parse

/-! ## Entries -/

section

set_option synthInstance.maxSize 2000

variable {room more : Nat} [Fact (room ≤ more)]

instance : Persists expectEnd expectEnd := by
  unfold expectEnd
  infer_instance

instance : Persists Parse.template Parse.template := by
  unfold Parse.template
  infer_instance

/-- Behind the name of a property there is nothing more. -/
theorem registeredProperty_persists : PersistsUnless (fun _ => AtArguments) (registeredProperty room)
    (registeredProperty more) := by
  unfold registeredProperty
  refine .node _ (.behind fun _ => .behind fun _ => scopeOver_persists.bind
    (fun _ => Persists.unless) ?_)
  intro _ setting middle after _ _ _ hcrowded _ hnamed
  exact less_of_crowded hcrowded hnamed

/-- With more room an entry is read in the same way. -/
theorem Entry.rule_persists (entry : Entry) : Persists (entry.rule room) (entry.rule more) := by
  cases entry with
  | script => exact inferInstanceAs (Persists (Parse.script room) (Parse.script more))
  | functionSignature => exact inferInstanceAs
      (Persists (do Parse.functionSignature room; expectEnd)
        (do Parse.functionSignature more; expectEnd))
  | listFactorySignature => exact inferInstanceAs (Persists
      (do
        node .function do
          signature room
          listPattern room
        expectEnd)
      (do
        node .function do
          signature more
          listPattern more
        expectEnd))
  | expression => exact inferInstanceAs (Persists (Parse.expression (valueRules room))
      (Parse.expression (valueRules more)))
  | statementBlock start => exact inferInstanceAs (Persists (block (blockRules room))
      (block (blockRules more)))
  | initializer start => exact inferInstanceAs (Persists (Parse.initializer (valueRules room))
      (Parse.initializer (valueRules more)))
  | dataType ofReturn => exact inferInstanceAs (Persists
      (do
        node .dataType do
          Parse.dataType room { anyType := true, auto := true }
          if ofReturn then typeModifier false
        expectEnd)
      (do
        node .dataType do
          Parse.dataType more { anyType := true, auto := true }
          if ofReturn then typeModifier false
        expectEnd))
  | template => exact inferInstanceAs (Persists (do Parse.template; expectEnd)
      (do Parse.template; expectEnd))
  | property =>
      refine registeredProperty_persists.before (fun _ => inferInstance) ?_
      intro _ setting middle after _ _ _ hless _ hrun
      unfold expectEnd at hrun
      have hkind : (setting.head middle).kind = .less := hless
      rw [peek_bind, hkind] at hrun
      cases hrun

end

namespace Entry

/-- A source that is parsed without an error is parsed in the same way under any higher limit. -/
theorem parse_higher_limit (entry : Entry) {options : Options} {depth : Nat}
    (source : Source) (hle : options.maxDepth ≤ depth)
    (hclean : (entry.parse options source).diagnostics.errors = []) :
    entry.parse { options with maxDepth := depth } source = entry.parse options source := by
  have hroom : Fact (options.maxDepth ≤ depth) := ⟨hle⟩
  let setting := entry.setting options source
  let start : Session := ⟨source.tokensFrom entry.start, {}, .empty .undefined⟩
  have hended : setting.Ended := rfl
  have hreads : setting.Reads start.ahead := ⟨entry.start, rfl⟩
  have hpersists : Persists (entry.rule options.maxDepth) (entry.rule depth) := entry.rule_persists
  obtain ⟨value, after, hrun, -, hnever | ⟨reports, hreports, hsame⟩⟩ :=
    (hpersists.always setting start).lasts hended hreads hclean
  · exact hnever.elim
  · have hsession : entry.session options source = after := congrArg Prod.snd hrun
    have hlimited : entry.session { options with maxDepth := depth } source = after := by
      have hhigh := congrArg Prod.snd (hsame depth start.diagnostics)
      rw [← hreports] at hhigh
      exact hhigh
    unfold parse
    rw [hlimited, hsession]

/-- With two levels a list inside another one is nested too deeply. -/
theorem parse_higher_limit_nestedTemplate :
    let source : Source := ['{', 'A', '<', 'A', '<', 'i', 'n', 't', '>', '>', 'b', ';', '}']
    let limited (depth : Nat) :=
      (statementBlock 0).parse { templateTypes := ["A"], maxDepth := depth } source
    (limited 2).diagnostics.errors.length = 1 ∧ (limited 3).diagnostics.errors = [] ∧
      limited 256 = limited 3 := by
  intro source limited
  have hclean : (limited 3).diagnostics.errors = [] := by decide +kernel
  have hsame := @parse_higher_limit (statementBlock 0) { templateTypes := ["A"], maxDepth := 3 } 256
    source (by decide) hclean
  exact ⟨by decide +kernel, hclean, hsame⟩

end Entry

end ScriptSyntax
