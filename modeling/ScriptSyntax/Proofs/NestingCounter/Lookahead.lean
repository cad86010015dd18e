import ScriptSyntax.Proofs.NestingCounter

/-!
# Looking ahead and counting levels

A scan counts the lists of template arguments that it is inside, on top of the levels of the rule
that asks.
-/

namespace ScriptSyntax.Grammar.CountedScan

open Scan

/-- One template argument; says whether another one follows. -/
def templateArgument (templateList : Token → CountedScan Unit) : CountedScan Bool := do
  skipKind .const
  skipKind .scope
  (modify skipScopes : Scan Unit)
  let name ← next
  if !name.isTypeName then failure
  templateList name
  update skipArgumentSuffixes?
  if (← peek).kind = .comma then
    skip
    return true
  else return false

/-- Past the template arguments of a name, one level further in.  Lists nest no deeper than there is
`fuel`. -/
def templateList : Nat → Token → CountedScan Unit
  | 0, _ => failure
  | fuel + 1, name => do
      if (← read).isTemplateName name && (← peek).kind = .less then
        nested do
          skip
          repeatScan (templateArgument (templateList fuel))
          update (← read).afterGreater?

def scopedName (fuel : Nat) : Nat → CountedScan Token
  | 0 => next
  | count + 1 => do
      let name ← next
      if !name.kind.isIdentifier then return name
      if (← peek).kind = .scope then
        skip
        scopedName fuel count
      else if ← passes (do templateList fuel name; require .scope) then
        scopedName fuel count
      else return name

def typeAhead (fuel : Nat) : CountedScan Unit := do
  skipKind .const
  let name ←
    if (← peek).kind = .keyword .auto then (next : CountedScan Token)
    else do
      skipKind .scope
      scopedName fuel (byteCount (← (get : Scan (List Token))) + 1)
  if !(name.isTypeName || name.kind = .keyword .auto) then failure
  templateList fuel name
  update skipSuffixes?

def templateScopeAhead (fuel : Nat) : CountedScan Unit := do
  let name ← next
  if !((← read).isTemplateName name && (← peek).kind = .less) then failure
  templateList fuel name
  require .scope

def scopeAhead (fuel : Nat) : CountedScan Unit := do
  let start ← (get : Scan (List Token))
  let first ← next
  if first.kind = .scope then return
  if first.kind.isIdentifier && (← peek).kind = .scope then return
  (set start : Scan Unit)
  templateScopeAhead fuel

def typedListAhead (fuel : Nat) : CountedScan Unit := do
  let name ← next
  if !name.isTypeName then failure
  templateList fuel name
  require .assign
  require .openBrace

def variableAhead (fuel : Nat) : CountedScan Unit := do
  skipIf Token.isAccessModifier
  typeAhead fuel
  requireIdentifier
  match (← next).kind with
  | .assign | .semicolon | .comma => return
  | .openParen =>
      update (skipGroup? 0)
      let after := (← peek).kind
      if after = .openBrace || after.isIdentifier || after.isEnd then failure
  | _ => failure

/-! ## What the counted scans do -/

section

set_option synthInstance.maxSize 2000

variable {depth room fuel : Nat}

instance (counted : Token → CountedScan Unit) (scan : Token → Scan Unit)
    [∀ name, Counts depth room (counted name) (scan name)] :
    Counts depth room (templateArgument counted) (Grammar.templateArgument scan) := by
  unfold templateArgument Grammar.templateArgument
  infer_instance

theorem counts_templateList (hfuel : room < fuel) (name : Token) :
    Counts depth room (templateList fuel name) (Grammar.templateList room name) := by
  induction room generalizing depth fuel name with
  | zero =>
      obtain ⟨fuel, rfl⟩ : ∃ less, fuel = less + 1 := ⟨fuel - 1, by omega⟩
      have hdeep (body : CountedScan Unit) : Counts depth 0 (nested body) failure :=
        counts_nested_zero body
      unfold templateList Grammar.templateList
      infer_instance
  | succ room ih =>
      obtain ⟨fuel, rfl⟩ : ∃ less, fuel = less + 1 := ⟨fuel - 1, by omega⟩
      have hlist (name : Token) : Counts (depth + 1) room (templateList fuel name)
          (Grammar.templateList room name) := ih (by omega) name
      have hnested : Counts depth (room + 1)
          (nested do
            skip
            repeatScan (templateArgument (templateList fuel))
            update (← read).afterGreater?)
          (do
            Scan.skip
            Scan.repeatScan (Grammar.templateArgument (Grammar.templateList room))
            update (← read).afterGreater?) :=
        counts_nested_succ inferInstance
      unfold templateList Grammar.templateList
      infer_instance

variable [hfuel : Fact (room < fuel)]

instance (name : Token) : Counts depth room (templateList fuel name)
    (Grammar.templateList room name) :=
  counts_templateList hfuel.out name

instance (count : Nat) : Counts depth room (scopedName fuel count)
    (Grammar.scopedName room count) := by
  induction count with
  | zero => exact inferInstanceAs (Counts depth room (liftM next) next)
  | succ count ih =>
      unfold scopedName Grammar.scopedName
      infer_instance

instance : Counts depth room (typeAhead fuel) (Grammar.typeAhead room) := by
  unfold typeAhead Grammar.typeAhead
  infer_instance

instance : Counts depth room (templateScopeAhead fuel) (Grammar.templateScopeAhead room) := by
  unfold templateScopeAhead Grammar.templateScopeAhead
  infer_instance

instance : Counts depth room (scopeAhead fuel) (Grammar.scopeAhead room) := by
  unfold scopeAhead Grammar.scopeAhead
  infer_instance

instance : Counts depth room (typedListAhead fuel) (Grammar.typedListAhead room) := by
  unfold typedListAhead Grammar.typedListAhead
  infer_instance

instance : Counts depth room (variableAhead fuel) (Grammar.variableAhead room) := by
  have hbehind (kind : TokenKind) : Counts depth room
      (match kind with
        | .assign | .semicolon | .comma => (return : CountedScan Unit)
        | .openParen => do
            update (skipGroup? 0)
            let after := (← peek).kind
            if after = .openBrace || after.isIdentifier || after.isEnd then failure
        | _ => failure)
      (match kind with
        | .assign | .semicolon | .comma => return
        | .openParen => do
            update (skipGroup? 0)
            let after := (← peek).kind
            if after = .openBrace || after.isIdentifier || after.isEnd then failure
        | _ => failure) := by
    split <;> infer_instance
  unfold variableAhead Grammar.variableAhead
  infer_instance

end

end ScriptSyntax.Grammar.CountedScan
