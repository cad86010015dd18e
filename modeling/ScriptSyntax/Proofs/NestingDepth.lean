import ScriptSyntax.Proofs.NestingCounter.Statement
import ScriptSyntax.Proofs.TreeHeight

/-!
# How deep a parse goes

What is parsed on its own comes back from every level that it has gone into, and the tree that it
builds is no higher than some nodes for each level.
-/

namespace ScriptSyntax

open Grammar

namespace Grammar.Counted

open Parse

def registeredProperty (fuel : Nat) : Counted Unit :=
  node .declaration do
    dataType fuel {}
    markIf .ampersand
    scope fuel
    identifier

instance {depth room fuel : Nat} [Fact (room < fuel)] :
    Counts depth room (registeredProperty fuel) (Parse.registeredProperty room) := by
  unfold registeredProperty Parse.registeredProperty
  infer_instance

end Grammar.Counted

namespace Entry

open Grammar.Parse

/-- What is parsed on its own, with counted levels. -/
def countedRule (fuel : Nat) : (entry : Entry) → entry ≠ script → Counted Unit
  | script, hentry => absurd rfl hentry
  | functionSignature, _ => do
      Counted.functionSignature fuel
      expectEnd
  | listFactorySignature, _ => do
      Counted.node .function do
        Counted.signature fuel
        Counted.listPattern fuel
      expectEnd
  | expression, _ => Counted.expression (Counted.valueRules fuel)
  | statementBlock _, _ => Counted.block (Counted.blockRules fuel)
  | initializer _, _ => Counted.initializer (Counted.valueRules fuel)
  | dataType ofReturn, _ => do
      Counted.node .dataType do
        Counted.dataType fuel { anyType := true, auto := true }
        if ofReturn then typeModifier false
      expectEnd
  | template, _ => do
      Parse.template
      expectEnd
  | property, _ => do
      Counted.registeredProperty fuel
      expectEnd

/-- The rule for an entry does what the grammar says, and comes back to the depth where it
started. -/
theorem counts_countedRule {entry : Entry} (hentry : entry ≠ script) {depth room fuel : Nat}
    (hfuel : room < fuel) : Counted.Counts depth room (entry.countedRule fuel hentry) (entry.rule room) := by
  have hroom : Fact (room < fuel) := ⟨hfuel⟩
  have hvalueRoom := Counted.enough_valueRules hfuel
  have hvalues : Counted.ValuesCount depth (Counted.valueRules fuel) (valueRules room) :=
    Counted.valuesCount_valueRules hfuel
  cases entry with
  | script => exact absurd rfl hentry
  | expression =>
      have hexpression : Counted.Counts depth (valueRules room).room
        (Counted.expression (Counted.valueRules fuel)) (Parse.expression (valueRules room)) :=
        inferInstance
      rwa [valueRules_room] at hexpression
  | initializer start =>
      have hinitializer : Counted.Counts depth (valueRules room).room
        (Counted.initializer (Counted.valueRules fuel)) (Parse.initializer (valueRules room)) :=
        inferInstance
      rwa [valueRules_room] at hinitializer
  | statementBlock start =>
      have hblockRoom := Counted.enough_blockRules hfuel
      have hblocks : Counted.BlocksCount depth (Counted.blockRules fuel) (blockRules room) :=
        Counted.blocksCount_blockRules hfuel
      have hblock : Counted.Counts depth (blockRules room).room
        (Counted.block (Counted.blockRules fuel)) (Parse.block (blockRules room)) := inferInstance
      rwa [blockRules_room] at hblock
  | _ =>
      unfold countedRule rule
      infer_instance

/-- What is parsed on its own by a parser that counts levels, from none on. -/
def countedSession (entry : Entry) (hentry : entry ≠ script) (fuel : Nat) (options : Options)
    (source : Source) : Counting Session :=
  (entry.countedRule fuel hentry (entry.setting options source)
    ⟨⟨source.tokensFrom entry.start, {}, .empty .undefined⟩, 0⟩).2

/-- A parser that counts levels reports and builds what the grammar says and is inside no level when
it is done.  No path down the tree has more than sixteen nodes for each level and for the first. -/
theorem parse_depth (entry : Entry) (hentry : entry ≠ script) (options : Options) (source : Source)
    (fuel : Nat) (hfuel : options.maxDepth < fuel) :
    let counted := entry.countedSession hentry fuel options source
    counted.depth = 0 ∧ counted.state = entry.session options source ∧
      ∀ path : List Node, let root := (entry.parse options source).root
        (root :: path).IsChain (fun parent child => child ∈ parent.children) →
        (root :: path).length ≤ 16 * (options.maxDepth + 1) := by
  intro counted
  have hcounts : Counted.Counts 0 options.maxDepth _ _ := counts_countedRule hentry hfuel
  have hrun := hcounts.run (entry.setting options source)
    ⟨source.tokensFrom entry.start, {}, .empty .undefined⟩ (Nat.zero_add _).symm
  have hcounted : counted = ⟨entry.session options source, 0⟩ := congrArg Prod.snd hrun
  refine ⟨by rw [hcounted], by rw [hcounted], ?_⟩
  intro path root hchain
  calc (root :: path).length
      ≤ root.height := Node.length_le_height hchain
    _ ≤ 8 * options.maxDepth + 7 := Entry.height_le hentry options source
    _ ≤ 16 * (options.maxDepth + 1) := by omega

/-- Three blocks inside one another where there is room for one. -/
theorem parse_depth_blocks :
    let source : Source := ['{', '{', '{', '}', '}', '}']
    let options : Options := { maxDepth := 1 }
    let entry := statementBlock 0
    let counted := entry.countedSession (by decide) 2 options source
    (entry.parse options source).diagnostics.errors.length = 1 ∧ counted.depth = 0 ∧
      counted.state = entry.session options source ∧
      ∀ path : List Node, let root := (entry.parse options source).root
        (root :: path).IsChain (fun parent child => child ∈ parent.children) →
        (root :: path).length ≤ 32 := by
  intro source options entry counted
  have hentry : entry ≠ script := by decide
  have hfuel : options.maxDepth < 2 := by decide
  exact ⟨by decide +kernel, parse_depth entry hentry options source 2 hfuel⟩

end Entry

end ScriptSyntax
