import Mathlib.Logic.Basic
import ScriptSyntax.Proofs.Scanning

/-!
# Counting levels

The rules of the grammar are handed the room that is left for them.  A parser may just as well count
the levels that it is inside: it adds one where it goes a level further in, takes it off where it comes
back, and reports an error where the count has reached the limit.  Here is such a parser, and what
makes it do the same: its rules are built like those of the grammar, and each of them takes off what
it has added, also where an error stops it.

The rules of the grammar are over a monad without a count, so that nothing else that is proved of them
has to speak of one.  Each counted rule is stated next to its `Counts` instance, which ties it to the
rule of the grammar with the same name: where only one of the two is changed, the instance fails.
-/

namespace ScriptSyntax.Grammar

/-- A state, and the number of levels that the parser is inside. -/
structure Counting (σ : Type) where
  state : σ
  depth : Nat

/-- A scan that counts levels. -/
abbrev CountedScan := ReaderT Setting (OptionT (StateM (Counting (List Token))))

/-- A grammar rule that counts levels. -/
abbrev Counted := ReaderT Setting (ExceptT Interruption (StateM (Counting Session)))

variable {α β σ ρ : Type}

/-- One level further in, unless the limit is reached. -/
def oneLevelIn (exceeded body : Setting → Counting σ → ρ × Counting σ) :
    Setting → Counting σ → ρ × Counting σ := fun setting counting =>
  if setting.options.maxDepth ≤ counting.depth then exceeded setting counting
  else
    let (result, after) := body setting { counting with depth := counting.depth + 1 }
    (result, { after with depth := after.depth - 1 })

section

variable {exceeded body : Setting → Counting σ → ρ × Counting σ} {setting : Setting}
  {state after : σ} {result : ρ} {depth : Nat}

theorem oneLevelIn_deep (h : setting.options.maxDepth ≤ depth) :
    oneLevelIn exceeded body setting ⟨state, depth⟩ = exceeded setting ⟨state, depth⟩ :=
  if_pos h

theorem oneLevelIn_run (h : depth < setting.options.maxDepth)
    (hbody : body setting ⟨state, depth + 1⟩ = (result, ⟨after, depth + 1⟩)) :
    oneLevelIn exceeded body setting ⟨state, depth⟩ = (result, ⟨after, depth⟩) := by
  unfold oneLevelIn
  rw [if_neg (Nat.not_le_of_lt h), hbody]
  rfl

end

/-! ## Scans -/

namespace CountedScan

def ofScan (scan : Scan α) : CountedScan α := fun setting counting =>
  match (scan setting).run counting.state with
  | some (value, behind) => (some value, { counting with state := behind })
  | none => (none, counting)

instance : MonadLift Scan CountedScan :=
  ⟨ofScan⟩

def nested (body : CountedScan Unit) : CountedScan Unit :=
  oneLevelIn (failure : CountedScan Unit) body

/-- Whether the scan succeeds; if it fails, the tokens ahead are as before. -/
def passes (scan : CountedScan Unit) : CountedScan Bool := fun setting counting =>
  match scan setting counting with
  | (some _, after) => (some true, after)
  | (none, after) => (some false, { counting with depth := after.depth })

def repeatUpTo : Nat → CountedScan Bool → CountedScan Unit
  | 0, _ => return
  | count + 1, body => do
      if ← body then repeatUpTo count body

def repeatScan (body : CountedScan Bool) : CountedScan Unit := do
  repeatUpTo (byteCount (← (get : Scan (List Token))) + 1) body

/-- How a scan ends that counts levels: where the other one does, at the depth where it started. -/
def EndsAt (depth : Nat) (seen : Option (α × List Token))
    (result : Option α × Counting (List Token)) : Prop :=
  match seen with
  | some (value, behind) => result = (some value, ⟨behind, depth⟩)
  | none => ∃ lost, result = (none, ⟨lost, depth⟩)

/-- At the depth the counted scan does what the other one does that knows the room that is left. -/
class Counts (depth room : Nat) (counted : CountedScan α) (scan : Scan α) : Prop where
  ends : ∀ setting tokens, setting.options.maxDepth = depth + room →
    EndsAt depth ((scan setting).run tokens) (counted setting ⟨tokens, depth⟩)

variable {depth room : Nat} {counted counted' : CountedScan α} {scan scan' : Scan α}
  {next : α → CountedScan β} {next' : α → Scan β}

instance (scan : Scan α) : Counts depth room (liftM scan) scan := by
  refine ⟨fun setting tokens _ => ?_⟩
  change EndsAt depth _ (ofScan scan setting ⟨tokens, depth⟩)
  unfold ofScan
  cases (scan setting).run tokens with
  | some seen => rfl
  | none => exact ⟨tokens, rfl⟩

instance (value : α) : Counts depth room (pure value) (pure value) :=
  ⟨fun _ _ _ => rfl⟩

instance : Counts depth room (failure : CountedScan α) failure :=
  ⟨fun _ tokens _ => ⟨tokens, rfl⟩⟩

instance : Counts depth room (read : CountedScan Setting) read :=
  ⟨fun _ _ _ => rfl⟩

theorem bind_run (counted : CountedScan α) (next : α → CountedScan β) (setting : Setting)
    (counting : Counting (List Token)) :
    (counted >>= next) setting counting =
      match counted setting counting with
      | (some value, after) => next value setting after
      | (none, after) => (none, after) := by
  change (match (counted setting counting).1 with
    | some value => next value setting
    | none => (pure none : StateM _ (Option β))) (counted setting counting).2 = _
  rcases counted setting counting with ⟨_ | value, after⟩ <;> rfl

theorem Counts.bind (hcounted : Counts depth room counted scan)
    (hnext : ∀ value, Counts depth room (next value) (next' value)) :
    Counts depth room (counted >>= next) (scan >>= next') := by
  refine ⟨fun setting tokens hdepth => ?_⟩
  have hends := hcounted.ends setting tokens hdepth
  rw [bind_run]
  change EndsAt depth (((scan setting).run tokens).bind _) _
  cases hrun : (scan setting).run tokens with
  | some seen =>
      rw [hrun] at hends
      have hends : counted setting ⟨tokens, depth⟩ = _ := hends
      rw [hends]
      exact (hnext seen.1).ends setting seen.2 hdepth
  | none =>
      rw [hrun] at hends
      obtain ⟨lost, hlost⟩ := hends
      rw [hlost]
      exact ⟨lost, rfl⟩

instance [Counts depth room counted scan]
    [∀ value, Counts depth room (next value) (next' value)] :
    Counts depth room (counted >>= next) (scan >>= next') :=
  .bind inferInstance inferInstance

instance (condition : Prop) [Decidable condition] [hcounted : Counts depth room counted scan]
    [hcounted' : Counts depth room counted' scan'] :
    Counts depth room (if condition then counted else counted')
      (if condition then scan else scan') := by
  split
  · exact hcounted
  · exact hcounted'

theorem counts_nested_zero (body : CountedScan Unit) : Counts depth 0 (nested body) failure := by
  refine ⟨fun setting tokens hdepth => ⟨tokens, ?_⟩⟩
  exact oneLevelIn_deep (Nat.le_of_eq hdepth)

theorem counts_nested_succ {body : CountedScan Unit} {scan : Scan Unit}
    (hbody : Counts (depth + 1) room body scan) : Counts depth (room + 1) (nested body) scan := by
  refine ⟨fun setting tokens hdepth => ?_⟩
  have hends := hbody.ends setting tokens (by omega)
  have hlt : depth < setting.options.maxDepth := by omega
  cases hrun : (scan setting).run tokens with
  | some seen =>
      rw [hrun] at hends
      exact oneLevelIn_run hlt hends
  | none =>
      rw [hrun] at hends
      obtain ⟨lost, hlost⟩ := hends
      exact ⟨lost, oneLevelIn_run hlt hlost⟩

instance {counted : CountedScan Unit} {scan : Scan Unit} [h : Counts depth room counted scan] :
    Counts depth room (passes counted) (Scan.passes scan) := by
  refine ⟨fun setting tokens hdepth => ?_⟩
  have hends := h.ends setting tokens hdepth
  unfold passes
  rw [Scan.passes_run]
  cases hrun : (scan setting).run tokens with
  | some seen =>
      rw [hrun] at hends
      have hends : counted setting ⟨tokens, depth⟩ = _ := hends
      rw [hends]
      rfl
  | none =>
      rw [hrun] at hends
      obtain ⟨lost, hlost⟩ := hends
      rw [hlost]
      rfl

theorem counts_repeatUpTo {counted : CountedScan Bool} {scan : Scan Bool}
    [Counts depth room counted scan] (count : Nat) :
    Counts depth room (repeatUpTo count counted) (Scan.repeatUpTo count scan) := by
  induction count with
  | zero => exact inferInstanceAs (Counts depth room (pure ()) (pure ()))
  | succ count ih =>
      unfold repeatUpTo Scan.repeatUpTo
      infer_instance

instance {counted : CountedScan Bool} {scan : Scan Bool} [Counts depth room counted scan] :
    Counts depth room (repeatScan counted) (Scan.repeatScan scan) := by
  have hloop (count : Nat) := @counts_repeatUpTo depth room counted scan _ count
  unfold repeatScan Scan.repeatScan
  infer_instance

end CountedScan

/-! ## Rules -/

namespace Counted

open Parse

def ofRule (rule : Parse α) : Counted α := fun setting counting =>
  let (result, after) := rule setting counting.state
  (result, { counting with state := after })

instance : MonadLift Parse Counted :=
  ⟨ofRule⟩

/-- One level further in; what stands for a construct that is nested too deeply is given. -/
def nested (exceeded : Parse Unit) (body : Counted Unit) : Counted Unit :=
  oneLevelIn (ofRule exceeded) body

def node (kind : NodeKind) (rule : Counted α) : Counted α := fun setting counting =>
  let (result, inner) := rule setting
    { counting with state := { counting.state with building := .empty kind } }
  (result, { inner with
    state := { inner.state with building := counting.state.building.append inner.state.building } })

def deferred (rule : Unit → Counted α) : Counted α := fun setting =>
  rule () setting

def attempt (rule : Counted α) : Counted (Option α) :=
  try return some (← rule) catch _ => return none

def repeatUpTo : Nat → Counted Bool → Counted Unit
  | 0, _ => return
  | count + 1, body => do
      if ← body then repeatUpTo count body

def repeatRule (body : Counted Bool) : Counted Unit := do
  repeatUpTo (byteCount (← ahead) + 1) body

def commaSeparated (item : Counted Unit) : Counted Unit :=
  repeatRule do
    item
    if ← nextIs .comma then
      skip
      return true
    else return false

def whileNext (test : Token → Bool) (rule : Counted Unit) : Counted Unit :=
  repeatRule do
    if test (← peek) then
      rule
      return true
    else return false

/-- Where a scan ends; what it has done to the count stays. -/
def tokensBehind (scan : CountedScan Unit) : Counted (Option (List Token)) :=
  fun setting counting =>
    let (result, after) := scan setting { counting with state := counting.state.ahead }
    (.ok (result.map fun _ => after.state), { counting with depth := after.depth })

def sees (scan : CountedScan Unit) : Counted Bool := do
  return (← tokensBehind scan).isSome

/-- At the depth the counted rule does what the other one does that knows the room that is left, and
it comes back to the depth. -/
class Counts (depth room : Nat) (counted : Counted α) (rule : Parse α) : Prop where
  run : ∀ setting session, setting.options.maxDepth = depth + room →
    counted setting ⟨session, depth⟩ =
      ((rule setting session).1, ⟨(rule setting session).2, depth⟩)

variable {depth room : Nat} {counted counted' : Counted α} {rule rule' : Parse α}
  {next : α → Counted β} {next' : α → Parse β}

instance (rule : Parse α) : Counts depth room (liftM rule) rule :=
  ⟨fun _ _ _ => rfl⟩

instance (value : α) : Counts depth room (pure value) (pure value) :=
  ⟨fun _ _ _ => rfl⟩

instance : Counts depth room (read : Counted Setting) read :=
  ⟨fun _ _ _ => rfl⟩

theorem bind_run (counted : Counted α) (next : α → Counted β) (setting : Setting)
    (counting : Counting Session) :
    (counted >>= next) setting counting =
      match counted setting counting with
      | (.ok value, after) => next value setting after
      | (.error interruption, after) => (.error interruption, after) := by
  simp only [bind, ReaderT.bind, ExceptT.bind, ExceptT.mk, StateT.bind]
  rcases counted setting counting with ⟨_ | value, after⟩ <;> rfl

theorem Counts.bind (hcounted : Counts depth room counted rule)
    (hnext : ∀ value, Counts depth room (next value) (next' value)) :
    Counts depth room (counted >>= next) (rule >>= next') := by
  refine ⟨fun setting session hdepth => ?_⟩
  rw [bind_run, hcounted.run setting session hdepth, Parse.bind_run]
  rcases rule setting session with ⟨_ | value, after⟩
  · rfl
  · exact (hnext value).run setting after hdepth

instance [Counts depth room counted rule]
    [∀ value, Counts depth room (next value) (next' value)] :
    Counts depth room (counted >>= next) (rule >>= next') :=
  .bind inferInstance inferInstance

instance (condition : Prop) [Decidable condition] [hcounted : Counts depth room counted rule]
    [hcounted' : Counts depth room counted' rule'] :
    Counts depth room (if condition then counted else counted')
      (if condition then rule else rule') := by
  split
  · exact hcounted
  · exact hcounted'

theorem counts_nested_zero (exceeded : Parse Unit) (body : Counted Unit) :
    Counts depth 0 (nested exceeded body) exceeded :=
  ⟨fun _ _ hdepth => oneLevelIn_deep (Nat.le_of_eq hdepth)⟩

theorem counts_nested_succ {exceeded rule : Parse Unit} {body : Counted Unit}
    (hbody : Counts (depth + 1) room body rule) :
    Counts depth (room + 1) (nested exceeded body) rule :=
  ⟨fun setting session hdepth =>
    oneLevelIn_run (by omega) (hbody.run setting session (by omega))⟩

instance (counted : Unit → Counted α) (rule : Unit → Parse α)
    [h : Counts depth room (counted ()) (rule ())] :
    Counts depth room (deferred counted) (Parse.deferred rule) :=
  ⟨h.run⟩

theorem Counts.node (kind : NodeKind) (h : Counts depth room counted rule) :
    Counts depth room (node kind counted) (Parse.node kind rule) := by
  refine ⟨fun setting session hdepth => ?_⟩
  unfold Counted.node
  rw [h.run setting _ hdepth]
  rfl

instance (kind : NodeKind) [Counts depth room counted rule] :
    Counts depth room (node kind counted) (Parse.node kind rule) :=
  .node kind inferInstance

theorem attempt_run (counted : Counted α) (setting : Setting) (counting : Counting Session) :
    attempt counted setting counting =
      match counted setting counting with
      | (.ok value, after) => (.ok (some value), after)
      | (.error _, after) => (.ok none, after) := by
  simp only [attempt, tryCatch, tryCatchThe, MonadExceptOf.tryCatch,
    ExceptT.tryCatch, bind, ReaderT.bind, ExceptT.bind, ExceptT.mk, StateT.bind]
  rcases counted setting counting with ⟨_ | _, _⟩ <;> rfl

instance [h : Counts depth room counted rule] :
    Counts depth room (attempt counted) (Parse.attempt rule) := by
  refine ⟨fun setting session hdepth => ?_⟩
  rw [attempt_run, h.run setting session hdepth, Parse.attempt_run]
  rcases rule setting session with ⟨_ | value, after⟩ <;> rfl

theorem counts_repeatUpTo {counted : Counted Bool} {rule : Parse Bool} [Counts depth room counted rule]
    (count : Nat) : Counts depth room (repeatUpTo count counted) (Parse.repeatUpTo count rule) := by
  induction count with
  | zero => exact inferInstanceAs (Counts depth room (pure ()) (pure ()))
  | succ count ih =>
      unfold repeatUpTo Parse.repeatUpTo
      infer_instance

instance {counted : Counted Bool} {rule : Parse Bool} [Counts depth room counted rule] :
    Counts depth room (repeatRule counted) (Parse.repeatRule rule) := by
  have hloop (count : Nat) := @counts_repeatUpTo depth room counted rule _ count
  unfold repeatRule Parse.repeatRule
  infer_instance

instance {counted : Counted Unit} {rule : Parse Unit} [Counts depth room counted rule] :
    Counts depth room (commaSeparated counted) (Parse.commaSeparated rule) := by
  unfold commaSeparated Parse.commaSeparated
  infer_instance

instance (test : Token → Bool) {counted : Counted Unit} {rule : Parse Unit}
    [Counts depth room counted rule] :
    Counts depth room (whileNext test counted) (Parse.whileNext test rule) := by
  unfold whileNext Parse.whileNext
  infer_instance

section

variable {counted : CountedScan Unit} {scan : Scan Unit} [h : CountedScan.Counts depth room counted scan]

include h

theorem tokensBehind_run {setting : Setting} (hdepth : setting.options.maxDepth = depth + room)
    (session : Session) :
    tokensBehind counted setting ⟨session, depth⟩ =
      (.ok (((scan setting).run session.ahead).map (·.2)), ⟨session, depth⟩) := by
  have hends := h.ends setting session.ahead hdepth
  unfold tokensBehind
  cases hrun : (scan setting).run session.ahead with
  | some seen =>
      rw [hrun] at hends
      have hends : counted setting ⟨session.ahead, depth⟩ = _ := hends
      rw [hends]
      rfl
  | none =>
      rw [hrun] at hends
      obtain ⟨lost, hlost⟩ := hends
      rw [hlost]
      rfl

instance : Counts depth room (tokensBehind counted) (Parse.tokensBehind scan) :=
  ⟨fun _ session hdepth => tokensBehind_run hdepth session⟩

instance : Counts depth room (sees counted) (Parse.sees scan) := by
  refine ⟨fun setting session hdepth => ?_⟩
  have hbehind : tokensBehind counted setting ⟨session, depth⟩ =
      (.ok (((scan setting).run session.ahead).map (·.2)), ⟨session, depth⟩) :=
    tokensBehind_run hdepth session
  unfold sees
  rw [bind_run, hbehind]
  exact congrArg (fun seen => (Except.ok seen, Counting.mk session depth)) Option.isSome_map

end

end Counted

end ScriptSyntax.Grammar
