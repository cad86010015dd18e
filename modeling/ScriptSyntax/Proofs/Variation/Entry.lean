import ScriptSyntax.Entry
import ScriptSyntax.Proofs.Comparison.Entry
import ScriptSyntax.Proofs.Variation.Declaration
import ScriptSyntax.Proofs.Variation.Statement

/-!
# Entries under two options

The entries that read no values only need the two sides to agree where their room is the same.
-/

namespace ScriptSyntax

/-- Whether the entry reads values, which may hold arguments. -/
def Entry.readsValues : Entry → Bool
  | .expression | .statementBlock _ | .initializer _ => true
  | _ => false

namespace Grammar.Variation

open Parse

set_option synthInstance.maxSize 20000

variable {V : Variation} {bound room : Nat}

instance : V.Agrees bound expectEnd expectEnd := by
  unfold expectEnd
  infer_instance

instance : V.Agrees bound Parse.template Parse.template :=
  .node (by decide) inferInstance

instance [Fact V.level] : V.Agrees bound (registeredProperty room) (registeredProperty room) :=
  .node (by decide) inferInstance

theorem agrees_declaring [Fact V.level] (entry : Entry) (hentry : entry.readsValues = false) :
    V.Agrees bound (entry.rule room) (entry.rule room) := by
  have hfunction : Fact (NodeKind.function ≠ .namedArgument) := ⟨by decide⟩
  have htype : Fact (NodeKind.dataType ≠ .namedArgument) := ⟨by decide⟩
  cases entry
  case expression => cases hentry
  case statementBlock => cases hentry
  case initializer => cases hentry
  all_goals
    unfold Entry.rule
    infer_instance

theorem agrees_valued [V.ArgumentsAgree] (hrooms : V.Rooms (bound + 1) 2 room room) (entry : Entry)
    (hentry : entry.readsValues = true) :
    V.Agrees (bound + 1) (entry.rule room) (entry.rule room) := by
  have hlevel : V.LevelAgrees bound (valueRules room) (valueRules room) :=
    levelAgrees (hrooms.le (by omega))
  have hblock := blockAgrees hrooms
  cases entry
  case expression | statementBlock | initializer =>
    unfold Entry.rule
    infer_instance
  all_goals cases hentry

theorem agrees_entry [hlevel : Fact V.level] [V.ArgumentsAgree] (entry : Entry) :
    V.Agrees bound (entry.rule room) (entry.rule room) := by
  cases hentry : entry.readsValues with
  | true => exact (agrees_valued (.inl ⟨hlevel.out, rfl⟩) entry hentry).lower
  | false => exact agrees_declaring entry hentry

end Grammar.Variation

end ScriptSyntax
