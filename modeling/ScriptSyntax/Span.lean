/-!
# Spans

A span is a pair of byte offsets, the end excluded.  Nothing asks the two to be in order: an
inverted span has length zero.
-/

namespace ScriptSyntax

structure Span where
  start : Nat
  stop : Nat
  deriving DecidableEq

namespace Span

/-- The span of `length` bytes from `start` on. -/
def ofLength (start length : Nat) : Span :=
  ⟨start, start + length⟩

def length (span : Span) : Nat :=
  span.stop - span.start

def isEmpty (span : Span) : Bool :=
  span.length = 0

/-- The least span that covers both. -/
def hull (first second : Span) : Span :=
  ⟨min first.start second.start, max first.stop second.stop⟩

/-- The span that carries no position. -/
def nowhere : Span :=
  ⟨0, 0⟩

theorem hull_self (span : Span) : span.hull span = span := by
  simp [hull]

theorem hull_comm (first second : Span) : first.hull second = second.hull first := by
  simp [hull, Nat.min_comm, Nat.max_comm]

theorem hull_assoc (first second third : Span) :
    (first.hull second).hull third = first.hull (second.hull third) := by
  simp [hull, Nat.min_assoc, Nat.max_assoc]

end Span

end ScriptSyntax
