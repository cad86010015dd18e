import ScriptSyntax.Source

/-!
# Rows and columns

The row of an offset is one more than the number of line breaks before it; its column counts the
bytes from the last of them, starting at one.  Offsets and columns are machine words, and the column
of the greatest offset of all need not fit in one.
-/

namespace ScriptSyntax

/-- How many values a machine word has. -/
def wordSize : Nat :=
  UInt64.size

/-- The offsets just after each line break, in order. -/
structure LineIndex where
  lineStarts : List Nat
  deriving DecidableEq

namespace LineIndex

def startsAfter : Nat → Source → List Nat
  | _, [] => []
  | offset, c :: rest =>
      let after := offset + c.utf8Size
      if c = '\n' then after :: startsAfter after rest else startsAfter after rest

def ofSource (source : Source) : LineIndex :=
  ⟨startsAfter 0 source⟩

def row (lines : LineIndex) (offset : Nat) : Nat :=
  lines.lineStarts.countP (· ≤ offset) + 1

/-- Where the line of an offset starts. -/
def lineStart (lines : LineIndex) (offset : Nat) : Nat :=
  ((lines.lineStarts.filter (· ≤ offset)).getLast?).getD 0

/-- The column as a number. -/
def exactColumn (lines : LineIndex) (offset : Nat) : Nat :=
  offset - lines.lineStart offset + 1

/-- The column as a machine word: a sum that does not fit wraps around. -/
def column (lines : LineIndex) (offset : Nat) : Nat :=
  lines.exactColumn offset % wordSize

/-- The column does not fit in a machine word.  Where sums are checked, the run stops here. -/
def Overflows (lines : LineIndex) (offset : Nat) : Prop :=
  wordSize ≤ lines.exactColumn offset

instance (lines : LineIndex) (offset : Nat) : Decidable (lines.Overflows offset) :=
  inferInstanceAs (Decidable (wordSize ≤ lines.exactColumn offset))

end LineIndex

end ScriptSyntax
