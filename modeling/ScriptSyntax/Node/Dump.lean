import ScriptSyntax.Node
import ScriptSyntax.Text.Quoted

/-!
# Tree dumps

One line for each node, in the order of the outline, indented by two blanks for each level.  A line
names the kind and the span, and quotes the text of a leaf.
-/

namespace ScriptSyntax.Node

def spanLabel (source : Source) (node : Node) : List Char :=
  match node.span with
  | none => []
  | some span =>
      s!"@{span.start}..{span.stop}".toList ++
        if node.children.isEmpty then ' ' :: Text.quote (node.text source) else []

def dumpLine (source : Source) (depth : Nat) (node : Node) : List Char :=
  List.replicate (2 * depth) ' ' ++ node.kind.name.toList ++ node.spanLabel source ++ ['\n']

def dump (source : Source) (node : Node) : List Char :=
  (node.outline 0).flatMap fun (depth, inner) => dumpLine source depth inner

end ScriptSyntax.Node
