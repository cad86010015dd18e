import ScriptSyntax.Grammar.Parse

/-!
# Recovery

After a syntax error the text is passed over up to a place where reading can go on: behind the next
semicolon, or behind the next block with everything in it.  Inside braces the closing brace is such
a place too, and it is left for the construct that it closes.
-/

namespace ScriptSyntax.Grammar

/-- Past the brace that closes a block, or to the end if none does; `level` counts the blocks open
inside it. -/
def skipBlock : Nat → List Token → List Token
  | _, [] => []
  | level, token :: rest =>
      match token.kind, level with
      | .openBrace, level => skipBlock (level + 1) rest
      | .closeBrace, 0 => rest
      | .closeBrace, level + 1 => skipBlock level rest
      | _, level => skipBlock level rest

/-- A token at which the text that is passed over ends. -/
def isStop (inBraces : Bool) (token : Token) : Bool :=
  token.kind = .semicolon || token.kind = .openBrace || inBraces && token.kind = .closeBrace

def nextStop (inBraces : Bool) (tokens : List Token) : List Token :=
  tokens.dropWhile fun token => !isStop inBraces token

/-- Where reading goes on after an error. -/
def resume (inBraces : Bool) (tokens : List Token) : List Token :=
  match nextStop inBraces tokens with
  | [] => []
  | token :: rest =>
      match token.kind with
      | .semicolon => rest
      | .openBrace => skipBlock 0 rest
      | _ => token :: rest

theorem skipBlock_suffix (level : Nat) (tokens : List Token) : skipBlock level tokens <:+ tokens := by
  fun_induction skipBlock level tokens with
  | case1 => exact List.suffix_rfl
  | case3 => exact List.suffix_cons _ _
  | _ => exact List.IsSuffix.trans ‹_› (List.suffix_cons _ _)

theorem resume_suffix (inBraces : Bool) (tokens : List Token) : resume inBraces tokens <:+ tokens := by
  have hstop : nextStop inBraces tokens <:+ tokens := List.dropWhile_suffix _
  unfold resume
  split
  · exact List.nil_suffix
  · rename_i token rest heq
    rw [heq] at hstop
    have hrest : rest <:+ tokens := (List.suffix_cons _ _).trans hstop
    split
    · exact hrest
    · exact (skipBlock_suffix 0 rest).trans hrest
    · exact hstop

namespace Parse

def recover (inBraces : Bool) : Parse Unit := do
  goTo (resume inBraces (← ahead))

/-- Runs the rule; if a syntax error stops it, passes over the broken text. -/
def recovering (inBraces : Bool) (rule : Parse Unit) : Parse Unit := do
  if (← attempt rule).isNone then recover inBraces

end Parse

end ScriptSyntax.Grammar
