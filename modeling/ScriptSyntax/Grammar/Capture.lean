import ScriptSyntax.Grammar.Parse

/-!
# Captured text

Function bodies, initializers and default arguments are not parsed along with the declaration they
belong to.  Balancing brackets is enough to find where they end, and a node without children keeps
the span for later.
-/

namespace ScriptSyntax.Grammar

inductive CaptureEnd
  | complete
  /-- The next token may not stand there. -/
  | fault (message : Message)
  | endOfSource
  deriving DecidableEq

/-- The tokens that were captured, the tokens behind them, and why the capture ends there. -/
structure Capture where
  taken : List Token
  rest : List Token
  ending : CaptureEnd

inductive Bracket
  | paren | brace
  deriving DecidableEq

namespace Capture

/-- A capture that ends before it has taken anything. -/
def stop (ending : CaptureEnd) (tokens : List Token) : Capture :=
  ⟨[], tokens, ending⟩

def take (token : Token) (capture : Capture) : Capture :=
  { capture with taken := token :: capture.taken }

/-- A default argument, up to a comma or a closing parenthesis outside all brackets.  The brackets
that are open are listed from the inside out. -/
def argument : List Bracket → List Token → Capture
  | _, [] => stop .endOfSource []
  | opened, token :: rest =>
      match token.kind, opened with
      | .openParen, opened => (argument (.paren :: opened) rest).take token
      | .openBrace, opened => (argument (.brace :: opened) rest).take token
      | .closeParen, .paren :: outer => (argument outer rest).take token
      | .closeParen, [] => stop .complete (token :: rest)
      | .closeParen, .brace :: _ => stop (.fault (.unexpectedKind .closeParen)) (token :: rest)
      | .closeBrace, .brace :: outer => (argument outer rest).take token
      | .closeBrace, _ => stop (.fault (.unexpectedKind .closeBrace)) (token :: rest)
      | .comma, [] => stop .complete (token :: rest)
      | .semicolon, _ => stop (.fault (.unexpectedKind .semicolon)) (token :: rest)
      | .unterminatedString, _ => stop (.fault .unterminatedString) (token :: rest)
      | _, opened => (argument opened rest).take token

def endsInitializer (kind : TokenKind) : Bool :=
  kind = .comma || kind = .semicolon || kind = .closeBrace

/-- An initializer, up to a comma, a semicolon or a closing brace where as many parentheses and as
many braces were closed as were opened. -/
def initializer : Int → Int → List Token → Capture
  | _, _, [] => stop .endOfSource []
  | parens, braces, token :: rest =>
      if parens = 0 ∧ braces = 0 ∧ endsInitializer token.kind then stop .complete (token :: rest)
      else
        match token.kind with
        | .openParen => (initializer (parens + 1) braces rest).take token
        | .closeParen => (initializer (parens - 1) braces rest).take token
        | .openBrace => (initializer parens (braces + 1) rest).take token
        | .closeBrace => (initializer parens (braces - 1) rest).take token
        | .unterminatedString => stop (.fault .unterminatedString) (token :: rest)
        | _ => (initializer parens braces rest).take token

/-- Up to and with the bracket that closes a group; `level` counts the groups open inside it. -/
def group (opening closing : TokenKind) : Nat → List Token → Capture
  | _, [] => stop .endOfSource []
  | level, token :: rest =>
      if token.kind = opening then (group opening closing (level + 1) rest).take token
      else if token.kind = closing then
        match level with
        | 0 => (stop .complete rest).take token
        | level + 1 => (group opening closing level rest).take token
      else if token.kind = .unterminatedString then
        stop (.fault .unterminatedString) (token :: rest)
      else (group opening closing level rest).take token

@[simp] theorem taken_stop (ending : CaptureEnd) (tokens : List Token) :
    (stop ending tokens).taken = [] := rfl

@[simp] theorem rest_stop (ending : CaptureEnd) (tokens : List Token) :
    (stop ending tokens).rest = tokens := rfl

@[simp] theorem taken_take (token : Token) (capture : Capture) :
    (capture.take token).taken = token :: capture.taken := rfl

@[simp] theorem rest_take (token : Token) (capture : Capture) :
    (capture.take token).rest = capture.rest := rfl

theorem argument_append (opened : List Bracket) (tokens : List Token) :
    (argument opened tokens).taken ++ (argument opened tokens).rest = tokens := by
  fun_induction argument opened tokens <;> simp_all

theorem initializer_append (parens braces : Int) (tokens : List Token) :
    (initializer parens braces tokens).taken ++ (initializer parens braces tokens).rest =
      tokens := by
  fun_induction initializer parens braces tokens <;> simp_all

theorem group_append (opening closing : TokenKind) (level : Nat) (tokens : List Token) :
    (group opening closing level tokens).taken ++ (group opening closing level tokens).rest =
      tokens := by
  fun_induction group opening closing level tokens <;> simp_all

end Capture

namespace Parse

/-- Cover what was captured and go on behind it, if it is complete.  `start` is where the construct
began. -/
def capture (construct : Construct) (start : List Token) (capture : Capture) : Parse Unit := do
  capture.taken.forM fun token => widen token.span
  goTo capture.rest
  match capture.ending with
  | .complete => return
  | .fault message => fail message
  | .endOfSource => failAtEnd construct start

def defaultArgument : Parse Unit :=
  node .expression do
    let start ← ahead
    capture .expression start (.argument [] start)

/-- An equals sign and an expression, or arguments in parentheses. -/
def capturedInitializer : Parse Unit :=
  node .assignment do
    let first ← peek
    widen first.span
    match first.kind with
    | .assign =>
        skip
        if Capture.endsInitializer (← peek).kind then failExpected .expectedExpressionValue
        let start ← ahead
        capture .expression start (.initializer 0 0 start)
    | .openParen =>
        let start ← ahead
        capture .argumentList start (.group .openParen .closeParen 0 start.tail)
    | _ =>
        failExpected (.expectedOneOfKinds [.assign, .openParen])

/-- A block in braces.  The token at which an incomplete capture ends is covered too. -/
def capturedBlock : Parse Unit :=
  node .statementBlock do
    let start ← ahead
    coverRequired .openBrace
    let block := Capture.group .openBrace .closeBrace 0 (← ahead)
    unless block.ending = .complete do
      widen (block.rest.headD (← read).finish).span
    capture .statementBlock start block

end Parse

end ScriptSyntax.Grammar
