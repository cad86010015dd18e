import ScriptSyntax.Lexeme

/-!
# Cursors

Two ways to read tokens one by one, go back to a token read before and jump to any offset.  The
plain cursor is nothing but an offset and looks at the text on every read.  The remembering cursor
keeps the token it last went back to and hands it out again without looking.
-/

namespace ScriptSyntax

namespace Source

/-- The first significant token at or after an offset, and the offset at which reading goes on.  An
offset past the end of the source or inside a character is a place from which nothing is read. -/
def tokenAt (source : Source) (offset : Nat) : Token × Nat :=
  match source.suffix? offset with
  | none => (.endAt (max offset source.size), offset)
  | some rest =>
      match Piece.place offset rest.pieces with
      | token :: _ => (token, token.span.stop)
      | [] => (.endAt source.size, source.size)

end Source

/-- How a cursor with states in `σ` is moved. -/
structure CursorKind (σ : Type) where
  next : Source → σ → Token × σ
  rewind : Token → σ → σ
  jump : Nat → σ → σ
  position : σ → Nat

inductive CursorMove
  | next
  | peek
  /-- Back to a token that was answered before, counted from the first. -/
  | rewind (index : Nat)
  | jump (offset : Nat)
  deriving DecidableEq

/-- What is seen after a move: the token it answered, if it reads one, and the position. -/
structure CursorView where
  token : Option Token
  position : Nat
  deriving DecidableEq

namespace CursorKind

variable {σ : Type}

/-- Read a token and go back to it. -/
def peek (kind : CursorKind σ) (source : Source) (state : σ) : Token × σ :=
  let (token, state) := kind.next source state
  (token, kind.rewind token state)

/-- The views after each of the moves.  `seen` holds the tokens answered so far. -/
def run (kind : CursorKind σ) (source : Source) :
    List Token → σ → List CursorMove → List CursorView
  | _, _, [] => []
  | seen, state, .next :: moves =>
      let (token, state) := kind.next source state
      ⟨some token, kind.position state⟩ :: run kind source (seen ++ [token]) state moves
  | seen, state, .peek :: moves =>
      let (token, state) := kind.peek source state
      ⟨some token, kind.position state⟩ :: run kind source (seen ++ [token]) state moves
  | seen, state, .rewind index :: moves =>
      let state := seen[index]?.elim state (kind.rewind · state)
      ⟨none, kind.position state⟩ :: run kind source seen state moves
  | seen, state, .jump offset :: moves =>
      let state := kind.jump offset state
      ⟨none, kind.position state⟩ :: run kind source seen state moves

end CursorKind

def plainCursor : CursorKind Nat where
  next source offset := source.tokenAt offset
  rewind token _ := token.span.start
  jump offset _ := offset
  position offset := offset

structure RememberingCursor where
  position : Nat := 0
  cached : Option Token := none
  deriving DecidableEq

namespace RememberingCursor

def next (source : Source) (cursor : RememberingCursor) : Token × RememberingCursor :=
  match cursor.cached.filter (·.span.start = cursor.position) with
  | some token => (token, { cursor with position := token.span.stop })
  | none =>
      let (token, position) := source.tokenAt cursor.position
      (token, { cursor with position })

end RememberingCursor

def rememberingCursor : CursorKind RememberingCursor where
  next := RememberingCursor.next
  rewind token _ := ⟨token.span.start, some token⟩
  jump offset _ := ⟨offset, none⟩
  position := RememberingCursor.position

end ScriptSyntax
