import ScriptSyntax.Proofs.CursorRefinement
import ScriptSyntax.Proofs.ReadingOn
import ScriptSyntax.Proofs.TreeSpans

/-!
# Nothing is lost between the tokens

A source is cut by looking again and again at the text that is left.  No cut is empty, each is
between two characters, and the pieces laid side by side are the source.  The pieces that are no
trivia, with the places where they were cut, are the tokens; and they are what a cursor answers
until it answers the end.
-/

namespace ScriptSyntax

/-! ## Cutting -/

namespace Source

/-- Cutting from a byte offset on: the text found there is classified and one piece of it is cut off,
until none is left. -/
inductive CutsFrom (source : Source) : Nat → List Piece → Prop
  | done {offset : Nat} (found : source.suffix? offset = some []) : CutsFrom source offset []
  | piece {offset : Nat} {body after : Source} {kind : TokenKind} {pieces : List Piece}
      (found : source.suffix? offset = some (body ++ after)) (more : body ++ after ≠ [])
      (classified : Lexeme.classify (body ++ after) = (kind, body.length))
      (rest : CutsFrom source (offset + size body) pieces) :
      CutsFrom source offset (⟨kind, body⟩ :: pieces)

variable {source : Source} {offset : Nat} {pieces : List Piece}

theorem cutsFrom_pieces {text : Source} (h : source.suffix? offset = some text) :
    source.CutsFrom offset text.pieces := by
  induction text using pieces_induction generalizing offset with
  | nil => exact .done h
  | piece text hne ih =>
      have hsplit := List.take_append_drop (Lexeme.classify text).2 text
      have hlength := List.length_take_of_le (Lexeme.classify_le_length text)
      rw [pieces_eq_cons hne]
      rw [← hsplit] at h
      refine .piece h (hsplit.symm ▸ hne) ?_ (ih (suffix?_behind h))
      rw [hsplit, hlength]

namespace CutsFrom

/-- The text that is cut is found where cutting starts, whole. -/
theorem found (h : source.CutsFrom offset pieces) :
    source.suffix? offset = some (pieces.flatMap Piece.text) := by
  induction h with
  | done hfound => exact hfound
  | @piece offset body after kind pieces hfound hmore hclassified hrest ih =>
      have hafter := (suffix?_behind hfound).symm.trans ih
      rw [Option.some.injEq] at hafter
      rw [hfound, hafter]
      rfl

/-- There is one way to cut a source. -/
theorem unique {others : List Piece} (h : source.CutsFrom offset pieces)
    (hothers : source.CutsFrom offset others) : pieces = others := by
  induction h generalizing others with
  | done hfound =>
      cases hothers with
      | done => rfl
      | piece hother hmore =>
          rw [hfound, Option.some.injEq] at hother
          exact absurd hother.symm hmore
  | @piece offset body after kind pieces hfound hmore hclassified hrest ih =>
      cases hothers with
      | done hother =>
          rw [hfound, Option.some.injEq] at hother
          exact absurd hother hmore
      | @piece _ otherBody otherAfter otherKind _ hother _ hotherClassified hotherRest =>
          rw [hfound, Option.some.injEq] at hother
          rw [← hother, hclassified, Prod.mk.injEq] at hotherClassified
          obtain ⟨rfl, hlength⟩ := hotherClassified
          obtain ⟨rfl, rfl⟩ := List.append_inj hother hlength
          rw [ih hotherRest]

/-- No piece is empty, and none is the end. -/
theorem solid (h : source.CutsFrom offset pieces) {piece : Piece} (hpiece : piece ∈ pieces) :
    1 ≤ piece.size ∧ piece.kind ≠ .endOfSource := by
  induction h with
  | done => cases hpiece
  | @piece offset body after kind pieces hfound hmore hclassified hrest ih =>
      rcases List.mem_cons.mp hpiece with rfl | hmem
      · have hpos := Lexeme.classify_pos hmore
        have hend := Lexeme.classify_ne_end hmore
        rw [hclassified] at hpos hend
        exact ⟨size_pos (List.ne_nil_of_length_pos hpos), hend⟩
      · exact ih hmem

end CutsFrom

end Source

/-! ## Places -/

namespace Piece

/-- The byte offsets at which consecutive pieces start, and that at which the last one ends. -/
def cuts (offset : Nat) (pieces : List Piece) : List Nat :=
  (pieces.map Piece.size).scanl (· + ·) offset

/-- The token that a piece makes where it starts. -/
def tokenFrom (piece : Piece) (offset : Nat) : Token :=
  ⟨piece.kind, ⟨offset, offset + piece.size⟩, String.ofList piece.text⟩

theorem cuts_cons (offset : Nat) (piece : Piece) (pieces : List Piece) :
    cuts offset (piece :: pieces) = offset :: cuts (offset + piece.size) pieces :=
  List.scanl_cons

/-- The pieces that are no trivia, each where it was cut. -/
theorem place_eq (offset : Nat) (pieces : List Piece) :
    place offset pieces =
      ((pieces.zip (cuts offset pieces)).filter (!·.1.kind.isTrivia)).map
        fun (piece, start) => piece.tokenFrom start := by
  induction pieces generalizing offset with
  | nil => rfl
  | cons piece pieces ih =>
      rw [cuts_cons, List.zip_cons_cons, place, ih]
      by_cases htrivia : piece.kind.isTrivia = true
      · rw [if_pos htrivia, List.filter_cons_of_neg (by simp [htrivia])]
      · rw [if_neg htrivia, List.filter_cons_of_pos (by simp [htrivia])]
        rfl

end Piece

theorem Source.CutsFrom.boundaries {source : Source} {offset : Nat} {pieces : List Piece}
    (h : source.CutsFrom offset pieces) {cut : Nat} (hcut : cut ∈ Piece.cuts offset pieces) :
    source.IsBoundary cut := by
  induction h with
  | done hfound =>
      rw [List.mem_singleton.mp hcut]
      exact isBoundary_of_suffix? hfound
  | piece hfound _ _ _ ih =>
      rw [Piece.cuts_cons] at hcut
      rcases List.mem_cons.mp hcut with rfl | hmem
      · exact isBoundary_of_suffix? hfound
      · exact ih hmem

/-! ## Reading to the end -/

/-- The tokens that a cursor answers from a state on, up to and with the end of the source. -/
inductive CursorKind.Lists {σ : Type} (kind : CursorKind σ) (source : Source) :
    σ → List Token → Prop
  | last {state : σ} (h : (kind.next source state).1.kind = .endOfSource) :
      Lists kind source state [(kind.next source state).1]
  | next {state : σ} {tokens : List Token} (h : (kind.next source state).1.kind ≠ .endOfSource)
      (rest : Lists kind source (kind.next source state).2 tokens) :
      Lists kind source state ((kind.next source state).1 :: tokens)

theorem CursorKind.Lists.unique {σ : Type} {kind : CursorKind σ} {source : Source} {state : σ}
    {tokens others : List Token} (h : kind.Lists source state tokens)
    (hothers : kind.Lists source state others) : tokens = others := by
  induction h generalizing others with
  | last hend =>
      cases hothers with
      | last => rfl
      | next hne => exact absurd hend hne
  | next hne _ ih =>
      cases hothers with
      | last hend => exact absurd hend hne
      | next _ hrest => rw [ih hrest]

/-- A cursor answers the tokens from its position on and then the end. -/
theorem RememberingCursor.Sound.lists {source : Source} {cursor : RememberingCursor}
    (h : cursor.Sound source) (hposition : cursor.position ≤ source.size) :
    rememberingCursor.Lists source cursor
      (source.tokensFrom cursor.position ++ [.endAt source.size]) := by
  induction htokens : source.tokensFrom cursor.position generalizing cursor with
  | nil =>
      obtain ⟨position, hat, -⟩ := Source.tokenAt_end htokens
      rw [Nat.max_eq_right hposition] at hat
      have hanswer : (rememberingCursor.next source cursor).1 = .endAt source.size :=
        (congrArg Prod.fst h.next_eq).trans (congrArg Prod.fst hat)
      rw [List.nil_append, ← hanswer]
      exact .last (by rw [hanswer]; rfl)
  | cons token rest ih =>
      obtain ⟨body, after, hholds, -, hrest⟩ := Source.tokensFrom_eq_cons htokens
      have hat := Source.tokenAt_cons htokens
      have hanswer : (rememberingCursor.next source cursor).1 = token :=
        (congrArg Prod.fst h.next_eq).trans (congrArg Prod.fst hat)
      have hbehind : (rememberingCursor.next source cursor).2 =
          { cursor with position := token.span.stop } := by
        refine (congrArg Prod.snd h.next_eq).trans ?_
        rw [hat]
      rw [List.cons_append, ← hanswer]
      refine .next (by rw [hanswer]; exact hholds.ne_end) ?_
      rw [hbehind]
      exact @ih { cursor with position := token.span.stop } h hholds.stop_le_size hrest.symm

/-! ## The tokens of a source -/

/-- A source, the pieces it is cut into and its tokens. -/
structure Source.Tokenizes (source : Source) (pieces : List Piece) (tokens : List Token) :
    Prop where
  cut : source.CutsFrom 0 pieces
  whole : pieces.flatMap Piece.text = source
  solid : ∀ piece ∈ pieces, 1 ≤ piece.size ∧ piece.kind ≠ .endOfSource
  boundaries : ∀ cut ∈ Piece.cuts 0 pieces, source.IsBoundary cut
  placed : tokens =
    ((pieces.zip (Piece.cuts 0 pieces)).filter (!·.1.kind.isTrivia)).map
        (fun (piece, start) => piece.tokenFrom start) ++
      [.endAt source.size]
  read : rememberingCursor.Lists source {} tokens

theorem Source.classify_end_iff (text : Source) :
    (Lexeme.classify text).1 = .endOfSource ↔ text = [] := by
  constructor
  · intro h
    by_cases hnil : text = []
    · exact hnil
    · exact absurd h (Lexeme.classify_ne_end hnil)
  · rintro rfl
    rfl

/-- Looking again and again at the text that is left cuts a source into pieces that are not empty,
end between characters and make up the source, and only the empty text is the end.  The pieces that
are no trivia, in their places, are the tokens, and a cursor answers them one after the other.  The
source is cut in no other way, and the cursor answers nothing else. -/
theorem source_tokenizes (source : Source) :
    source.Tokenizes source.pieces source.tokens ∧
      ((Lexeme.classify source).1 = .endOfSource ↔ source = []) ∧
      (∀ pieces, source.CutsFrom 0 pieces → pieces = source.pieces) ∧
      (∀ tokens, rememberingCursor.Lists source {} tokens → tokens = source.tokens) := by
  have hcut : source.CutsFrom 0 source.pieces :=
    Source.cutsFrom_pieces (Source.suffix?_append_size [] source)
  have hwhole : source.pieces.flatMap Piece.text = source := by
    have hfound := hcut.found.symm.trans (Source.suffix?_append_size [] source)
    rwa [Option.some.injEq] at hfound
  have hread : rememberingCursor.Lists source {} source.tokens :=
    (RememberingCursor.Mirrors.start source 0).sound.lists (Nat.zero_le _)
  refine ⟨⟨hcut, hwhole, ?_, ?_, ?_, hread⟩, Source.classify_end_iff source, ?_, ?_⟩
  · exact fun piece hpiece => hcut.solid hpiece
  · exact fun cut hmem => hcut.boundaries hmem
  · rw [Source.tokens, Source.tokensFrom_zero, Source.tokensAt, Piece.place_eq]
  · exact fun pieces hpieces => hpieces.unique hcut
  · exact fun tokens htokens => htokens.unique hread

end ScriptSyntax
