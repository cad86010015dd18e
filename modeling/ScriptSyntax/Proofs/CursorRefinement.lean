import ScriptSyntax.Proofs.CursorLookahead

/-!
# A cursor that remembers and a cursor that does not

The remembering cursor hands out a token without looking at the text, and that token may have been
read long ago, may be the end that was met past the text or inside a character, and may overlap the
tokens that are read after a jump.  It is still right each time, because a token that was ever
answered is the token that is read where it starts.  So the two cursors cannot be told apart, by
whatever moves.
-/

namespace ScriptSyntax

namespace RememberingCursor

variable {source : Source} {cursor : RememberingCursor} {offset : Nat} {seen : List Token}

/-- The remembering cursor is where the plain one is, and each token that it may go back to is the
one that is read there. -/
structure Mirrors (source : Source) (cursor : RememberingCursor) (offset : Nat)
    (seen : List Token) : Prop where
  position : cursor.position = offset
  sound : cursor.Sound source
  answered : ∀ token ∈ seen, source.Stands token

namespace Mirrors

theorem start (source : Source) (offset : Nat) : Mirrors source ⟨offset, none⟩ offset [] where
  position := rfl
  sound := by
    intro token htoken
    cases htoken
  answered := by simp

/-- Both cursors answer the same token and are at the same offset behind it. -/
theorem next (h : Mirrors source cursor offset seen) :
    (cursor.next source).1 = (source.tokenAt offset).1 ∧
      Mirrors source (cursor.next source).2 (source.tokenAt offset).2
        (seen ++ [(source.tokenAt offset).1]) := by
  have hread := h.sound.next_eq
  have hstands := h.sound.delivers.stands
  rw [h.position] at hread
  rw [hread] at hstands
  rw [hread]
  refine ⟨rfl, rfl, h.sound, ?_⟩
  intro token htoken
  rcases List.mem_append.mp htoken with hmem | hmem
  · exact h.answered token hmem
  · rw [List.mem_singleton.mp hmem]
    exact hstands

theorem rewound {token : Token} (h : Mirrors source cursor offset seen) (htoken : token ∈ seen) :
    Mirrors source (.rewound token) token.span.start seen where
  position := rfl
  sound := sound_rewound (h.answered token htoken)
  answered := h.answered

theorem jumped (h : Mirrors source cursor offset seen) (target : Nat) :
    Mirrors source ⟨target, none⟩ target seen where
  position := rfl
  sound := (start source target).sound
  answered := h.answered

/-- What is seen of the two cursors is the same, whatever the moves are. -/
theorem run_eq (h : Mirrors source cursor offset seen) (moves : List CursorMove) :
    rememberingCursor.run source seen cursor moves = plainCursor.run source seen offset moves := by
  induction moves generalizing cursor offset seen with
  | nil => rfl
  | cons move moves ih =>
      cases move with
      | next =>
          obtain ⟨htoken, hnext⟩ := h.next
          change ⟨some (cursor.next source).1, (cursor.next source).2.position⟩ ::
              rememberingCursor.run source (seen ++ [(cursor.next source).1])
                (cursor.next source).2 moves =
            ⟨some (source.tokenAt offset).1, (source.tokenAt offset).2⟩ ::
              plainCursor.run source (seen ++ [(source.tokenAt offset).1])
                (source.tokenAt offset).2 moves
          rw [htoken, hnext.position, ih hnext]
      | peek =>
          obtain ⟨htoken, hnext⟩ := h.next
          have hback := hnext.rewound (List.mem_append_right seen (List.mem_singleton_self _))
          change ⟨some (cursor.next source).1, (cursor.next source).1.span.start⟩ ::
              rememberingCursor.run source (seen ++ [(cursor.next source).1])
                (.rewound (cursor.next source).1) moves =
            ⟨some (source.tokenAt offset).1, (source.tokenAt offset).1.span.start⟩ ::
              plainCursor.run source (seen ++ [(source.tokenAt offset).1])
                (source.tokenAt offset).1.span.start moves
          rw [htoken, ih hback]
      | rewind index =>
          cases hindex : seen[index]? with
          | none =>
              simp only [CursorKind.run, hindex, Option.elim_none]
              change ⟨none, cursor.position⟩ :: rememberingCursor.run source seen cursor moves =
                ⟨none, offset⟩ :: plainCursor.run source seen offset moves
              rw [h.position, ih h]
          | some token =>
              have hback := h.rewound (List.mem_of_getElem? hindex)
              simp only [CursorKind.run, hindex, Option.elim_some]
              exact congrArg (⟨none, token.span.start⟩ :: ·) (ih hback)
      | jump target =>
          exact congrArg (⟨none, target⟩ :: ·) (ih (h.jumped target))

end Mirrors

end RememberingCursor

/-- By no moves can it be seen whether a cursor remembers: the tokens it answers and its positions
are those of the cursor that is nothing but an offset. -/
theorem rememberingCursor_run_eq_plainCursor (source : Source) (moves : List CursorMove) :
    rememberingCursor.run source [] {} moves = plainCursor.run source [] 0 moves :=
  (RememberingCursor.Mirrors.start source 0).run_eq moves

end ScriptSyntax
