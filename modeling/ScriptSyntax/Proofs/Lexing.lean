import Mathlib.Tactic.Set
import ScriptSyntax.Lexeme

/-!
# Tokens in their places

Every piece of a source is at least one character long, so cutting a source into pieces ends with
the source.  A token that is read from an offset stands at its place in the source, and the tokens
behind it are those read from its end on.
-/

namespace ScriptSyntax

/-- A keyword, an operator or a punctuation mark. -/
def TokenKind.inVocabulary : TokenKind → Bool
  | keyword _ | operator _ | punctuation _ => true
  | _ => false

namespace Source

theorem suffix?_eq_some_iff {source rest : Source} {offset : Nat} :
    suffix? source offset = some rest ↔
      ∃ before, source = before ++ rest ∧ size before = offset := by
  constructor
  · intro h
    fun_induction suffix? source offset with
    | case1 source => exact ⟨[], by simpa using h, rfl⟩
    | case2 => simp at h
    | case3 c tail offset hle ih =>
        obtain ⟨before, hsplit, hsize⟩ := ih h
        refine ⟨c :: before, by simp [hsplit], ?_⟩
        simp only [size_cons]
        omega
    | case4 => simp at h
  · rintro ⟨before, rfl, rfl⟩
    exact suffix?_append_size before rest

end Source

namespace Lexeme

/-- What a reader other than that of the vocabulary may answer about a text. -/
structure Reads (text : List Char) (piece : TokenKind × Nat) : Prop where
  pos : 0 < piece.2
  le_length : piece.2 ≤ text.length
  kind_ne_end : piece.1 ≠ .endOfSource
  not_inVocabulary : piece.1.inVocabulary = false
  /-- A string that is not terminated takes the rest of the text. -/
  whole : piece.1 = .unterminatedString → piece.2 = text.length

theorem reads_of_blank? {text : List Char} {piece : TokenKind × Nat}
    (h : blank? text = some piece) : Reads text piece := by
  unfold blank? at h
  split at h
  · simp at h
  · rename_i c rest
    have hrun := run_le_length isBlank rest
    split at h
    · cases h
      exact ⟨by simp, by simp, by simp, rfl, by simp⟩
    · split at h
      · cases h
        exact ⟨by simp, by simpa using hrun, by simp, rfl, by simp⟩
      · simp at h

theorem reads_of_comment? {text : List Char} {piece : TokenKind × Nat}
    (h : comment? text = some piece) : Reads text piece := by
  unfold comment? at h
  split at h
  · rename_i rest
    have hthrough := through_le_length ['\n'] rest
    cases h
    exact ⟨by simp, by simpa using hthrough, by simp, rfl, by simp⟩
  · rename_i rest
    have hthrough := through_le_length ['*', '/'] rest
    cases h
    exact ⟨by simp, by simpa using hthrough, by simp, rfl, by simp⟩
  · simp at h

theorem reads_of_bits? {text : List Char} {piece : TokenKind × Nat}
    (h : bits? text = some piece) : Reads text piece := by
  unfold bits? at h
  split at h
  · rename_i mark rest
    obtain ⟨radix, -, rfl⟩ := Option.map_eq_some_iff.mp h
    have hrun := run_le_length (isDigitIn radix) rest
    exact ⟨by simp, by simpa using hrun, by simp, rfl, by simp⟩
  · simp at h

theorem run_cons_pos {test : Char → Bool} {c : Char} {rest : List Char} (h : test c = true) :
    0 < run test (c :: rest) := by
  simp [run, h]

/-- A text that starts as a numeral has a first digit before or behind the point. -/
theorem decimal_pos {text : List Char} (h : startsNumeral text = true) :
    0 < (decimal text).2 := by
  have hlength : 0 < run Char.isDigit text + fraction (text.drop (run Char.isDigit text)) := by
    unfold startsNumeral at h
    split at h
    · rename_i c rest
      have : run Char.isDigit ('.' :: c :: rest) = 0 := by simp [run]
      simp [this, fraction]
    · exact Nat.add_pos_left (run_cons_pos h) _
    · simp at h
  simp only [decimal]
  split <;> simp only <;> omega

theorem decimal_kind (text : List Char) :
    (decimal text).1 = .floatConstant ∨ (decimal text).1 = .intConstant ∨
      (decimal text).1 = .doubleConstant := by
  simp only [decimal]
  split
  · exact .inl rfl
  · exact .inl rfl
  · simp only
    split
    · exact .inr (.inl rfl)
    · exact .inr (.inr rfl)

theorem reads_of_numeral? {text : List Char} {piece : TokenKind × Nat}
    (h : numeral? text = some piece) : Reads text piece := by
  unfold numeral? at h
  split at h
  · rename_i hstart
    cases hbits : bits? text with
    | some found =>
        rw [hbits] at h
        cases h
        exact reads_of_bits? hbits
    | none =>
        rw [hbits] at h
        cases h
        refine ⟨decimal_pos hstart, decimal_le_length text, ?_, ?_, ?_⟩ <;>
          rcases decimal_kind text with hkind | hkind | hkind <;>
          simp [hkind, TokenKind.inVocabulary]
  · simp at h

theorem reads_quoted (quote c : Char) (rest : List Char) :
    Reads (c :: rest) (quoted quote rest) := by
  unfold quoted
  split
  · rename_i length heq
    have hbounds := closing?_bounds heq
    refine ⟨by simp, by simp; omega, ?_, ?_, ?_⟩ <;> dsimp only <;> split <;>
      simp [TokenKind.inVocabulary]
  · exact ⟨by simp, by simp, by simp, rfl, by simp⟩

theorem reads_of_quotation? {text : List Char} {piece : TokenKind × Nat}
    (h : quotation? text = some piece) : Reads text piece := by
  unfold quotation? at h
  split at h
  · rename_i rest
    have hthrough := through_le_length ['"', '"', '"'] rest
    cases h
    exact ⟨by simp, by simpa using hthrough, by simp, rfl, by simp⟩
  · cases h
    exact reads_quoted _ _ _
  · cases h
    exact reads_quoted _ _ _
  · simp at h

theorem reads_of_identifier? {text : List Char} {piece : TokenKind × Nat}
    (h : identifier? text = some piece) : Reads text piece := by
  unfold identifier? at h
  split at h
  · simp at h
  · rename_i c rest
    have hrun := run_le_length isWordPart rest
    simp only at h
    split at h
    · cases h
      exact ⟨by simp, by simpa using hrun, by simp, rfl, by simp⟩
    · simp at h

/-! ## The vocabulary -/

theorem vocabulary_ne_nil : ∀ entry ∈ vocabulary, entry.1 ≠ [] := by decide

theorem vocabulary_inVocabulary : ∀ entry ∈ vocabulary, entry.2.inVocabulary = true := by decide

theorem foldl_longer_mem {entries : List (List Char × TokenKind)} {best : Option (TokenKind × Nat)}
    {piece : TokenKind × Nat} (h : entries.foldl longer best = some piece) :
    best = some piece ∨ ∃ entry ∈ entries, piece = (entry.2, entry.1.length) := by
  induction entries generalizing best with
  | nil => exact .inl h
  | cons entry rest ih =>
      rcases ih h with hbest | ⟨other, hmem, heq⟩
      · unfold longer at hbest
        split at hbest
        · split at hbest
          · exact .inr ⟨entry, List.mem_cons_self, (Option.some.inj hbest).symm⟩
          · exact .inl hbest
        · exact .inr ⟨entry, List.mem_cons_self, (Option.some.inj hbest).symm⟩
      · exact .inr ⟨other, List.mem_cons_of_mem _ hmem, heq⟩

theorem mem_vocabulary_of_spelling? {text : List Char} {piece : TokenKind × Nat}
    (h : spelling? text = some piece) :
    ∃ entry ∈ vocabulary, spells text entry = true ∧ piece = (entry.2, entry.1.length) := by
  rcases foldl_longer_mem h with hnone | ⟨entry, hmem, heq⟩
  · simp at hnone
  · obtain ⟨hvocabulary, hspells⟩ := List.mem_filter.mp hmem
    exact ⟨entry, hvocabulary, hspells, heq⟩

theorem isPrefixOf_of_spells {text : List Char} {entry : List Char × TokenKind}
    (h : spells text entry = true) : entry.1 <+: text := by
  simp only [spells, Bool.and_eq_true] at h
  exact List.isPrefixOf_iff_prefix.mp h.1

/-! ## Pieces -/

theorem classify_cons (c : Char) (rest : List Char) :
    classify (c :: rest) =
      ((blank? (c :: rest)).or ((comment? (c :: rest)).or ((numeral? (c :: rest)).or
        ((quotation? (c :: rest)).or ((identifier? (c :: rest)).or
          (spelling? (c :: rest))))))).getD (.unrecognized, 1) := by
  simp [classify]

/-- A piece is read by one of the readers or found in the vocabulary. -/
theorem classify_cases {text : List Char} (hne : text ≠ []) :
    Reads text (classify text) ∨ spelling? text = some (classify text) := by
  obtain ⟨c, rest, rfl⟩ := List.exists_cons_of_ne_nil hne
  rw [classify_cons]
  cases hblank : blank? (c :: rest) with
  | some piece => exact .inl (reads_of_blank? hblank)
  | none => ?_
  cases hcomment : comment? (c :: rest) with
  | some piece => exact .inl (reads_of_comment? hcomment)
  | none => ?_
  cases hnumeral : numeral? (c :: rest) with
  | some piece => exact .inl (reads_of_numeral? hnumeral)
  | none => ?_
  cases hquotation : quotation? (c :: rest) with
  | some piece => exact .inl (reads_of_quotation? hquotation)
  | none => ?_
  cases hidentifier : identifier? (c :: rest) with
  | some piece => exact .inl (reads_of_identifier? hidentifier)
  | none => ?_
  cases hspelling : spelling? (c :: rest) with
  | some piece => exact .inr rfl
  | none => exact .inl ⟨by simp, by simp, by simp, rfl, by simp⟩

theorem classify_pos {text : List Char} (hne : text ≠ []) : 0 < (classify text).2 := by
  rcases classify_cases hne with hreads | hspelling
  · exact hreads.pos
  · obtain ⟨entry, hmem, -, heq⟩ := mem_vocabulary_of_spelling? hspelling
    rw [heq]
    exact List.length_pos_iff.mpr (vocabulary_ne_nil entry hmem)

theorem classify_le_length (text : List Char) : (classify text).2 ≤ text.length := by
  by_cases hne : text = []
  · subst hne
    simp [classify]
  · rcases classify_cases hne with hreads | hspelling
    · exact hreads.le_length
    · obtain ⟨entry, -, hspells, heq⟩ := mem_vocabulary_of_spelling? hspelling
      rw [heq]
      exact (isPrefixOf_of_spells hspells).length_le

theorem classify_ne_end {text : List Char} (hne : text ≠ []) :
    (classify text).1 ≠ .endOfSource := by
  rcases classify_cases hne with hreads | hspelling
  · exact hreads.kind_ne_end
  · obtain ⟨entry, hmem, -, heq⟩ := mem_vocabulary_of_spelling? hspelling
    intro hend
    have := vocabulary_inVocabulary entry hmem
    rw [heq] at hend
    simp only at hend
    rw [hend] at this
    cases this

theorem classify_unterminated {text : List Char} (hne : text ≠ [])
    (h : (classify text).1 = .unterminatedString) : (classify text).2 = text.length := by
  rcases classify_cases hne with hreads | hspelling
  · exact hreads.whole h
  · obtain ⟨entry, hmem, -, heq⟩ := mem_vocabulary_of_spelling? hspelling
    have hvocabulary := vocabulary_inVocabulary entry hmem
    rw [heq] at h
    simp only at h
    rw [h] at hvocabulary
    cases hvocabulary

/-- A piece of the vocabulary is one of the spellings. -/
theorem mem_vocabulary_of_classify {text : List Char} (hne : text ≠ [])
    (h : (classify text).1.inVocabulary = true) :
    ∃ entry ∈ vocabulary, spells text entry = true ∧
      classify text = (entry.2, entry.1.length) := by
  rcases classify_cases hne with hreads | hspelling
  · rw [hreads.not_inVocabulary] at h
    cases h
  · exact mem_vocabulary_of_spelling? hspelling

end Lexeme

namespace Piece

theorem cut_succ {count : Nat} {text : Source} (hne : text ≠ []) :
    cut (count + 1) text =
      ⟨(Lexeme.classify text).1, text.take (Lexeme.classify text).2⟩ ::
        cut count (text.drop (Lexeme.classify text).2) := by
  obtain ⟨c, rest, rfl⟩ := List.exists_cons_of_ne_nil hne
  rfl

theorem cut_of_length_le {count : Nat} {text : Source} (h : text.length ≤ count) :
    cut count text = text.pieces := by
  unfold Source.pieces
  induction count using Nat.strongRecOn generalizing text with
  | ind count ih =>
      cases text with
      | nil => cases count <;> rfl
      | cons c rest =>
          obtain ⟨count, rfl⟩ : ∃ smaller, count = smaller + 1 :=
            ⟨count - 1, by simp only [List.length_cons] at h; omega⟩
          have hpos := Lexeme.classify_pos (List.cons_ne_nil c rest)
          have hdrop : ((c :: rest).drop (Lexeme.classify (c :: rest)).2).length ≤ rest.length := by
            simp only [List.length_drop, List.length_cons]
            omega
          simp only [List.length_cons] at h
          rw [List.length_cons, cut_succ (List.cons_ne_nil c rest),
            cut_succ (List.cons_ne_nil c rest), ih count (by omega) (by omega),
            ih rest.length (by omega) hdrop]

end Piece

namespace Source

theorem pieces_eq_cons {text : Source} (hne : text ≠ []) :
    text.pieces =
      ⟨(Lexeme.classify text).1, text.take (Lexeme.classify text).2⟩ ::
        pieces (text.drop (Lexeme.classify text).2) := by
  obtain ⟨c, rest, rfl⟩ := List.exists_cons_of_ne_nil hne
  have hpos := Lexeme.classify_pos hne
  have hdrop : ((c :: rest).drop (Lexeme.classify (c :: rest)).2).length ≤ rest.length := by
    simp only [List.length_drop, List.length_cons]
    omega
  rw [pieces, List.length_cons, Piece.cut_succ hne, Piece.cut_of_length_le hdrop]

/-- The piece that is cut off the start of a source, and what is left. -/
structure FirstPiece (source : Source) (piece : Piece) (after : Source) : Prop where
  whole : source = piece.text ++ after
  pieces : source.pieces = piece :: after.pieces

theorem firstPiece_classify {source : Source} (hne : source ≠ []) :
    source.FirstPiece ⟨(Lexeme.classify source).1, source.take (Lexeme.classify source).2⟩
      (source.drop (Lexeme.classify source).2) :=
  ⟨(List.take_append_drop _ _).symm, pieces_eq_cons hne⟩

/-- What holds of the empty text, and of a text if it holds behind its first piece, holds of every
text. -/
theorem pieces_induction {property : Source → Prop} (nil : property [])
    (piece : ∀ text, text ≠ [] → property (text.drop (Lexeme.classify text).2) → property text)
    (text : Source) : property text := by
  induction hlength : text.length using Nat.strongRecOn generalizing text with
  | ind length ih =>
      by_cases hne : text = []
      · exact hne ▸ nil
      · have hpos := Lexeme.classify_pos hne
        have hle := Lexeme.classify_le_length text
        refine piece text hne (ih _ ?_ _ rfl)
        simp only [List.length_drop]
        omega

/-- The significant tokens of a text that starts at an offset. -/
def tokensAt (offset : Nat) (text : Source) : List Token :=
  Piece.place offset text.pieces

theorem tokensFrom_of_suffix? {source rest : Source} {offset : Nat}
    (h : source.suffix? offset = some rest) : source.tokensFrom offset = tokensAt offset rest := by
  simp [tokensFrom, h, tokensAt]

theorem tokensFrom_zero (source : Source) : source.tokensFrom 0 = tokensAt 0 source := by
  cases source <;> rfl

@[simp] theorem tokensAt_nil (offset : Nat) : tokensAt offset [] = [] := rfl

theorem tokensAt_eq {offset : Nat} {text : Source} (hne : text ≠ []) :
    tokensAt offset text =
      let body := text.take (Lexeme.classify text).2
      let after := tokensAt (offset + size body) (text.drop (Lexeme.classify text).2)
      if (Lexeme.classify text).1.isTrivia then after
      else ⟨(Lexeme.classify text).1, ⟨offset, offset + size body⟩, String.ofList body⟩ ::
        after := by
  rw [tokensAt, pieces_eq_cons hne]
  rfl

/-- A token in its place in a source: the text it covers, and the text after it. -/
structure Holds (source : Source) (token : Token) (body after : Source) : Prop where
  found : source.suffix? token.span.start = some (body ++ after)
  stop : token.span.stop = token.span.start + size body
  nonempty : body ≠ []
  classified : Lexeme.classify (body ++ after) = (token.kind, body.length)
  significant : token.kind.isTrivia = false
  text : token.text = String.ofList body

theorem Holds.found_after {source : Source} {token : Token} {body after : Source}
    (h : Holds source token body after) : source.suffix? token.span.stop = some after := by
  obtain ⟨before, hsplit, hsize⟩ := suffix?_eq_some_iff.mp h.found
  refine suffix?_eq_some_iff.mpr ⟨before ++ body, by simp [hsplit], ?_⟩
  rw [h.stop, size_append, hsize]

theorem size_pos {text : Source} (hne : text ≠ []) : 0 < size text := by
  obtain ⟨c, rest, rfl⟩ := List.exists_cons_of_ne_nil hne
  have := Char.utf8Size_pos c
  simp only [size_cons]
  omega

theorem Holds.start_lt_stop {source : Source} {token : Token} {body after : Source}
    (h : Holds source token body after) : token.span.start < token.span.stop := by
  have := size_pos h.nonempty
  rw [h.stop]
  omega

theorem suffix?_size_le {source rest : Source} {offset : Nat}
    (h : source.suffix? offset = some rest) : offset + size rest = size source := by
  obtain ⟨before, rfl, rfl⟩ := suffix?_eq_some_iff.mp h
  exact (size_append before rest).symm

theorem suffix?_le_size {source rest : Source} {offset : Nat}
    (h : source.suffix? offset = some rest) : offset ≤ size source := by
  have := suffix?_size_le h
  omega

theorem tokensFrom_of_size_le {source : Source} {offset : Nat} (h : size source ≤ offset) :
    source.tokensFrom offset = [] := by
  cases hsuffix : source.suffix? offset with
  | none => simp [tokensFrom, hsuffix]
  | some rest =>
      have hsize := suffix?_size_le hsuffix
      have hnil : rest = [] := by
        by_cases hne : rest = []
        · exact hne
        · have hpos := size_pos hne
          omega
      rw [tokensFrom_of_suffix? hsuffix, hnil, tokensAt_nil]

theorem Holds.stop_le_size {source : Source} {token : Token} {body after : Source}
    (h : Holds source token body after) : token.span.stop ≤ size source := by
  have := suffix?_size_le h.found_after
  omega

theorem Holds.ne_end {source : Source} {token : Token} {body after : Source}
    (h : Holds source token body after) : token.kind ≠ .endOfSource := by
  have hne : body ++ after ≠ [] := by simp [h.nonempty]
  have := Lexeme.classify_ne_end hne
  rwa [h.classified] at this

/-- Nothing stands behind a string that is not terminated. -/
theorem Holds.after_eq_nil {source : Source} {token : Token} {body after : Source}
    (h : Holds source token body after) (hkind : token.kind = .unterminatedString) : after = [] := by
  have hne : body ++ after ≠ [] := by simp [h.nonempty]
  have hlength := Lexeme.classify_unterminated hne (by rw [h.classified, hkind])
  rw [h.classified, List.length_append] at hlength
  simp only at hlength
  exact List.eq_nil_of_length_eq_zero (by omega)

/-- A token of the vocabulary is written as one of the spellings. -/
theorem Holds.mem_vocabulary {source : Source} {token : Token} {body after : Source}
    (h : Holds source token body after) (hkind : token.kind.inVocabulary = true) :
    (body, token.kind) ∈ Lexeme.vocabulary := by
  have hne : body ++ after ≠ [] := by simp [h.nonempty]
  have hclassified : (Lexeme.classify (body ++ after)).1.inVocabulary = true := by
    rwa [h.classified]
  obtain ⟨entry, hmem, hspells, heq⟩ := Lexeme.mem_vocabulary_of_classify hne hclassified
  rw [h.classified, Prod.mk.injEq] at heq
  obtain ⟨tail, htail⟩ := Lexeme.isPrefixOf_of_spells hspells
  have hbody : entry.1 = body := (List.append_inj htail heq.2.symm).1
  rw [← hbody, heq.1]
  exact hmem

theorem Holds.tokensFrom_start {source : Source} {token : Token} {body after : Source}
    (h : Holds source token body after) :
    source.tokensFrom token.span.start = token :: source.tokensFrom token.span.stop := by
  have hne : body ++ after ≠ [] := by simp [h.nonempty]
  rw [tokensFrom_of_suffix? h.found, tokensAt_eq hne, h.classified]
  simp only [h.significant, Bool.false_eq_true, ↓reduceIte, List.take_left, List.drop_left,
    ← h.stop]
  rw [tokensFrom_of_suffix? h.found_after, ← h.text]

/-- The first token from an offset on stands at its place, and the others are read from where it
ends. -/
theorem tokensFrom_eq_cons {source : Source} {offset : Nat} {token : Token} {rest : List Token}
    (h : source.tokensFrom offset = token :: rest) :
    ∃ body after, Holds source token body after ∧ offset ≤ token.span.start ∧
      rest = source.tokensFrom token.span.stop := by
  obtain ⟨text, htext⟩ : ∃ text, source.suffix? offset = some text := by
    cases hsuffix : source.suffix? offset with
    | none => simp [tokensFrom, hsuffix] at h
    | some text => exact ⟨text, rfl⟩
  induction text using pieces_induction generalizing offset with
  | nil => simp [tokensFrom_of_suffix? htext] at h
  | piece text hne ih =>
      have hsplit := List.take_append_drop (Lexeme.classify text).2 text
      have hpos := Lexeme.classify_pos hne
      have hle := Lexeme.classify_le_length text
      set body := text.take (Lexeme.classify text).2 with hbody
      set after := text.drop (Lexeme.classify text).2 with hafter
      have hlength : body.length = (Lexeme.classify text).2 := by
        simp [hbody, hle]
      have hnonempty : body ≠ [] := by
        intro hnil
        simp [hnil] at hlength
        omega
      have hsuffix : source.suffix? (offset + size body) = some after := by
        obtain ⟨before, hsource, hsize⟩ := suffix?_eq_some_iff.mp htext
        refine suffix?_eq_some_iff.mpr ⟨before ++ body, ?_, by simp [hsize]⟩
        rw [hsource, List.append_assoc, hsplit]
      rw [tokensFrom_of_suffix? htext, tokensAt_eq hne] at h
      simp only [← hbody, ← hafter] at h
      split at h
      · rw [← tokensFrom_of_suffix? hsuffix] at h
        obtain ⟨tokenBody, tokenAfter, hholds, hstart, hrest⟩ := ih h hsuffix
        exact ⟨tokenBody, tokenAfter, hholds, by omega, hrest⟩
      · rename_i hsignificant
        obtain ⟨rfl, rfl⟩ := List.cons.inj h
        refine ⟨body, after, ⟨?_, rfl, hnonempty, ?_, ?_, rfl⟩, Nat.le_refl _, ?_⟩
        · simpa [hsplit] using htext
        · rw [hsplit, hlength]
        · simpa using hsignificant
        · exact (tokensFrom_of_suffix? hsuffix).symm

end Source
end ScriptSyntax
