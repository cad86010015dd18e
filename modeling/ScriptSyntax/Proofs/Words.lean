import ScriptSyntax.Proofs.AngleBrackets

/-!
# Words and marks in any surroundings

A word is read the same whatever stands behind it, as long as that does not go on with the word.  A
mark that no longer spelling starts with is read the same whatever stands behind it.
-/

namespace ScriptSyntax

namespace Lexeme

/-! ## Words -/

/-- A text that is one word: letters, digits and underscores, the first of them no digit. -/
def isWord (text : List Char) : Bool :=
  text.head?.any isWordStart && text.all isWordPart

/-- The text goes on with no word. -/
def endsWord (rest : List Char) : Prop :=
  rest.head?.any isWordPart = false

theorem isWord_cons {c : Char} {rest : List Char} (h : isWord (c :: rest) = true) :
    isWordStart c = true ∧ rest.all isWordPart = true := by
  simp only [isWord, List.head?_cons, Option.any_some, List.all_cons, Bool.and_eq_true] at h
  exact ⟨h.1, h.2.2⟩

theorem ne_of_isWordStart {c d : Char} (hc : isWordStart c = true) (hd : isWordStart d = false) :
    c ≠ d := by
  rintro rfl
  rw [hc] at hd
  cases hd

theorem isDigit_of_isWordStart {c : Char} (hc : isWordStart c = true) : c.isDigit = false := by
  unfold isWordStart at hc
  delta Char.isAlpha Char.isUpper Char.isLower at hc
  simp only [Bool.or_eq_true, Bool.and_eq_true, decide_eq_true_eq, beq_iff_eq,
    UInt32.le_iff_toNat_le, ge_iff_le] at hc
  simp only [Char.isDigit, Bool.and_eq_false_iff, decide_eq_false_iff_not, UInt32.le_iff_toNat_le,
    ge_iff_le]
  change ((65 ≤ c.toNat ∧ c.toNat ≤ 90) ∨ (97 ≤ c.toNat ∧ c.toNat ≤ 122)) ∨ c = '_' at hc
  change ¬48 ≤ c.toNat ∨ ¬c.toNat ≤ 57
  rcases hc with (hupper | hlower) | rfl
  · omega
  · omega
  · decide

/-- A text that starts like a word is an identifier or starts with a spelling. -/
theorem classify_wordStart {c : Char} {rest : List Char} (hc : isWordStart c = true) :
    classify (c :: rest) =
      ((identifier? (c :: rest)).or (spelling? (c :: rest))).getD (.unrecognized, 1) := by
  have hne (d : Char) (hd : isWordStart d = false) : c ≠ d := ne_of_isWordStart hc hd
  have hblank : blank? (c :: rest) = none := by
    have hplain : isBlank c = false := by
      simp [isBlank, hne ' ' rfl, hne '\t' rfl, hne '\r' rfl, hne '\n' rfl]
    simp [blank?, hplain, hne byteOrderMark rfl]
  have hcomment : comment? (c :: rest) = none := by
    simp [comment?, hne '/' rfl]
  have hnumeral : numeral? (c :: rest) = none := by
    have hstart : startsNumeral (c :: rest) = false := by
      unfold startsNumeral
      split
      · rename_i heq
        exact absurd (List.cons.inj heq).1 (hne '.' rfl)
      · rename_i heq
        rw [← (List.cons.inj heq).1]
        exact isDigit_of_isWordStart hc
      · rfl
    simp [numeral?, hstart]
  have hquotation : quotation? (c :: rest) = none := by
    simp [quotation?, hne '"' rfl, hne '\'' rfl]
  rw [classify_cons, hblank, hcomment, hnumeral, hquotation]
  rfl

theorem run_word {word rest : List Char} (hword : word.all isWordPart = true)
    (hrest : endsWord rest) : run isWordPart (word ++ rest) = word.length := by
  have hnone : rest.takeWhile isWordPart = [] := by
    cases rest with
    | nil => rfl
    | cons d behind =>
        have hd : isWordPart d = false := hrest
        simp [hd]
  rw [run, List.takeWhile_append_of_pos (List.all_eq_true.mp hword), hnone, List.append_nil]

theorem identifier?_word {word rest : List Char} (hword : isWord word = true)
    (hrest : endsWord rest) :
    identifier? (word ++ rest) =
      if isReserved (String.ofList word) then none else some (.identifier, word.length) := by
  cases word with
  | nil => cases hword
  | cons c others =>
      obtain ⟨hc, hothers⟩ := isWord_cons hword
      have htake : (c :: (others ++ rest)).take (others.length + 1) = c :: others := by simp
      rw [List.cons_append]
      unfold identifier?
      dsimp only
      rw [run_word hothers hrest, htake, hc]
      cases isReserved (String.ofList (c :: others)) <;> rfl

theorem vocabulary_word : ∀ entry ∈ vocabulary, entry.1.head?.any isWordStart = true →
    entry.1.all isWordPart = true ∧ entry.1.getLast?.any Char.isAlphanum = true := by
  decide

/-- The spelling of a word at the start of a text is the whole word. -/
theorem spells_word {word rest : List Char} {entry : List Char × TokenKind}
    (hentry : entry ∈ vocabulary) (hword : isWord word = true) (hrest : endsWord rest) :
    spells (word ++ rest) entry = decide (entry.1 = word) := by
  rw [Bool.eq_iff_iff, decide_eq_true_iff]
  obtain ⟨c, others, rfl⟩ : ∃ c others, word = c :: others := by
    cases word with
    | nil => cases hword
    | cons c others => exact ⟨c, others, rfl⟩
  constructor
  · intro hspells
    obtain ⟨behind, hbehind⟩ := isPrefixOf_of_spells hspells
    have hhead : entry.1.head?.any isWordStart = true := by
      obtain ⟨d, tail, heq⟩ := List.exists_cons_of_ne_nil (vocabulary_ne_nil entry hentry)
      rw [heq, List.cons_append, List.cons_append] at hbehind
      rw [heq, List.head?_cons, Option.any_some, (List.cons.inj hbehind).1]
      exact (isWord_cons hword).1
    obtain ⟨hparts, hlast⟩ := vocabulary_word entry hentry hhead
    have hsplits : splitsWord entry.1 ((c :: others ++ rest).drop entry.1.length) = false := by
      simp only [spells, Bool.and_eq_true, Bool.not_eq_true'] at hspells
      exact hspells.2
    -- Neither text goes on with a word behind the other one.
    rcases List.append_eq_append_iff.mp hbehind with ⟨more, hmore, hrest'⟩ | ⟨more, hmore, hrest'⟩
    · cases more with
      | nil => simpa using hmore.symm
      | cons d tail =>
          have hd : isWordPart d = true := by
            have hall : (entry.1 ++ d :: tail).all isWordPart = true := by
              rw [← hmore]
              simpa [isWord] using (Bool.and_eq_true_iff.mp hword).2
            simp only [List.all_append, List.all_cons, Bool.and_eq_true] at hall
            exact hall.2.1
          rw [hmore, List.append_assoc, List.drop_left, splitsWord, hlast] at hsplits
          simp [hd] at hsplits
    · cases more with
      | nil => simpa using hmore
      | cons d tail =>
          have hd : isWordPart d = true := by
            rw [hmore] at hparts
            simp only [List.all_append, List.all_cons, Bool.and_eq_true] at hparts
            exact hparts.2.1
          rw [hrest'] at hrest
          have hstop : isWordPart d = false := hrest
          rw [hd] at hstop
          cases hstop
  · rintro heq
    have hinitial : entry.1.isPrefixOf (c :: others ++ rest) = true :=
      List.isPrefixOf_iff_prefix.mpr (heq ▸ List.prefix_append _ _)
    have hstop : rest.head?.any isWordPart = false := hrest
    rw [spells, hinitial, heq, List.drop_left, splitsWord, hstop, Bool.and_false]
    rfl

theorem spelling?_word {word rest : List Char} (hword : isWord word = true)
    (hrest : endsWord rest) : spelling? (word ++ rest) = spelling? word := by
  have hfilter : vocabulary.filter (spells (word ++ rest)) = vocabulary.filter (spells word) := by
    refine List.filter_congr fun entry hmem => ?_
    have halone := spells_word hmem hword (show endsWord [] from rfl)
    rw [List.append_nil] at halone
    rw [spells_word hmem hword hrest, halone]
  rw [spelling?, hfilter, spelling?]

/-- A word is read the same if the text behind it does not go on with it. -/
theorem classify_word {word rest : List Char} (hword : isWord word = true)
    (hrest : endsWord rest) : classify (word ++ rest) = classify word := by
  have halone := identifier?_word hword (show endsWord [] from rfl)
  rw [List.append_nil] at halone
  have hidentifier : identifier? (word ++ rest) = identifier? word := by
    rw [identifier?_word hword hrest, halone]
  have hspelling := spelling?_word hword hrest
  cases word with
  | nil => cases hword
  | cons c others =>
      have hc := (isWord_cons hword).1
      rw [List.cons_append] at hidentifier hspelling ⊢
      rw [classify_wordStart hc, classify_wordStart hc, hidentifier, hspelling]

theorem classify_identifier {word rest : List Char} (hword : isWord word = true)
    (hplain : isReserved (String.ofList word) = false) (hrest : endsWord rest) :
    classify (word ++ rest) = (.identifier, word.length) := by
  have hidentifier := identifier?_word hword hrest
  cases word with
  | nil => cases hword
  | cons c others =>
      rw [List.cons_append] at hidentifier ⊢
      rw [classify_wordStart (isWord_cons hword).1, hidentifier, hplain]
      rfl

/-! ## Marks -/

/-- A character that only spellings start with. -/
def startsMark (c : Char) : Bool :=
  !(c == byteOrderMark || isBlank c || c == '/' || c == '.' || c.isDigit || c == '"' || c == '\'' ||
    isWordStart c)

theorem classify_mark {c : Char} {rest : List Char} (hc : startsMark c = true) :
    classify (c :: rest) = (spelling? (c :: rest)).getD (.unrecognized, 1) := by
  simp only [startsMark, Bool.not_eq_true', Bool.or_eq_false_iff, beq_eq_false_iff_ne] at hc
  obtain ⟨⟨⟨⟨⟨⟨⟨hmark, hblank⟩, hslash⟩, hdot⟩, hdigit⟩, hdouble⟩, hsingle⟩, hword⟩ := hc
  have hstart : startsNumeral (c :: rest) = false := by
    unfold startsNumeral
    split
    · rename_i heq
      exact absurd (List.cons.inj heq).1 hdot
    · rename_i heq
      rw [← (List.cons.inj heq).1]
      exact hdigit
    · rfl
  rw [classify_cons]
  simp [blank?, hmark, hblank, comment?, hslash, numeral?, hstart, quotation?, hdouble, hsingle,
    identifier?, hword]

/-- A mark of one character that no other spelling starts with. -/
theorem classify_alone {c : Char} {kind : TokenKind} (rest : List Char) (hc : startsMark c = true)
    (halone : vocabulary.filter (fun entry => entry.1.head? = some c) = [([c], kind)])
    (hword : Char.isAlphanum c = false) : classify (c :: rest) = (kind, 1) := by
  rw [classify_mark hc, spelling?, filter_spells, halone]
  simp [spells, splitsWord, hword, List.isPrefixOf, longer]

theorem classify_comma (rest : List Char) : classify (',' :: rest) = (.comma, 1) :=
  classify_alone rest (by decide) (by decide) (by decide)

theorem classify_openBracket (rest : List Char) : classify ('[' :: rest) = (.openBracket, 1) :=
  classify_alone rest (by decide) (by decide) (by decide)

theorem classify_closeBracket (rest : List Char) : classify (']' :: rest) = (.closeBracket, 1) :=
  classify_alone rest (by decide) (by decide) (by decide)

theorem classify_handle (rest : List Char) : classify ('@' :: rest) = (.handle, 1) :=
  classify_alone rest (by decide) (by decide) (by decide)

theorem vocabulary_colon :
    vocabulary.filter (fun entry => entry.1.head? = some ':') =
      [([':'], .colon), ([':', ':'], .scope)] := by
  decide

theorem classify_scope (rest : List Char) : classify (':' :: ':' :: rest) = (.scope, 2) := by
  rw [classify_mark (by decide), spelling?, filter_spells, vocabulary_colon]
  simp [spells_symbol (show [':'].getLast?.any Char.isAlphanum = false by decide),
    spells_symbol (show [':', ':'].getLast?.any Char.isAlphanum = false by decide),
    List.isPrefixOf, longer]

theorem vocabulary_less :
    vocabulary.filter (fun entry => entry.1.head? = some '<') =
      [(['<', '<', '='], .operator .shiftLeftAssign), (['<'], .operator .less),
        (['<', '='], .operator .lessEqual), (['<', '<'], .operator .shiftLeft)] := by
  decide

theorem classify_less {rest : List Char}
    (hrest : rest.head?.any (fun c => c == '<' || c == '=') = false) :
    classify ('<' :: rest) = (.less, 1) := by
  rw [classify_mark (by decide), spelling?, filter_spells, vocabulary_less]
  cases rest with
  | nil => decide
  | cons c others =>
      simp only [List.head?_cons, Option.any_some, Bool.or_eq_false_iff, beq_eq_false_iff_ne] at hrest
      simp [spells_symbol (show ['<'].getLast?.any Char.isAlphanum = false by decide),
        spells_symbol (show ['<', '='].getLast?.any Char.isAlphanum = false by decide),
        spells_symbol (show ['<', '<'].getLast?.any Char.isAlphanum = false by decide),
        spells_symbol (show ['<', '<', '='].getLast?.any Char.isAlphanum = false by decide),
        List.isPrefixOf, longer, Ne.symm hrest.1, Ne.symm hrest.2]

end Lexeme

end ScriptSyntax
