import ScriptSyntax.Proofs.Respacing

/-!
# Words and symbols are read whole

A run of letters, digits and underscores is one piece.  It is a keyword or an operator only if the
whole run is spelled like one.  Where no word can start, nor anything else that is read by a rule of
its own, the longest spelling of the vocabulary is cut off.
-/

namespace ScriptSyntax.Lexeme

/-! ## Words -/

theorem mem_vocabulary_keyword {text : String} {word : Keyword}
    (h : Lexicon.spelled text = some word) : (text.toList, .keyword word) ∈ vocabulary := by
  have hlisted : (text, word) ∈ Lexicon.allSpellings Keyword := by
    apply List.mem_flatMap.mpr
    refine ⟨word, Keyword.mem_entries word, ?_⟩
    exact List.mem_map.mpr ⟨text, Lexicon.mem_spellings_of_spelled h, rfl⟩
  apply List.mem_append_left
  apply List.mem_append_left
  exact List.mem_map.mpr ⟨(text, word), hlisted, rfl⟩

theorem mem_vocabulary_operator {text : String} {word : Operator}
    (h : Lexicon.spelled text = some word) : (text.toList, .operator word) ∈ vocabulary := by
  have hlisted : (text, word) ∈ Lexicon.allSpellings Operator := by
    apply List.mem_flatMap.mpr
    refine ⟨word, Operator.mem_entries word, ?_⟩
    exact List.mem_map.mpr ⟨text, Lexicon.mem_spellings_of_spelled h, rfl⟩
  apply List.mem_append_left
  apply List.mem_append_right
  exact List.mem_map.mpr ⟨(text, word), hlisted, rfl⟩

theorem vocabulary_unique :
    ∀ first ∈ vocabulary, ∀ second ∈ vocabulary, first.1 = second.1 → first.2 = second.2 := by
  decide +kernel

theorem exists_spelling {text : List Char} {entry : List Char × TokenKind} (hmem : entry ∈ vocabulary)
    (hspells : spells text entry = true) : ∃ piece, spelling? text = some piece := by
  have hfound : ∃ piece, spelling? text = some piece ∧ 0 ≤ piece.2 := by
    apply foldl_longer_spec
    exact .inr ⟨entry, List.mem_filter.mpr ⟨hmem, hspells⟩, Nat.zero_le _⟩
  obtain ⟨piece, hpiece, -⟩ := hfound
  exact ⟨piece, hpiece⟩

theorem classify_reserved {word : List Char} {kind : TokenKind} (hword : isWord word = true)
    (hreserved : isReserved (String.ofList word) = true) (hmem : (word, kind) ∈ vocabulary) :
    classify word = (kind, word.length) := by
  have hends : endsWord [] := rfl
  have hidentifier : identifier? word = none := by
    have h := identifier?_word hword hends
    rwa [List.append_nil, if_pos hreserved] at h
  have hspells (entry : List Char × TokenKind) (hentry : entry ∈ vocabulary) :
      spells word entry = decide (entry.1 = word) := by
    have h := spells_word hentry hword hends
    rwa [List.append_nil] at h
  have hclassify : classify word = ((spelling? word).getD (.unrecognized, 1)) := by
    cases word with
    | nil => cases hword
    | cons c rest => rw [classify_wordStart (isWord_cons hword).1, hidentifier, Option.none_or]
  have hfound : spells word (word, kind) = true := by simp [hspells _ hmem]
  obtain ⟨piece, hpiece⟩ := exists_spelling hmem hfound
  obtain ⟨entry, hentry, hspelled, rfl⟩ := mem_vocabulary_of_spelling? hpiece
  have hsame : entry.1 = word := by simpa [hspells entry hentry] using hspelled
  have hkind : entry.2 = kind := vocabulary_unique entry hentry (word, kind) hmem hsame
  rw [hclassify, hpiece, Option.getD_some, hkind, hsame]

/-- The kind of a run that is read as a word. -/
structure NamesKind (word : List Char) (kind : TokenKind) : Prop where
  keyword : ∀ found : Keyword, Lexicon.spelled (String.ofList word) = some found →
    kind = .keyword found
  operator : ∀ found : Operator, Lexicon.spelled (String.ofList word) = some found →
    kind = .operator found
  identifier : (Lexicon.spelled (String.ofList word) : Option Keyword) = none →
    (Lexicon.spelled (String.ofList word) : Option Operator) = none → kind = .identifier

theorem classify_names {word rest : List Char} (hword : isWord word = true)
    (hrest : endsWord rest) :
    (classify (word ++ rest)).2 = word.length ∧ NamesKind word (classify (word ++ rest)).1 := by
  rw [classify_word hword hrest]
  refine ⟨classify_word_length hword, ?_, ?_, ?_⟩
  · intro found hfound
    have hmem := mem_vocabulary_keyword hfound
    rw [String.toList_ofList] at hmem
    rw [classify_reserved hword (by simp [isReserved, hfound]) hmem]
  · intro found hfound
    have hmem := mem_vocabulary_operator hfound
    rw [String.toList_ofList] at hmem
    rw [classify_reserved hword (by simp [isReserved, hfound]) hmem]
  · intro hkeyword hoperator
    have hplain : isReserved (String.ofList word) = false := by
      simp [isReserved, hkeyword, hoperator]
    have hidentifier := classify_identifier hword hplain (show endsWord [] from rfl)
    rw [List.append_nil] at hidentifier
    rw [hidentifier]

theorem takeWhile_wordPart {c : Char} (hc : isWordStart c = true) (rest : List Char) :
    ∃ more, c :: rest = (c :: rest).takeWhile isWordPart ++ more ∧
      isWord ((c :: rest).takeWhile isWordPart) = true ∧ endsWord more := by
  obtain ⟨word, more, hsplit, hword, hmore⟩ := exists_word hc rest
  have htake : (c :: rest).takeWhile isWordPart = word := by
    have hall : word.all isWordPart = true := (Bool.and_eq_true_iff.mp hword).2
    have hlength := run_word hall hmore
    have hstart := List.takeWhile_prefix (l := word ++ more) isWordPart
    rw [hsplit]
    exact (List.prefix_of_prefix_length_le hstart (List.prefix_append word more)
      (Nat.le_of_eq hlength)).eq_of_length hlength
  refine ⟨more, ?_, ?_, hmore⟩
  · rw [htake, hsplit]
  · rw [htake]
    exact hword

/-! ## Symbols -/

/-- The text is not empty, and it starts with no letter, underscore, blank, byte order mark, comment,
number or quote. -/
def startsSymbol : List Char → Bool
  | [] => false
  | c :: rest =>
      !(isWordStart c || isBlank c || c == byteOrderMark ||
        c == '/' && rest.head?.any (fun d => d == '/' || d == '*') ||
        c.isDigit || c == '.' && rest.head?.any Char.isDigit || c == '"' || c == '\'')

/-- The spelling stands at the start of the text.  `!is` does not count where a word goes on behind
it. -/
def Opens (spelling text : List Char) : Prop :=
  spelling <+: text ∧
    ¬(spelling = ['!', 'i', 's'] ∧ (text.drop spelling.length).head?.any isWordPart = true)

structure LongestAt (text : List Char) (entry : List Char × TokenKind) : Prop where
  listed : entry ∈ vocabulary
  opens : Opens entry.1 text
  longest : ∀ other ∈ vocabulary, Opens other.1 text → other.1.length ≤ entry.1.length

theorem classify_symbol {c : Char} {rest : List Char} (h : startsSymbol (c :: rest) = true) :
    classify (c :: rest) = (spelling? (c :: rest)).getD (.unrecognized, 1) := by
  simp only [startsSymbol, Bool.not_eq_true', Bool.or_eq_false_iff, beq_eq_false_iff_ne] at h
  obtain ⟨⟨⟨⟨⟨⟨⟨hword, hblank⟩, hmark⟩, hcomment⟩, hdigit⟩, hdot⟩, hdouble⟩, hsingle⟩ := h
  have hnoBlank : blank? (c :: rest) = none := by simp [blank?, hmark, hblank]
  have hnoComment : comment? (c :: rest) = none := by
    unfold comment?
    split <;> simp_all
  have hnoNumeral : numeral? (c :: rest) = none := by
    have hstart : startsNumeral (c :: rest) = false := by
      unfold startsNumeral
      split <;> simp_all
    simp [numeral?, hstart]
  have hnoQuotation : quotation? (c :: rest) = none := by simp [quotation?, hdouble, hsingle]
  have hnoIdentifier : identifier? (c :: rest) = none := by simp [identifier?, hword]
  rw [classify_cons, hnoBlank, hnoComment, hnoNumeral, hnoQuotation, hnoIdentifier]
  rfl

/-- Of the spellings that start with no letter only one ends in a letter. -/
theorem vocabulary_symbol : ∀ entry ∈ vocabulary, entry.1.head?.any isWordStart = false →
    entry.1.getLast?.any Char.isAlphanum = decide (entry.1 = ['!', 'i', 's']) := by
  decide

theorem spells_iff_opens {c : Char} {rest : List Char} {entry : List Char × TokenKind}
    (hc : isWordStart c = false) (hmem : entry ∈ vocabulary) :
    spells (c :: rest) entry = true ↔ Opens entry.1 (c :: rest) := by
  unfold spells Opens
  rw [Bool.and_eq_true, List.isPrefixOf_iff_prefix]
  apply and_congr_right
  intro hstart
  have hhead : entry.1.head?.any isWordStart = false := by
    obtain ⟨first, others, heq⟩ := List.exists_cons_of_ne_nil (vocabulary_ne_nil entry hmem)
    rw [heq, List.cons_prefix_cons] at hstart
    simpa [heq, hstart.1] using hc
  simpa [splitsWord, vocabulary_symbol entry hmem hhead] using Decidable.imp_iff_not_or.symm

/-- The text starts with `!` wherever it starts with `!is`. -/
theorem exists_opens {text : List Char} {entry : List Char × TokenKind} (hmem : entry ∈ vocabulary)
    (hstart : entry.1 <+: text) : ∃ other ∈ vocabulary, Opens other.1 text := by
  by_cases hlong : entry.1 = ['!', 'i', 's']
  · refine ⟨(['!'], .operator .not), by decide, ?_, by simp⟩
    rw [hlong] at hstart
    exact List.IsPrefix.trans ⟨['i', 's'], rfl⟩ hstart
  · exact ⟨entry, hmem, hstart, fun h => hlong h.1⟩

theorem classify_longest {text : List Char} (h : startsSymbol text = true) :
    (∃ entry, LongestAt text entry ∧ classify text = (entry.2, entry.1.length)) ∨
      (∀ entry ∈ vocabulary, ¬entry.1 <+: text) ∧ classify text = (.unrecognized, 1) := by
  cases text with
  | nil => cases h
  | cons c rest =>
      have hclassify := classify_symbol h
      have hc : isWordStart c = false := by simp_all [startsSymbol]
      cases hspelling : spelling? (c :: rest) with
      | some piece =>
          rw [hspelling, Option.getD_some] at hclassify
          obtain ⟨entry, hmem, hspells, rfl⟩ := mem_vocabulary_of_spelling? hspelling
          refine .inl ⟨entry, ⟨hmem, (spells_iff_opens hc hmem).mp hspells, ?_⟩, hclassify⟩
          intro other hother hopens
          exact length_le_of_spells (by rw [hspelling, Option.getD_some]) hother
            ((spells_iff_opens hc hother).mpr hopens)
      | none =>
          rw [hspelling, Option.getD_none] at hclassify
          refine .inr ⟨?_, hclassify⟩
          intro entry hmem hstart
          obtain ⟨other, hother, hopens⟩ := exists_opens hmem hstart
          obtain ⟨piece, hpiece⟩ := exists_spelling hother ((spells_iff_opens hc hother).mpr hopens)
          rw [hspelling] at hpiece
          cases hpiece

/-- A run of letters, digits and underscores is cut off whole and named by the tables, and of the
spellings at the start of any other text the longest one is cut off, or one character if there is
none. -/
theorem pieces_whole (text : List Char) :
    (text.head?.any isWordStart = true →
      (classify text).2 = (text.takeWhile isWordPart).length ∧
        NamesKind (text.takeWhile isWordPart) (classify text).1) ∧
    (startsSymbol text = true →
      (∃ entry, LongestAt text entry ∧ classify text = (entry.2, entry.1.length)) ∨
        (∀ entry ∈ vocabulary, ¬entry.1 <+: text) ∧ classify text = (.unrecognized, 1)) := by
  constructor
  · intro hstart
    cases text with
    | nil => cases hstart
    | cons c rest =>
        obtain ⟨more, hsplit, hword, hmore⟩ := takeWhile_wordPart hstart rest
        have hnames := classify_names hword hmore
        rwa [← hsplit] at hnames
  · exact classify_longest

/-- A name that goes on behind a keyword, and a negation in front of a name. -/
theorem pieces_whole_names :
    (classify "instance of".toList).2 = 8 ∧
      NamesKind "instance".toList (classify "instance of".toList).1 ∧
    ((∃ entry, LongestAt "!isReady".toList entry ∧
        classify "!isReady".toList = (entry.2, entry.1.length)) ∨
      (∀ entry ∈ vocabulary, ¬entry.1 <+: "!isReady".toList) ∧
        classify "!isReady".toList = (.unrecognized, 1)) := by
  have hword := (pieces_whole "instance of".toList).1 (by decide)
  have hsymbol := (pieces_whole "!isReady".toList).2 (by decide)
  exact ⟨hword.1, hword.2, hsymbol⟩

example : classify "!isReady".toList = (.operator .not, 1) := by decide +kernel

end ScriptSyntax.Lexeme
