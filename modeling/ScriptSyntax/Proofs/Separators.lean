import ScriptSyntax.Proofs.Lexing

/-!
# Texts behind each other

A line break or a semicolon is part of no word, number or longer operator.  So a piece that ends
before it does not depend on what follows it; only blanks, comments and quotations may go on behind
it.  The tokens of a text whose last one is no quotation are followed by those of the text behind the
separator, and these do not depend on where the text stands.
-/

namespace ScriptSyntax

/-- The kinds of pieces that may go on behind a separator. -/
def TokenKind.goesOn : TokenKind → Bool
  | whitespace | lineComment | blockComment | heredocString | unterminatedString => true
  | _ => false

namespace Lexeme

def IsSeparator (c : Char) : Prop :=
  c = '\n' ∨ c = ';'

/-- What a reader answers about a text, and about the text with a separator and more behind it: the
same, unless all of the text is one piece that goes on. -/
inductive Parted (text : List Char) :
    Option (TokenKind × Nat) → Option (TokenKind × Nat) → Prop
  | same {found : Option (TokenKind × Nat)} : Parted text found found
  | longer {piece piece' : TokenKind × Nat} (hkind : piece.1.goesOn = true)
      (hwhole : piece.2 = text.length) (hlonger : text.length < piece'.2) :
      Parted text (some piece) (some piece')

variable {text more : List Char} {c : Char}

/-! ## Runs and marks -/

theorem run_parted {test : Char → Bool} (hc : test c = false) :
    run test (text ++ c :: more) = run test text := by
  induction text with
  | nil => simp [run, hc]
  | cons d rest ih =>
      unfold run at ih ⊢
      rw [List.cons_append, List.takeWhile_cons, List.takeWhile_cons]
      split
      · rw [List.length_cons, List.length_cons, ih]
      · rfl

theorem prefix_parted {mark : List Char} (hc : mark.length ≤ text.length ∨ c ∉ mark) :
    mark <+: text ++ c :: more ↔ mark <+: text := by
  refine ⟨fun hlong => ?_, fun hshort => hshort.trans (List.prefix_append _ _)⟩
  refine List.prefix_of_prefix_length_le hlong (List.prefix_append _ _) ?_
  rcases hc with hle | hc
  · exact hle
  · refine Nat.le_of_not_lt fun hlt => hc ?_
    obtain ⟨behind, hbehind⟩ := hlong
    have hat : mark[text.length]? = some c := by
      have hmark : mark[text.length]? = (mark ++ behind)[text.length]? :=
        (List.getElem?_append_left hlt).symm
      rw [hmark, hbehind,
        List.getElem?_append_right (Nat.le_refl _), Nat.sub_self, List.getElem?_cons_zero]
    exact List.mem_of_getElem? hat

theorem through_cons_pos {mark : List Char} (hmark : mark ≠ []) (d : Char) (rest : List Char) :
    0 < through mark (d :: rest) := by
  rw [through]
  split
  · exact List.length_pos_iff.mpr hmark
  · exact Nat.succ_pos _

/-- A mark is found where it was, or what is passed goes on behind the text. -/
theorem through_parted {mark : List Char} (hmark : mark ≠ []) (hc : mark.length = 1 ∨ c ∉ mark) :
    through mark (text ++ c :: more) = through mark text ∨
      through mark text = text.length ∧ text.length < through mark (text ++ c :: more) := by
  induction text with
  | nil => exact .inr ⟨rfl, through_cons_pos hmark c more⟩
  | cons d rest ih =>
      have hinitial : mark.isPrefixOf (d :: rest ++ c :: more) = mark.isPrefixOf (d :: rest) := by
        rw [Bool.eq_iff_iff, List.isPrefixOf_iff_prefix, List.isPrefixOf_iff_prefix]
        refine prefix_parted (hc.imp_left fun hone => ?_)
        rw [hone, List.length_cons]
        omega
      rw [List.cons_append] at hinitial ⊢
      rw [through, through, hinitial]
      split
      · exact .inl rfl
      · rcases ih with heq | ⟨hwhole, hlonger⟩
        · exact .inl (by rw [heq])
        · exact .inr ⟨by rw [hwhole, List.length_cons], by rw [List.length_cons]; omega⟩

theorem closing?_append {quote : Char} {even : Bool} {length : Nat}
    (h : closing? quote even text = some length) :
    closing? quote even (text ++ more) = some length := by
  induction text generalizing even length with
  | nil => cases h
  | cons c rest ih =>
      rw [List.cons_append, closing?]
      rw [closing?] at h
      split
      · rename_i hc
        rwa [if_pos hc] at h
      · rename_i hc
        rw [if_neg hc] at h
        obtain ⟨inner, hinner, rfl⟩ := Option.map_eq_some_iff.mp h
        rw [ih hinner]
        rfl

theorem lt_of_closing? {quote : Char} {even : Bool} {length : Nat}
    (h : closing? quote even text = none)
    (hmore : closing? quote even (text ++ more) = some length) : text.length < length := by
  induction text generalizing even length with
  | nil => exact (closing?_bounds hmore).1
  | cons d rest ih =>
      rw [closing?] at h
      rw [List.cons_append, closing?] at hmore
      split at h
      · cases h
      · rename_i hd
        rw [if_neg hd] at hmore
        obtain ⟨inner, hinner, rfl⟩ := Option.map_eq_some_iff.mp hmore
        have hlt := ih (Option.map_eq_none_iff.mp h) hinner
        rw [List.length_cons]
        omega

/-! ## Readers -/

theorem blank?_parted (hne : text ≠ []) :
    Parted text (blank? text) (blank? (text ++ c :: more)) := by
  obtain ⟨d, rest, rfl⟩ := List.exists_cons_of_ne_nil hne
  rw [List.cons_append]
  unfold blank?
  dsimp only
  split
  · exact .same
  split
  · have hrun : run isBlank (rest ++ c :: more) = run isBlank rest ∨
        run isBlank rest = rest.length ∧ rest.length < run isBlank (rest ++ c :: more) := by
      by_cases hc : isBlank c = true
      · induction rest with
        | nil => exact .inr ⟨rfl, run_cons_pos hc⟩
        | cons e rest ih =>
            unfold run at ih ⊢
            rw [List.cons_append, List.takeWhile_cons, List.takeWhile_cons]
            split
            · simp only [List.length_cons]
              have := ih (by simp)
              omega
            · exact .inl rfl
      · exact .inl (run_parted (by simpa using hc))
    rcases hrun with heq | ⟨hwhole, hlonger⟩
    · rw [heq]
      exact .same
    · refine .longer rfl (by simp [hwhole]) ?_
      simp only [List.length_cons]
      omega
  · exact .same

theorem comment?_parted (hne : text ≠ []) (hc : IsSeparator c) :
    Parted text (comment? text) (comment? (text ++ c :: more)) := by
  have hmark : c ≠ '/' ∧ c ≠ '*' := by
    rcases hc with rfl | rfl <;> decide
  have hlonger {kind : TokenKind} {mark rest : List Char} {first second : Char}
      (hkind : kind.goesOn = true) (hne : mark ≠ []) (hsingle : mark.length = 1 ∨ c ∉ mark) :
      Parted (first :: second :: rest) (some (kind, through mark rest + 2))
        (some (kind, through mark (rest ++ c :: more) + 2)) := by
    have hparted : through mark (rest ++ c :: more) = through mark rest ∨
        through mark rest = rest.length ∧ rest.length < through mark (rest ++ c :: more) :=
      through_parted hne hsingle
    rcases hparted with heq | ⟨hwhole, hlt⟩
    · rw [heq]
      exact .same
    · refine .longer hkind (by simp [hwhole]) ?_
      simp only [List.length_cons]
      omega
  unfold comment?
  split
  · exact hlonger rfl (by simp) (.inl rfl)
  · exact hlonger rfl (by simp) (.inr (by simp [hmark]))
  · rename_i hline hblock
    split
    · rename_i rest heq
      cases text with
      | nil => exact absurd rfl hne
      | cons d tail =>
          cases tail with
          | nil => simp_all
          | cons e tail => simp_all
    · rename_i rest heq
      cases text with
      | nil => exact absurd rfl hne
      | cons d tail =>
          cases tail with
          | nil => simp_all
          | cons e tail => simp_all
    · exact .same

theorem quoted_parted (quote : Char) (first : Char) (rest : List Char) :
    Parted (first :: rest) (some (quoted quote rest)) (some (quoted quote (rest ++ c :: more))) := by
  unfold quoted
  cases hclosing : closing? quote true rest with
  | some length =>
      have hle := (closing?_bounds hclosing).2
      rw [closing?_append hclosing]
      simp only [List.take_append_of_le_length hle]
      exact .same
  | none =>
      refine .longer rfl (by simp) ?_
      cases hmore : closing? quote true (rest ++ c :: more) with
      | none =>
          simp only [List.length_cons, List.length_append]
          omega
      | some length =>
          have hlt := lt_of_closing? hclosing hmore
          simp only [List.length_cons]
          omega

theorem quotation?_double {rest : List Char} (h : ¬∃ tail, rest = '"' :: '"' :: tail) :
    quotation? ('"' :: rest) = some (quoted '"' rest) := by
  unfold quotation?
  split
  · rename_i heq
    exact absurd ⟨_, (List.cons.inj heq).2⟩ h
  · rename_i heq
    rw [(List.cons.inj heq).2]
  · rename_i heq
    simp at heq
  · rename_i hno _
    exact absurd rfl (hno rest)

theorem quotation?_other {d : Char} {rest : List Char} (hdouble : d ≠ '"') (hsingle : d ≠ '\'') :
    quotation? (d :: rest) = none := by
  simp [quotation?, hdouble, hsingle]

theorem quotation?_parted (hne : text ≠ []) (hc : IsSeparator c) :
    Parted text (quotation? text) (quotation? (text ++ c :: more)) := by
  have hquote : c ≠ '"' := by
    rcases hc with rfl | rfl <;> decide
  obtain ⟨d, rest, rfl⟩ := List.exists_cons_of_ne_nil hne
  by_cases hdouble : d = '"'
  · subst hdouble
    by_cases hheredoc : ∃ tail, rest = '"' :: '"' :: tail
    · obtain ⟨tail, rfl⟩ := hheredoc
      change Parted _ (some (.heredocString, through ['"', '"', '"'] tail + 3))
        (some (.heredocString, through ['"', '"', '"'] (tail ++ c :: more) + 3))
      have hparted : through ['"', '"', '"'] (tail ++ c :: more) = through ['"', '"', '"'] tail ∨
          through ['"', '"', '"'] tail = tail.length ∧
            tail.length < through ['"', '"', '"'] (tail ++ c :: more) :=
        through_parted (by simp) (.inr (by simp [hquote]))
      rcases hparted with heq | ⟨hwhole, hlt⟩
      · rw [heq]
        exact .same
      · refine .longer rfl (by simp [hwhole]) ?_
        simp only [List.length_cons]
        omega
    · rw [List.cons_append, quotation?_double hheredoc, quotation?_double]
      · exact quoted_parted _ _ _
      · rintro ⟨tail, htail⟩
        match rest, hheredoc, htail with
        | [], _, htail => exact hquote (List.cons.inj htail).1
        | [_], _, htail =>
            simp only [List.cons_append, List.nil_append, List.cons.injEq] at htail
            exact hquote htail.2.1
        | _ :: _ :: _, hheredoc, htail =>
            simp only [List.cons_append, List.cons.injEq] at htail
            exact hheredoc ⟨_, by rw [htail.1, htail.2.1]⟩
  · by_cases hsingle : d = '\''
    · subst hsingle
      exact quoted_parted _ _ _
    · rw [List.cons_append, quotation?_other hdouble hsingle, quotation?_other hdouble hsingle]
      exact .same

theorem fraction_parted (hc : IsSeparator c) : fraction (text ++ c :: more) = fraction text := by
  have hdigit : c.isDigit = false := by
    rcases hc with rfl | rfl <;> decide
  cases text with
  | nil => rcases hc with rfl | rfl <;> rfl
  | cons d rest =>
      rw [List.cons_append]
      unfold fraction
      split
      · rename_i heq
        obtain ⟨rfl, rfl⟩ := List.cons.inj heq
        simp [run_parted hdigit]
      · rename_i hno
        split
        · rename_i heq
          obtain ⟨rfl, rfl⟩ := List.cons.inj heq
          exact absurd rfl (hno _)
        · rfl

theorem signedDigits_parted (hc : IsSeparator c) :
    signedDigits (text ++ c :: more) = signedDigits text := by
  have hdigit : c.isDigit = false := by
    rcases hc with rfl | rfl <;> decide
  have hdigits : run Char.isDigit (text ++ c :: more) = run Char.isDigit text :=
    run_parted hdigit
  cases text with
  | nil => rcases hc with rfl | rfl <;> rfl
  | cons d rest =>
      have hrest : run Char.isDigit (rest ++ c :: more) = run Char.isDigit rest :=
        run_parted hdigit
      rw [List.cons_append] at hdigits ⊢
      by_cases hplus : d = '+'
      · subst hplus
        simp [signedDigits, hrest]
      · by_cases hminus : d = '-'
        · subst hminus
          simp [signedDigits, hrest]
        · simp [signedDigits, hplus, hminus, hdigits]

theorem exponent_parted (hc : IsSeparator c) : exponent (text ++ c :: more) = exponent text := by
  cases text with
  | nil => rcases hc with rfl | rfl <;> rfl
  | cons d rest =>
      rw [List.cons_append]
      by_cases hlower : d = 'e'
      · subst hlower
        simp [exponent, signedDigits_parted hc]
      · by_cases hupper : d = 'E'
        · subst hupper
          simp [exponent, signedDigits_parted hc]
        · simp [exponent, hlower, hupper]

theorem decimal_parted (hc : IsSeparator c) : decimal (text ++ c :: more) = decimal text := by
  have hdigit : c.isDigit = false := by
    rcases hc with rfl | rfl <;> decide
  have hwhole := run_le_length Char.isDigit text
  have hpoint := fraction_le_length (text.drop (run Char.isDigit text))
  unfold decimal
  rw [run_parted hdigit]
  generalize run Char.isDigit text = whole at hwhole hpoint
  dsimp only
  rw [List.drop_append_of_le_length hwhole, fraction_parted hc]
  generalize fraction (text.drop whole) = point at hpoint
  rw [List.length_drop] at hpoint
  have hpower := exponent_le_length (text.drop (whole + point))
  rw [List.length_drop] at hpower
  have hbehind : (text ++ c :: more).drop (whole + point) =
      text.drop (whole + point) ++ c :: more :=
    List.drop_append_of_le_length (by omega)
  rw [hbehind, exponent_parted hc, List.drop_append_of_le_length (by omega)]
  generalize text.drop _ = behind
  cases behind with
  | nil => rcases hc with rfl | rfl <;> rfl
  | cons d rest =>
      rw [List.cons_append]
      by_cases hlower : d = 'f'
      · subst hlower
        rfl
      · by_cases hupper : d = 'F'
        · subst hupper
          rfl
        · simp [hlower, hupper]

theorem bits?_parted (hne : text ≠ []) (hc : IsSeparator c) :
    bits? (text ++ c :: more) = bits? text := by
  match text, hne with
  | [d], _ =>
      by_cases hzero : d = '0'
      · subst hzero
        rcases hc with rfl | rfl <;> rfl
      · simp [bits?, hzero]
  | d :: mark :: rest, _ =>
      by_cases hzero : d = '0'
      · subst hzero
        have hdigits (radix : Nat) : run (isDigitIn radix) (rest ++ c :: more) =
            run (isDigitIn radix) rest := by
          rcases hc with rfl | rfl <;> exact run_parted rfl
        simp only [List.cons_append, bits?, hdigits]
      · simp [bits?, hzero]

theorem numeral?_parted (hne : text ≠ []) (hc : IsSeparator c) :
    numeral? (text ++ c :: more) = numeral? text := by
  have hstart : startsNumeral (text ++ c :: more) = startsNumeral text := by
    match text, hne with
    | [d], _ =>
        by_cases hpoint : d = '.'
        · subst hpoint
          rcases hc with rfl | rfl <;> rfl
        · simp [startsNumeral, hpoint]
    | d :: e :: rest, _ =>
        by_cases hpoint : d = '.'
        · subst hpoint
          rfl
        · simp [startsNumeral, hpoint]
  unfold numeral?
  rw [hstart, bits?_parted hne hc, decimal_parted hc]

theorem identifier?_parted (hne : text ≠ []) (hc : IsSeparator c) :
    identifier? (text ++ c :: more) = identifier? text := by
  obtain ⟨d, rest, rfl⟩ := List.exists_cons_of_ne_nil hne
  have hle : run isWordPart rest + 1 ≤ (d :: rest).length :=
    Nat.succ_le_succ (run_le_length isWordPart rest)
  rw [List.cons_append]
  unfold identifier?
  dsimp only
  have hword : isWordPart c = false := by
    rcases hc with rfl | rfl <;> decide
  rw [run_parted hword, ← List.cons_append, List.take_append_of_le_length hle]

theorem vocabulary_separator : ∀ entry ∈ vocabulary,
    '\n' ∉ entry.1 ∧ (';' ∉ entry.1 ∨ entry.1.length = 1) := by
  decide

theorem spells_parted {entry : List Char × TokenKind} (hc : IsSeparator c)
    (hentry : entry.1.length ≤ text.length ∨ c ∉ entry.1) :
    spells (text ++ c :: more) entry = spells text entry := by
  have hword : isWordPart c = false := by
    rcases hc with rfl | rfl <;> decide
  have hinitial : entry.1.isPrefixOf (text ++ c :: more) = entry.1.isPrefixOf text := by
    rw [Bool.eq_iff_iff, List.isPrefixOf_iff_prefix, List.isPrefixOf_iff_prefix]
    exact prefix_parted hentry
  unfold spells
  rw [hinitial]
  by_cases hspelled : entry.1 <+: text
  · rw [List.drop_append_of_le_length hspelled.length_le]
    cases text.drop entry.1.length with
    | nil => simp [splitsWord, hword]
    | cons d rest => rfl
  · rw [← List.isPrefixOf_iff_prefix, Bool.not_eq_true] at hspelled
    rw [hspelled, Bool.false_and, Bool.false_and]

theorem spelling?_parted (hne : text ≠ []) (hc : IsSeparator c) :
    spelling? (text ++ c :: more) = spelling? text := by
  have hfilter : vocabulary.filter (spells (text ++ c :: more)) =
      vocabulary.filter (spells text) := by
    refine List.filter_congr fun entry hmem => spells_parted hc ?_
    obtain ⟨hbreak, hsemicolon⟩ := vocabulary_separator entry hmem
    rcases hc with rfl | rfl
    · exact .inr hbreak
    · rcases hsemicolon with hno | hone
      · exact .inr hno
      · exact .inl (hone ▸ List.length_pos_iff.mpr hne)
  rw [spelling?, hfilter, spelling?]

theorem Parted.or {first first' second second' : Option (TokenKind × Nat)}
    (hfirst : Parted text first first') (hsecond : Parted text second second') :
    Parted text (first.or second) (first'.or second') := by
  cases hfirst with
  | same =>
      cases first with
      | none => exact hsecond
      | some piece => exact .same
  | longer hkind hwhole hlonger => exact .longer hkind hwhole hlonger

theorem Parted.of_eq {found found' : Option (TokenKind × Nat)} (h : found' = found) :
    Parted text found found' :=
  h ▸ .same

/-- What the first reader that accepts the text answers. -/
def read? (text : List Char) : Option (TokenKind × Nat) :=
  (blank? text).or ((comment? text).or ((numeral? text).or ((quotation? text).or
    ((identifier? text).or (spelling? text)))))

theorem classify_of_read? (hne : text ≠ []) :
    classify text = (read? text).getD (.unrecognized, 1) := by
  obtain ⟨d, rest, rfl⟩ := List.exists_cons_of_ne_nil hne
  exact classify_cons d rest

theorem read?_parted (hne : text ≠ []) (hc : IsSeparator c) :
    Parted text (read? text) (read? (text ++ c :: more)) :=
  (blank?_parted hne).or <| (comment?_parted hne hc).or <|
    (Parted.of_eq (numeral?_parted hne hc)).or <| (quotation?_parted hne hc).or <|
    (Parted.of_eq (identifier?_parted hne hc)).or <| .of_eq (spelling?_parted hne hc)

/-- The first piece of a text stays as it is, unless it takes all of the text and goes on. -/
theorem classify_parted (hne : text ≠ []) (hc : IsSeparator c) :
    classify (text ++ c :: more) = classify text ∨
      (classify text).1.goesOn = true ∧ (classify text).2 = text.length ∧
        text.length < (classify (text ++ c :: more)).2 := by
  rw [classify_of_read? hne, classify_of_read? (List.append_ne_nil_of_left_ne_nil hne _)]
  have hparted : Parted text (read? text) (read? (text ++ c :: more)) := read?_parted hne hc
  generalize read? text = found at hparted
  generalize read? (text ++ c :: more) = found' at hparted
  cases hparted with
  | same => exact .inl rfl
  | longer hkind hwhole hlonger => exact .inr ⟨hkind, hwhole, hlonger⟩

end Lexeme

/-! ## Tokens -/

/-- The token, so many bytes further on. -/
def Token.shifted (distance : Nat) (token : Token) : Token :=
  { token with span := ⟨token.span.start + distance, token.span.stop + distance⟩ }

namespace Source

variable {text more : Source} {offset : Nat}

/-- Where a text stands does not matter for its tokens. -/
theorem tokensAt_shifted (distance : Nat) :
    tokensAt (offset + distance) text = (tokensAt offset text).map (Token.shifted distance) := by
  induction text using pieces_induction generalizing offset with
  | nil => rfl
  | piece text hne ih =>
      rw [tokensAt_eq hne, tokensAt_eq hne]
      dsimp only
      rw [Nat.add_right_comm, ih]
      split
      · rfl
      · rfl

/-- A blank that starts a text is passed like those behind it. -/
theorem tokensAt_blank {c : Char} (hblank : Lexeme.isBlank c = true) (rest : Source) :
    tokensAt offset (c :: rest) = tokensAt (offset + c.utf8Size) rest := by
  have hmark (d : Char) (h : Lexeme.isBlank d = true) : d ≠ Lexeme.byteOrderMark := by
    rintro rfl
    revert h
    decide
  have hclassify (d : Char) (behind : List Char) (h : Lexeme.isBlank d = true) :
      Lexeme.classify (d :: behind) = (.whitespace, Lexeme.run Lexeme.isBlank behind + 1) := by
    rw [Lexeme.classify_cons]
    simp [Lexeme.blank?, h, hmark d h]
  rw [tokensAt_eq (List.cons_ne_nil c rest), hclassify c rest hblank]
  simp only [TokenKind.isTrivia, ↓reduceIte, List.take_succ_cons, List.drop_succ_cons, size_cons,
    ← Nat.add_assoc]
  match rest with
  | [] => rfl
  | d :: behind =>
      by_cases hd : Lexeme.isBlank d = true
      · rw [tokensAt_eq (List.cons_ne_nil d behind), hclassify d behind hd]
        simp [TokenKind.isTrivia, Lexeme.run, hd, Nat.add_assoc]
      · simp [Lexeme.run, hd]

theorem le_start_of_mem_tokensAt {token : Token} (h : token ∈ tokensAt offset text) :
    offset ≤ token.span.start := by
  induction text using pieces_induction generalizing offset with
  | nil => cases h
  | piece text hne ih =>
      rw [tokensAt_eq hne] at h
      dsimp only at h
      split at h
      · exact Nat.le_trans (Nat.le_add_right _ _) (ih h)
      · rcases List.mem_cons.mp h with rfl | hmem
        · exact Nat.le_refl _
        · exact Nat.le_trans (Nat.le_add_right _ _) (ih hmem)

/-- The last piece of the text goes on behind it: it is a blank, a comment or a quotation, and no
token starts where the text ends. -/
structure GoesOn (offset : Nat) (text whole : Source) : Prop where
  ne_nil : text ≠ []
  last : ∀ token, (tokensAt offset text).getLast? = some token →
    token.span.stop = offset + size text → token.kind.goesOn = true
  start : ∀ token ∈ tokensAt offset whole, token.span.start ≠ offset + size text

theorem goesOn_of_longer (hne : text ≠ []) {whole : Source} (hinitial : text <+: whole)
    (hkind : (Lexeme.classify text).1.goesOn = true)
    (hwhole : (Lexeme.classify text).2 = text.length)
    (hlonger : text.length < (Lexeme.classify whole).2) : GoesOn offset text whole := by
  have hpos := size_pos hne
  refine ⟨hne, ?_, ?_⟩
  · intro token htoken _
    rw [tokensAt_eq hne, hwhole, List.drop_length] at htoken
    dsimp only at htoken
    rw [tokensAt_nil] at htoken
    split at htoken
    · cases htoken
    · rw [List.getLast?_singleton] at htoken
      cases htoken
      exact hkind
  · intro token hmem
    have hsize : size text < size (whole.take (Lexeme.classify whole).2) := by
      have hle := Lexeme.classify_le_length whole
      obtain ⟨behind, rfl⟩ := hinitial
      have hbehind : behind.take ((Lexeme.classify (text ++ behind)).2 - text.length) ≠ [] := by
        rw [← List.length_pos_iff, List.length_take]
        rw [List.length_append] at hle
        omega
      have := size_pos hbehind
      rw [List.take_append, List.take_of_length_le (Nat.le_of_lt hlonger), size_append]
      omega
    have hwne : whole ≠ [] := by
      rintro rfl
      exact hne (List.prefix_nil.mp hinitial)
    rw [tokensAt_eq hwne] at hmem
    dsimp only at hmem
    split at hmem
    · have := le_start_of_mem_tokensAt hmem
      omega
    · rcases List.mem_cons.mp hmem with rfl | hmem
      · dsimp only
        omega
      · have := le_start_of_mem_tokensAt hmem
        omega

/-- The tokens of a text, then those behind it, unless its last piece goes on. -/
theorem tokensAt_append_or {c : Char} (hc : Lexeme.IsSeparator c) :
    tokensAt offset (text ++ c :: more) =
        tokensAt offset text ++ tokensAt (offset + size text) (c :: more) ∨
      GoesOn offset text (text ++ c :: more) := by
  induction text using pieces_induction generalizing offset with
  | nil => exact .inl rfl
  | piece text hne ih =>
      have hparted : Lexeme.classify (text ++ c :: more) = Lexeme.classify text ∨
          (Lexeme.classify text).1.goesOn = true ∧ (Lexeme.classify text).2 = text.length ∧
            text.length < (Lexeme.classify (text ++ c :: more)).2 :=
        Lexeme.classify_parted hne hc
      rcases hparted with heq | ⟨hkind, hwhole, hlonger⟩
      · have hle := Lexeme.classify_le_length text
        have hpos := size_pos hne
        have hsize : offset + size (text.take (Lexeme.classify text).2) +
            size (text.drop (Lexeme.classify text).2) = offset + size text := by
          rw [Nat.add_assoc, ← size_append, List.take_append_drop]
        have htokens := @tokensAt_eq offset _ hne
        have hmore := @tokensAt_eq offset _ (List.append_ne_nil_of_left_ne_nil hne (c :: more))
        rw [heq] at hmore
        dsimp only at htokens hmore
        rw [List.take_append_of_le_length hle, List.drop_append_of_le_length hle] at hmore
        rcases @ih (offset + size (text.take (Lexeme.classify text).2)) with hsame | hgoes
        · refine .inl ?_
          rw [htokens, hmore, hsame, hsize]
          split
          · rfl
          · rfl
        · refine .inr ⟨hne, ?_, ?_⟩
          · intro token htoken hstop
            refine hgoes.last token ?_ (hstop.trans hsize.symm)
            rw [htokens] at htoken
            split at htoken
            · exact htoken
            · by_cases hafter : tokensAt (offset + size (text.take (Lexeme.classify text).2))
                  (text.drop (Lexeme.classify text).2) = []
              · have hrest := size_pos hgoes.ne_nil
                rw [hafter, List.getLast?_singleton] at htoken
                cases htoken
                dsimp only at hstop
                omega
              · rwa [List.getLast?_cons_of_ne_nil hafter] at htoken
          · intro token hmem
            rw [← hsize]
            rw [hmore] at hmem
            split at hmem
            · exact hgoes.start token hmem
            · rcases List.mem_cons.mp hmem with rfl | hmem
              · dsimp only
                omega
              · exact hgoes.start token hmem
      · exact .inr (goesOn_of_longer hne (List.prefix_append _ _) hkind hwhole hlonger)

/-- The tokens of a text, then those behind it, if the text is empty or ends in a token that does not
go on. -/
theorem tokensAt_append_of_last {c : Char} (hc : Lexeme.IsSeparator c)
    (h : text = [] ∨ ∃ token, (tokensAt offset text).getLast? = some token ∧
      token.span.stop = offset + size text ∧ token.kind.goesOn = false) :
    tokensAt offset (text ++ c :: more) =
      tokensAt offset text ++ tokensAt (offset + size text) (c :: more) := by
  refine (tokensAt_append_or hc).resolve_right fun hgoes => ?_
  obtain ⟨token, htoken, hstop, hword⟩ := h.resolve_left hgoes.ne_nil
  rw [hgoes.last token htoken hstop] at hword
  cases hword

/-- The tokens of a text, then those behind it, if a token starts where the text ends. -/
theorem tokensAt_append_of_start {c : Char} (hc : Lexeme.IsSeparator c) {token : Token}
    (hmem : token ∈ tokensAt offset (text ++ c :: more))
    (hstart : token.span.start = offset + size text) :
    tokensAt offset (text ++ c :: more) =
      tokensAt offset text ++ tokensAt (offset + size text) (c :: more) :=
  (tokensAt_append_or hc).resolve_right fun hgoes => hgoes.start token hmem hstart

end Source

end ScriptSyntax
