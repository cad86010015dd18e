import ScriptSyntax.Proofs.Separators
import ScriptSyntax.Proofs.Words

/-!
# Tokens with other space between them

A significant piece that ends where it does in front of one text ends there too at the end of a line:
what followed it was not needed to tell it apart.  So a source can be written anew with one token on
each line, and its tokens are the same.  Strings without an end and heredocs without an end reach to
the end of the source, so they stand in the last line.
-/

namespace ScriptSyntax

namespace Lexeme

variable {text body after behind : List Char}

/-- Nothing, or a line break and more. -/
def BreaksLine (behind : List Char) : Prop :=
  behind = [] ∨ ∃ more, behind = '\n' :: more

/-- What a reader answers about a text that starts with `body`, and about `body` in front of
something else: the reader accepts no more than it did, and a significant piece that was `body` still
is. -/
structure Settles (body : List Char) (found found' : Option (TokenKind × Nat)) : Prop where
  rejected : found = none → found' = none
  accepted : ∀ kind, kind.isTrivia = false → found = some (kind, body.length) →
    found' = some (kind, body.length)

theorem Settles.or {first first' second second' : Option (TokenKind × Nat)}
    (hfirst : Settles body first first') (hsecond : Settles body second second') :
    Settles body (first.or second) (first'.or second') := by
  cases first with
  | none =>
      rw [hfirst.rejected rfl]
      exact hsecond
  | some piece =>
      refine ⟨by simp, ?_⟩
      intro kind hkind hpiece
      rw [hfirst.accepted kind hkind hpiece]
      rfl

theorem Settles.of_trivia {found found' : Option (TokenKind × Nat)}
    (hrejected : found = none → found' = none)
    (htrivia : ∀ piece, found = some piece → piece.1.isTrivia = true) :
    Settles body found found' := by
  refine ⟨hrejected, ?_⟩
  intro kind hkind hfound
  have := htrivia _ hfound
  rw [hkind] at this
  cases this

theorem blank?_settles (hne : body ≠ []) :
    Settles body (blank? (body ++ after)) (blank? (body ++ behind)) := by
  obtain ⟨c, rest, rfl⟩ := List.exists_cons_of_ne_nil hne
  rw [List.cons_append, List.cons_append]
  unfold blank?
  dsimp only
  by_cases hmark : c = byteOrderMark
  · rw [if_pos hmark, if_pos hmark]
    exact .of_trivia id (by simp [TokenKind.isTrivia])
  · rw [if_neg hmark, if_neg hmark]
    by_cases hblank : isBlank c = true
    · rw [if_pos hblank, if_pos hblank]
      exact .of_trivia (by simp) (by simp [TokenKind.isTrivia])
    · rw [if_neg hblank, if_neg hblank]
      exact .of_trivia id (by simp)

theorem trivia_of_comment? {piece : TokenKind × Nat} (h : comment? text = some piece) :
    piece.1.isTrivia = true := by
  unfold comment? at h
  split at h
  · cases h
    rfl
  · cases h
    rfl
  · cases h

theorem comment?_settles (hne : body ≠ []) (hbehind : BreaksLine behind) :
    Settles body (comment? (body ++ after)) (comment? (body ++ behind)) := by
  refine .of_trivia ?_ fun piece => trivia_of_comment?
  match body, hne with
  | [c], _ =>
      intro _
      rcases hbehind with rfl | ⟨more, rfl⟩
      · simp [comment?]
      · simp [comment?]
  | c :: d :: rest, _ =>
      simp only [List.cons_append]
      unfold comment?
      split
      · simp
      · simp
      · rename_i hline hblock
        intro _
        split
        · rename_i heq
          simp only [List.cons.injEq] at heq
          obtain ⟨rfl, rfl, -⟩ := heq
          exact absurd rfl (hline _)
        · rename_i heq
          simp only [List.cons.injEq] at heq
          obtain ⟨rfl, rfl, -⟩ := heq
          exact absurd rfl (hblock _)
        · rfl

/-! ## Numerals -/

theorem run_cut {test : Char → Bool} (h : run test (text ++ after) ≤ text.length) :
    run test text = run test (text ++ after) := by
  induction text with
  | nil => exact (Nat.le_zero.mp h).symm
  | cons c rest ih =>
      unfold run at ih h ⊢
      rw [List.cons_append, List.takeWhile_cons] at h ⊢
      rw [List.takeWhile_cons]
      split
      · rename_i hc
        rw [if_pos hc] at h
        exact congrArg (· + 1) (ih (Nat.le_of_succ_le_succ h))
      · rfl

theorem fraction_cut (h : fraction (text ++ after) ≤ text.length) :
    fraction text = fraction (text ++ after) := by
  cases text with
  | nil => exact (Nat.le_zero.mp h).symm
  | cons c rest =>
      rw [List.cons_append] at h ⊢
      by_cases hpoint : c = '.'
      · subst hpoint
        exact congrArg (· + 1) (run_cut (Nat.le_of_succ_le_succ h))
      · simp [fraction, hpoint]

theorem signedDigits_cut (h : signedDigits (text ++ after) ≤ text.length) :
    signedDigits text = signedDigits (text ++ after) := by
  cases text with
  | nil => exact (Nat.le_zero.mp h).symm
  | cons c rest =>
      rw [List.cons_append] at h ⊢
      by_cases hplus : c = '+'
      · subst hplus
        exact congrArg (· + 1) (run_cut (Nat.le_of_succ_le_succ h))
      · by_cases hminus : c = '-'
        · subst hminus
          exact congrArg (· + 1) (run_cut (Nat.le_of_succ_le_succ h))
        · have hdigits (rest : List Char) :
              signedDigits (c :: rest) = run Char.isDigit (c :: rest) := by
            simp [signedDigits, hplus, hminus]
          rw [hdigits] at h ⊢
          rw [hdigits]
          exact run_cut h

theorem exponent_cut (h : exponent (text ++ after) ≤ text.length) :
    exponent text = exponent (text ++ after) := by
  cases text with
  | nil => exact (Nat.le_zero.mp h).symm
  | cons c rest =>
      rw [List.cons_append] at h ⊢
      by_cases hlower : c = 'e'
      · subst hlower
        exact congrArg (· + 1) (signedDigits_cut (Nat.le_of_succ_le_succ h))
      · by_cases hupper : c = 'E'
        · subst hupper
          exact congrArg (· + 1) (signedDigits_cut (Nat.le_of_succ_le_succ h))
        · simp [exponent, hlower, hupper]

/-- A decimal number of `length` characters so far, with what stands behind them. -/
def numberEnd (power length : Nat) (rest : List Char) : TokenKind × Nat :=
  match rest with
  | 'f' :: _ | 'F' :: _ => (.floatConstant, length + 1)
  | _ => (if power = 0 then .intConstant else .doubleConstant, length)

theorem numberEnd_other {power length : Nat} {c : Char} {rest : List Char} (hlower : c ≠ 'f')
    (hupper : c ≠ 'F') : numberEnd power length (c :: rest) = numberEnd power length [] := by
  simp [numberEnd, hlower, hupper]

theorem le_numberEnd (power length : Nat) (rest : List Char) :
    length ≤ (numberEnd power length rest).2 := by
  unfold numberEnd
  split
  · exact Nat.le_succ length
  · exact Nat.le_succ length
  · exact Nat.le_refl length

theorem numberEnd_cut {power length : Nat}
    (h : (numberEnd power length (text ++ after)).2 = length + text.length) :
    numberEnd power length text = numberEnd power length (text ++ after) := by
  have hmark (c : Char) (rest : List Char) (hc : c = 'f' ∨ c = 'F') :
      numberEnd power length (c :: rest) = (.floatConstant, length + 1) := by
    rcases hc with rfl | rfl
    · rfl
    · rfl
  cases text with
  | nil =>
      cases after with
      | nil => rfl
      | cons c rest =>
          by_cases hc : c = 'f' ∨ c = 'F'
          · rw [List.nil_append, hmark c rest hc] at h
            simp at h
          · rw [not_or] at hc
            exact (numberEnd_other hc.1 hc.2).symm
  | cons c rest =>
      rw [List.cons_append] at h ⊢
      by_cases hc : c = 'f' ∨ c = 'F'
      · rw [hmark c _ hc, hmark c _ hc]
      · rw [not_or] at hc
        rw [numberEnd_other hc.1 hc.2, numberEnd_other hc.1 hc.2]

theorem decimal_eq (text : List Char) :
    decimal text =
      let whole := run Char.isDigit text
      let point := fraction (text.drop whole)
      let power := exponent (text.drop (whole + point))
      numberEnd (point + power) (whole + point + power) (text.drop (whole + point + power)) :=
  rfl

theorem decimal_cut (h : (decimal (text ++ after)).2 = text.length) :
    decimal text = decimal (text ++ after) := by
  rw [decimal_eq] at h ⊢
  rw [decimal_eq]
  dsimp only at h ⊢
  have hle := h.symm ▸ le_numberEnd _ _ _
  have hwhole : run Char.isDigit (text ++ after) ≤ text.length := by omega
  rw [run_cut hwhole]
  generalize run Char.isDigit (text ++ after) = whole at h hle hwhole
  rw [List.drop_append_of_le_length hwhole] at h hle ⊢
  have hpoint : fraction (text.drop whole ++ after) ≤ (text.drop whole).length := by
    rw [List.length_drop]
    omega
  rw [fraction_cut hpoint]
  generalize fraction (text.drop whole ++ after) = point at h hle hpoint
  rw [List.drop_append_of_le_length (by omega)] at h hle ⊢
  have hpower : exponent (text.drop (whole + point) ++ after) ≤
      (text.drop (whole + point)).length := by
    rw [List.length_drop]
    omega
  rw [exponent_cut hpower]
  generalize exponent (text.drop (whole + point) ++ after) = power at h hle hpower
  rw [List.drop_append_of_le_length hle] at h ⊢
  refine numberEnd_cut (h.trans ?_)
  rw [List.length_drop]
  omega

theorem bits?_settles (hne : body ≠ []) (hbehind : BreaksLine behind) :
    Settles body (bits? (body ++ after)) (bits? (body ++ behind)) := by
  have hshort : bits? (body ++ behind) = bits? body := by
    rcases hbehind with rfl | ⟨more, rfl⟩
    · rw [List.append_nil]
    · exact bits?_parted hne (.inl rfl)
  rw [hshort]
  match body, hne with
  | [c], _ =>
      refine ⟨fun _ => ?_, ?_⟩
      · simp [bits?]
      · intro kind _ h
        unfold bits? at h
        split at h
        · obtain ⟨radix, -, hpiece⟩ := Option.map_eq_some_iff.mp h
          have hlength : _ + 2 = 1 := congrArg Prod.snd hpiece
          omega
        · cases h
  | c :: mark :: rest, _ =>
      by_cases hzero : c = '0'
      · subst hzero
        simp only [List.cons_append, bits?]
        cases radix? mark with
        | none => exact ⟨id, fun kind _ h => h⟩
        | some radix =>
            refine ⟨by simp, ?_⟩
            intro kind _ h
            rw [Option.map_some, Option.some.injEq, Prod.mk.injEq] at h
            have hlength : run (isDigitIn radix) (rest ++ after) + 2 = rest.length + 2 := h.2
            have hdigits : run (isDigitIn radix) rest = run (isDigitIn radix) (rest ++ after) :=
              run_cut (by omega)
            rw [Option.map_some, hdigits, h.1, h.2]
      · have hnone (rest : List Char) : bits? (c :: rest) = none := by
          simp [bits?, hzero]
        simp only [List.cons_append, hnone]
        exact ⟨id, fun kind _ h => h⟩

theorem startsNumeral_append (hne : body ≠ []) (h : startsNumeral body = true) :
    startsNumeral (body ++ after) = true := by
  match body, hne with
  | [c], _ =>
      have hpoint : c ≠ '.' := by
        rintro rfl
        cases h
      have hdigit : c.isDigit = true := by simpa [startsNumeral, hpoint] using h
      simp [startsNumeral, hpoint, hdigit]
  | c :: d :: rest, _ =>
      by_cases hpoint : c = '.'
      · subst hpoint
        exact h
      · simpa [startsNumeral, hpoint] using h

/-- A point needs a digit behind it to be a number. -/
theorem two_le_decimal_point (h : startsNumeral ('.' :: text) = true) :
    2 ≤ (decimal ('.' :: text)).2 := by
  cases text with
  | nil => cases h
  | cons c rest =>
      have hdigit : c.isDigit = true := h
      have hrun : 0 < run Char.isDigit (c :: rest) := run_cons_pos hdigit
      have hpoint : fraction ('.' :: c :: rest) = run Char.isDigit (c :: rest) + 1 := rfl
      have hwhole : run Char.isDigit ('.' :: c :: rest) = 0 := by simp [run]
      rw [decimal_eq, hwhole]
      dsimp only
      refine Nat.le_trans ?_ (le_numberEnd _ _ _)
      rw [List.drop_zero, hpoint]
      omega

theorem numeral?_settles (hne : body ≠ []) (hbehind : BreaksLine behind) :
    Settles body (numeral? (body ++ after)) (numeral? (body ++ behind)) := by
  have hshort : numeral? (body ++ behind) = numeral? body := by
    rcases hbehind with rfl | ⟨more, rfl⟩
    · rw [List.append_nil]
    · exact numeral?_parted hne (.inl rfl)
  have hbits : Settles body (bits? (body ++ after)) (bits? (body ++ [])) :=
    bits?_settles hne (.inl rfl)
  rw [List.append_nil] at hbits
  rw [hshort]
  unfold numeral?
  refine ⟨?_, ?_⟩
  · intro h
    by_cases hstart : startsNumeral body = true
    · rw [if_pos (startsNumeral_append hne hstart)] at h
      cases h
    · rw [if_neg hstart]
  · intro kind hkind h
    by_cases hlong : startsNumeral (body ++ after) = true
    · rw [if_pos hlong, Option.some.injEq] at h
      have hnumeral : (bits? body).getD (decimal body) = (kind, body.length) := by
        cases hfound : bits? (body ++ after) with
        | none =>
            rw [hfound, Option.getD_none] at h
            rw [hbits.rejected hfound, Option.getD_none, decimal_cut (by rw [h]), h]
        | some piece =>
            rw [hfound, Option.getD_some] at h
            rw [hbits.accepted kind hkind (hfound.trans (congrArg some h)), Option.getD_some]
      have hstart : startsNumeral body = true := by
        match body, hne with
        | [c], _ =>
            by_cases hpoint : c = '.'
            · subst hpoint
              have htwo := two_le_decimal_point hlong
              have hnone : bits? (['.'] ++ after) = none := by simp [bits?]
              rw [hnone, Option.getD_none] at h
              have hone : (decimal ('.' :: after)).2 = 1 := congrArg Prod.snd h
              exact absurd (hone ▸ htwo) (by decide)
            · simpa [startsNumeral, hpoint] using hlong
        | c :: d :: rest, _ =>
            by_cases hpoint : c = '.'
            · subst hpoint
              exact hlong
            · simpa [startsNumeral, hpoint] using hlong
      rw [if_pos hstart, hnumeral]
    · rw [if_neg hlong] at h
      cases h

/-! ## Quotations -/

theorem closing?_cut {quote : Char} {even : Bool} {length : Nat}
    (h : closing? quote even (text ++ after) = some length) (hle : length ≤ text.length) :
    closing? quote even text = some length := by
  induction text generalizing even length with
  | nil => exact absurd (closing?_bounds h).1 (Nat.not_lt_of_le hle)
  | cons c rest ih =>
      rw [List.cons_append, closing?] at h
      rw [closing?]
      split
      · rename_i hc
        rwa [if_pos hc] at h
      · rename_i hc
        rw [if_neg hc] at h
        obtain ⟨inner, hinner, rfl⟩ := Option.map_eq_some_iff.mp h
        rw [ih hinner (Nat.le_of_succ_le_succ hle)]
        rfl

/-- A quotation that ends in front of some text ends there in front of any. -/
theorem quoted_cut {quote : Char} {kind : TokenKind} (hafter : after ≠ [])
    (h : quoted quote (text ++ after) = (kind, text.length + 1)) :
    0 < text.length ∧ quoted quote (text ++ behind) = (kind, text.length + 1) := by
  have hpos := List.length_pos_iff.mpr hafter
  unfold quoted at h ⊢
  cases hclosing : closing? quote true (text ++ after) with
  | none =>
      rw [hclosing, Prod.mk.injEq, List.length_append] at h
      omega
  | some length =>
      rw [hclosing, Prod.mk.injEq] at h
      have hlength : length = text.length := Nat.succ.inj h.2
      have hcut := closing?_cut hclosing (Nat.le_of_eq hlength)
      refine ⟨hlength ▸ (closing?_bounds hcut).1, ?_⟩
      rw [closing?_append hcut]
      dsimp only
      rw [hlength, List.take_left, ← h.1, hlength, List.take_left]

theorem le_through {mark : List Char} (text : List Char) :
    mark.length ≤ through mark text ∨ through mark text = text.length := by
  induction text with
  | nil => exact .inr rfl
  | cons c rest ih =>
      rw [through]
      split
      · exact .inl (Nat.le_refl _)
      · rcases ih with hle | heq
        · exact .inl (Nat.le_succ_of_le hle)
        · exact .inr (congrArg (· + 1) heq)

/-- A mark that is found in front of some text is found in front of any. -/
theorem through_cut {mark : List Char} (hmark : mark ≠ []) (hafter : after ≠ [])
    (h : through mark (text ++ after) ≤ text.length) :
    through mark (text ++ behind) = through mark (text ++ after) := by
  have hpos := List.length_pos_iff.mpr hafter
  induction text with
  | nil =>
      obtain ⟨c, rest, rfl⟩ := List.exists_cons_of_ne_nil hafter
      exact absurd (through_cons_pos hmark c rest) (Nat.not_lt_of_le h)
  | cons c rest ih =>
      have hlong : mark.length ≤ (c :: rest).length := by
        rcases le_through (c :: rest ++ after) with hle | heq
        · exact Nat.le_trans hle h
        · rw [heq, List.length_append] at h
          omega
      have hinitial : mark.isPrefixOf (c :: (rest ++ behind)) =
          mark.isPrefixOf (c :: (rest ++ after)) := by
        have hshort (more : List Char) :
            mark <+: c :: (rest ++ more) ↔ mark <+: c :: rest :=
          ⟨fun hmore => List.prefix_of_prefix_length_le hmore (List.prefix_append (c :: rest) more)
            hlong, fun hrest => hrest.trans (List.prefix_append (c :: rest) more)⟩
        rw [Bool.eq_iff_iff, List.isPrefixOf_iff_prefix, List.isPrefixOf_iff_prefix, hshort, hshort]
      rw [List.cons_append, through] at h
      rw [List.cons_append, List.cons_append, through, through, hinitial]
      split
      · rfl
      · rename_i hnot
        rw [if_neg hnot] at h
        exact congrArg (· + 1) (ih (Nat.le_of_succ_le_succ h))

theorem quotation?_settles (hne : body ≠ []) (hafter : after ≠ []) (hbehind : BreaksLine behind) :
    Settles body (quotation? (body ++ after)) (quotation? (body ++ behind)) := by
  obtain ⟨c, rest, rfl⟩ := List.exists_cons_of_ne_nil hne
  simp only [List.cons_append]
  by_cases hdouble : c = '"'
  · subst hdouble
    by_cases hheredoc : ∃ tail, rest ++ after = '"' :: '"' :: tail
    · obtain ⟨tail, htail⟩ := hheredoc
      have hfound : quotation? ('"' :: (rest ++ after)) =
          some (.heredocString, through ['"', '"', '"'] tail + 3) := by
        rw [htail]
        rfl
      rw [hfound]
      refine ⟨by simp, ?_⟩
      intro kind _ h
      rw [Option.some.injEq, Prod.mk.injEq, List.length_cons] at h
      obtain ⟨rfl, hlength⟩ := h
      match rest with
      | [] => simp at hlength
      | [_] => simp at hlength
      | d :: e :: inner =>
          simp only [List.cons_append, List.cons.injEq] at htail
          obtain ⟨rfl, rfl, rfl⟩ := htail
          simp only [List.length_cons] at hlength
          have hthrough : through ['"', '"', '"'] (inner ++ behind) =
              through ['"', '"', '"'] (inner ++ after) :=
            through_cut (by simp) hafter (by omega)
          change some (_, through ['"', '"', '"'] (inner ++ behind) + 3) = _
          rw [hthrough, hlength]
          rfl
    · rw [quotation?_double hheredoc]
      refine ⟨by simp, ?_⟩
      intro kind _ h
      obtain ⟨hpos, hquoted⟩ : 0 < rest.length ∧
          quoted '"' (rest ++ behind) = (kind, rest.length + 1) :=
        quoted_cut hafter (Option.some.inj h)
      rw [quotation?_double, hquoted]
      · rfl
      -- An empty string at the end of a line does not open a heredoc.
      · rintro ⟨tail, htail⟩
        match rest with
        | [] => simp at hpos
        | [d] =>
            rcases hbehind with rfl | ⟨more, rfl⟩
            · simp at htail
            · simp at htail
        | d :: e :: inner =>
            simp only [List.cons_append, List.cons.injEq] at htail
            exact hheredoc ⟨inner ++ after, by rw [htail.1, htail.2.1]; rfl⟩
  · by_cases hsingle : c = '\''
    · subst hsingle
      change Settles _ (some (quoted '\'' (rest ++ after))) (some (quoted '\'' (rest ++ behind)))
      refine ⟨by simp, ?_⟩
      intro kind _ h
      rw [(quoted_cut hafter (Option.some.inj h)).2]
      rfl
    · rw [quotation?_other hdouble hsingle, quotation?_other hdouble hsingle]
      exact ⟨id, fun kind _ h => h⟩

/-! ## Spellings -/

theorem longer_spec (best : Option (TokenKind × Nat)) (entry : List Char × TokenKind) :
    ∃ piece, longer best entry = some piece ∧ entry.1.length ≤ piece.2 ∧
      ∀ start, best = some start → start.2 ≤ piece.2 := by
  cases best with
  | none => exact ⟨_, rfl, Nat.le_refl _, by simp⟩
  | some start =>
      unfold longer
      dsimp only
      split
      · rename_i hle
        exact ⟨_, rfl, Nat.le_refl _, fun other hother => Option.some.inj hother ▸ hle⟩
      · rename_i hnot
        exact ⟨_, rfl, Nat.le_of_not_le hnot,
          fun other hother => Option.some.inj hother ▸ Nat.le_refl _⟩

/-- What is chosen is at least as long as what was chosen before and as each entry. -/
theorem foldl_longer_spec {entries : List (List Char × TokenKind)}
    {best : Option (TokenKind × Nat)} {length : Nat}
    (h : (∃ start, best = some start ∧ length ≤ start.2) ∨
      ∃ entry ∈ entries, length ≤ entry.1.length) :
    ∃ piece, entries.foldl longer best = some piece ∧ length ≤ piece.2 := by
  induction entries generalizing best with
  | nil => simpa using h
  | cons entry rest ih =>
      obtain ⟨piece, hpiece, hentry, hstart⟩ := longer_spec best entry
      refine ih ?_
      rcases h with ⟨start, hbest, hle⟩ | ⟨other, hmem, hle⟩
      · exact .inl ⟨piece, hpiece, Nat.le_trans hle (hstart start hbest)⟩
      · rcases List.mem_cons.mp hmem with rfl | hmem
        · exact .inl ⟨piece, hpiece, Nat.le_trans hle hentry⟩
        · exact .inr ⟨other, hmem, hle⟩

/-- No spelling at the start of the text is longer than the piece that is cut off. -/
theorem length_le_of_spells {piece : TokenKind × Nat} {entry : List Char × TokenKind}
    (h : (spelling? text).getD (.unrecognized, 1) = piece) (hmem : entry ∈ vocabulary)
    (hspells : spells text entry = true) : entry.1.length ≤ piece.2 := by
  obtain ⟨longest, hlongest, hle⟩ : ∃ longest, spelling? text = some longest ∧
      entry.1.length ≤ longest.2 :=
    foldl_longer_spec (.inr ⟨entry, List.mem_filter.mpr ⟨hmem, hspells⟩, Nat.le_refl _⟩)
  rw [hlongest, Option.getD_some] at h
  exact h ▸ hle

theorem vocabulary_single : ∀ entry ∈ vocabulary, entry.1.length = 1 →
    entry.1.getLast?.any Char.isAlphanum = false := by
  decide

theorem spelling?_cut {kind : TokenKind} (hne : body ≠ [])
    (h : (spelling? (body ++ after)).getD (.unrecognized, 1) = (kind, body.length)) :
    spelling? body = spelling? (body ++ after) := by
  -- The text behind the piece does not go on with it, if it is a word.
  have hsplits : ∀ entry ∈ vocabulary, entry.1 = body → splitsWord body after = false := by
    intro entry hmem hbody
    cases hspelling : spelling? (body ++ after) with
    | none =>
        rw [hspelling, Option.getD_none, Prod.mk.injEq] at h
        have hsingle := vocabulary_single entry hmem (by rw [hbody, h.2])
        rw [splitsWord, ← hbody, hsingle, Bool.false_and]
    | some piece =>
        rw [hspelling, Option.getD_some] at h
        obtain ⟨other, -, hspells, heq⟩ := mem_vocabulary_of_spelling? hspelling
        obtain ⟨tail, htail⟩ := isPrefixOf_of_spells hspells
        have hother : other.1 = body := by
          rw [h, Prod.mk.injEq] at heq
          exact (List.append_inj htail heq.2.symm).1
        simp only [spells, Bool.and_eq_true, Bool.not_eq_true'] at hspells
        have := hspells.2
        rwa [hother, List.drop_left] at this
  have hfilter : vocabulary.filter (spells body) = vocabulary.filter (spells (body ++ after)) := by
    refine List.filter_congr fun entry hmem => ?_
    by_cases hlong : entry.1.length ≤ body.length
    · have hinitial : entry.1.isPrefixOf (body ++ after) = entry.1.isPrefixOf body := by
        rw [Bool.eq_iff_iff, List.isPrefixOf_iff_prefix, List.isPrefixOf_iff_prefix]
        exact ⟨fun hmore => List.prefix_of_prefix_length_le hmore (List.prefix_append _ _) hlong,
          fun hbody => hbody.trans (List.prefix_append _ _)⟩
      rw [spells, spells, hinitial]
      by_cases hleading : entry.1 <+: body
      · obtain ⟨tail, rfl⟩ := hleading
        rw [List.append_assoc, List.drop_left, List.drop_left]
        cases tail with
        | nil =>
            rw [List.append_nil] at hsplits
            rw [List.nil_append, hsplits entry hmem rfl]
            simp [splitsWord]
        | cons d behind => rfl
      · rw [← List.isPrefixOf_iff_prefix, Bool.not_eq_true] at hleading
        rw [hleading, Bool.false_and, Bool.false_and]
    · have hshort : spells body entry = false := by
        rw [← Bool.not_eq_true]
        exact fun hspells => hlong (isPrefixOf_of_spells hspells).length_le
      have hwhole : spells (body ++ after) entry = false := by
        rw [← Bool.not_eq_true]
        exact fun hspells => hlong (length_le_of_spells h hmem hspells)
      rw [hshort, hwhole]
  rw [spelling?, hfilter, spelling?]

theorem spelling_settled {kind : TokenKind} (hne : body ≠ []) (hbehind : BreaksLine behind)
    (h : (spelling? (body ++ after)).getD (.unrecognized, 1) = (kind, body.length)) :
    (spelling? (body ++ behind)).getD (.unrecognized, 1) = (kind, body.length) := by
  have hshort : spelling? (body ++ behind) = spelling? body := by
    rcases hbehind with rfl | ⟨more, rfl⟩
    · rw [List.append_nil]
    · exact spelling?_parted hne (.inl rfl)
  rw [hshort, spelling?_cut hne h, h]

theorem mem_vocabulary_of_isReserved {text : String} (h : isReserved text = true) :
    ∃ entry ∈ vocabulary, entry.1 = text.toList := by
  rcases Bool.or_eq_true_iff.mp h with h | h
  · obtain ⟨word, hword⟩ := Option.isSome_iff_exists.mp h
    refine ⟨(text.toList, .keyword word), ?_, rfl⟩
    refine List.mem_append_left _ (List.mem_append_left _ (List.mem_map.mpr ⟨(text, word), ?_, rfl⟩))
    exact List.mem_flatMap.mpr ⟨word, Keyword.mem_entries word,
      List.mem_map.mpr ⟨text, Lexicon.mem_spellings_of_spelled hword, rfl⟩⟩
  · obtain ⟨word, hword⟩ := Option.isSome_iff_exists.mp h
    refine ⟨(text.toList, .operator word), ?_, rfl⟩
    refine List.mem_append_left _ (List.mem_append_right _ (List.mem_map.mpr ⟨(text, word), ?_, rfl⟩))
    exact List.mem_flatMap.mpr ⟨word, Operator.mem_entries word,
      List.mem_map.mpr ⟨text, Lexicon.mem_spellings_of_spelled hword, rfl⟩⟩

/-- A word is one piece. -/
theorem classify_word_length {word : List Char} (hword : isWord word = true) :
    (classify word).2 = word.length := by
  have hnone : endsWord [] := rfl
  by_cases hreserved : isReserved (String.ofList word) = true
  · obtain ⟨entry, hmem, hentry⟩ := mem_vocabulary_of_isReserved hreserved
    rw [String.toList_ofList] at hentry
    have hidentifier := identifier?_word hword hnone
    have hspells (other : List Char × TokenKind) (hother : other ∈ vocabulary) :
        spells word other = decide (other.1 = word) := by
      have := spells_word hother hword hnone
      rwa [List.append_nil] at this
    obtain ⟨piece, hpiece, -⟩ : ∃ piece, spelling? word = some piece ∧ 0 ≤ piece.2 := by
      refine foldl_longer_spec (.inr ⟨entry, List.mem_filter.mpr ⟨hmem, ?_⟩, Nat.zero_le _⟩)
      rw [hspells entry hmem, decide_eq_true hentry]
    obtain ⟨other, hother, hspelled, rfl⟩ := mem_vocabulary_of_spelling? hpiece
    rw [hspells other hother, decide_eq_true_iff] at hspelled
    rw [List.append_nil, if_pos hreserved] at hidentifier
    cases word with
    | nil => cases hword
    | cons c others =>
        rw [classify_wordStart (isWord_cons hword).1, hidentifier, hpiece]
        exact congrArg List.length hspelled
  · rw [Bool.not_eq_true] at hreserved
    have hidentifier := classify_identifier hword hreserved hnone
    rw [List.append_nil] at hidentifier
    rw [hidentifier]

theorem exists_word {c : Char} (hc : isWordStart c = true) (rest : List Char) :
    ∃ word more, c :: rest = word ++ more ∧ isWord word = true ∧ endsWord more := by
  refine ⟨c :: rest.takeWhile isWordPart, rest.dropWhile isWordPart, ?_, ?_, ?_⟩
  · rw [List.cons_append, List.takeWhile_append_dropWhile]
  · have hpart : isWordPart c = true := by
      unfold isWordStart at hc
      unfold isWordPart Char.isAlphanum
      rcases Bool.or_eq_true_iff.mp hc with h | h
      · simp [h]
      · simp [h]
    simp [isWord, hc, hpart]
  · exact Source.head?_dropWhile_any isWordPart rest

/-! ## Pieces -/

/-- What the readers answer that look for no word and no symbol. -/
def literal? (text : List Char) : Option (TokenKind × Nat) :=
  (blank? text).or ((comment? text).or ((numeral? text).or (quotation? text)))

theorem literal?_settles (hne : body ≠ []) (hafter : after ≠ []) (hbehind : BreaksLine behind) :
    Settles body (literal? (body ++ after)) (literal? (body ++ behind)) :=
  (blank?_settles hne).or <| (comment?_settles hne hbehind).or <|
    (numeral?_settles hne hbehind).or (quotation?_settles hne hafter hbehind)

theorem classify_of_not_word {c : Char} {rest : List Char} (hc : isWordStart c = false) :
    classify (c :: rest) =
      (literal? (c :: rest)).getD ((spelling? (c :: rest)).getD (.unrecognized, 1)) := by
  have hidentifier : identifier? (c :: rest) = none := by simp [identifier?, hc]
  rw [classify_cons, hidentifier, Option.none_or, literal?, ← Option.or_assoc, ← Option.or_assoc,
    ← Option.or_assoc, Option.getD_or, Option.or_assoc, Option.or_assoc]

/-- A significant piece that ends where it does in front of one text ends there at the end of a line
too. -/
theorem classify_settled {kind : TokenKind} (hne : body ≠ []) (hkind : kind.isTrivia = false)
    (hbehind : BreaksLine behind) (hlast : after = [] → behind = [])
    (h : classify (body ++ after) = (kind, body.length)) :
    classify (body ++ behind) = (kind, body.length) := by
  by_cases hafter : after = []
  · rwa [hlast hafter, ← hafter]
  obtain ⟨c, rest, rfl⟩ := List.exists_cons_of_ne_nil hne
  by_cases hc : isWordStart c = true
  · -- The piece is a whole word.
    obtain ⟨word, more, hsplit, hword, hmore⟩ := exists_word hc (rest ++ after)
    have hbreak : endsWord behind := by
      rcases hbehind with rfl | ⟨more, rfl⟩
      · rfl
      · rfl
    rw [← List.cons_append] at hsplit
    rw [hsplit, classify_word hword hmore] at h
    have hlength : (c :: rest).length = word.length := by
      rw [← classify_word_length hword, h]
    obtain ⟨rfl, rfl⟩ := List.append_inj hsplit hlength
    rw [classify_word hword hbreak, h]
  · rw [Bool.not_eq_true] at hc
    have hsettles : Settles (c :: rest) (literal? (c :: rest ++ after))
        (literal? (c :: rest ++ behind)) :=
      literal?_settles hne hafter hbehind
    rw [List.cons_append, classify_of_not_word hc, ← List.cons_append] at h ⊢
    cases hliteral : literal? (c :: rest ++ after) with
    | none =>
        rw [hliteral, Option.getD_none] at h
        rw [hsettles.rejected hliteral, Option.getD_none]
        exact spelling_settled hne hbehind h
    | some piece =>
        rw [hliteral, Option.getD_some] at h
        rw [hsettles.accepted kind hkind (hliteral.trans (congrArg some h)), Option.getD_some]

end Lexeme

/-! ## Tokens -/

namespace Token

/-- What a token is, wherever it stands. -/
def word (token : Token) : TokenKind × String :=
  (token.kind, token.text)

/-- The texts of the tokens, one on each line. -/
def lines (tokens : List Token) : Source :=
  ['\n'].intercalate (tokens.map (·.text.toList))

theorem lines_singleton (token : Token) : lines [token] = token.text.toList := by
  simp [lines, List.intercalate]

theorem lines_cons_cons (token next : Token) (rest : List Token) :
    lines (token :: next :: rest) = token.text.toList ++ '\n' :: lines (next :: rest) := by
  simp [lines, List.intercalate]

end Token

namespace Source

/-- The source with one token on each line and nothing else. -/
def respaced (source : Source) : Source :=
  Token.lines source.tokens.dropLast

theorem tokensAt_settled {body after behind : Source} {kind : TokenKind} (offset : Nat)
    (hne : body ≠ []) (hkind : kind.isTrivia = false) (hbehind : Lexeme.BreaksLine behind)
    (hlast : after = [] → behind = [])
    (h : Lexeme.classify (body ++ after) = (kind, body.length)) :
    tokensAt offset (body ++ behind) =
      ⟨kind, ⟨offset, offset + size body⟩, String.ofList body⟩ ::
        tokensAt (offset + size body) behind := by
  have hclassify := Lexeme.classify_settled hne hkind hbehind hlast h
  rw [tokensAt_eq (List.append_ne_nil_of_left_ne_nil hne behind), hclassify]
  simp [hkind]

/-- Tokens that are written one on each line are read again. -/
theorem tokensAt_lines (text : Source) (offset again : Nat) :
    (tokensAt again (Token.lines (tokensAt offset text))).map Token.word =
      (tokensAt offset text).map Token.word := by
  induction text using pieces_induction generalizing offset again with
  | nil => rfl
  | piece text hne ih =>
      have hsplit := List.take_append_drop (Lexeme.classify text).2 text
      have hlength := List.length_take_of_le (Lexeme.classify_le_length text)
      have hpos := Lexeme.classify_pos hne
      rw [tokensAt_eq hne]
      dsimp only
      generalize text.take (Lexeme.classify text).2 = body at hsplit hlength ⊢
      generalize text.drop (Lexeme.classify text).2 = after at hsplit ih ⊢
      have hclassify : Lexeme.classify (body ++ after) =
          ((Lexeme.classify text).1, body.length) := by
        rw [hsplit, hlength]
      have hbody : body ≠ [] := List.ne_nil_of_length_pos (hlength ▸ hpos)
      by_cases htrivia : (Lexeme.classify text).1.isTrivia = true
      · rw [if_pos htrivia]
        exact ih _ _
      · rw [if_neg htrivia]
        rw [Bool.not_eq_true] at htrivia
        cases hrest : tokensAt (offset + size body) after with
        | nil =>
            have halone := tokensAt_settled again hbody htrivia (.inl rfl) (fun _ => rfl) hclassify
            rw [List.append_nil, tokensAt_nil] at halone
            rw [Token.lines_singleton, String.toList_ofList, halone]
            rfl
        | cons next rest =>
            have hafter : after ≠ [] := by
              rintro rfl
              cases hrest
            have hfirst := tokensAt_settled again hbody htrivia
              (.inr ⟨Token.lines (next :: rest), rfl⟩) (absurd · hafter) hclassify
            have hothers := ih (offset + size body) (again + size body + '\n'.utf8Size)
            rw [hrest] at hothers
            rw [Token.lines_cons_cons, String.toList_ofList, hfirst, tokensAt_blank rfl,
              List.map_cons, List.map_cons, hothers]
            rfl

/-- Whatever stands between the tokens of a source can be replaced by line breaks: the tokens are of
the same kinds, with the same texts, in the same order. -/
theorem tokens_respaced (source : Source) :
    source.respaced.tokens.map Token.word = source.tokens.map Token.word := by
  have hrespaced : source.respaced = Token.lines (tokensAt 0 source) := by
    rw [respaced, tokens, List.dropLast_concat, tokensFrom_zero]
  have hlines := tokensAt_lines source 0 0
  rw [tokens, tokens, List.map_append, List.map_append, tokensFrom_zero, tokensFrom_zero,
    hrespaced, hlines]
  rfl

/-- An operator that the word behind it would split is not put together by a line break. -/
example : respaced "!isx+\"\" \"\"".toList = "!\nisx\n+\n\"\"\n\"\"".toList := by
  decide +kernel

end Source

end ScriptSyntax
