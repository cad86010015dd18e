import ScriptSyntax.Grammar.Parse
import ScriptSyntax.Proofs.Lexing

/-!
# Angle brackets

A list of template arguments may be closed by the first byte of a longer operator, and the text from
the next byte on is then read anew.  Operators of `>` and `=` are cut out of a run of these two
characters alone, so reading anew changes the operators of one run and no token behind it.
-/

namespace ScriptSyntax

namespace Lexeme

/-- The longest operator at the start of a text that starts with `>` or `=`. -/
def angle : List Char → Operator × Nat
  | '>' :: '>' :: '>' :: '=' :: _ => (.shiftRightArithAssign, 4)
  | '>' :: '>' :: '>' :: _ => (.shiftRightArith, 3)
  | '>' :: '>' :: '=' :: _ => (.shiftRightAssign, 3)
  | '>' :: '>' :: _ => (.shiftRight, 2)
  | '>' :: '=' :: _ => (.greaterEqual, 2)
  | '>' :: _ => (.greater, 1)
  | '=' :: '=' :: _ => (.equal, 2)
  | _ => (.assign, 1)

theorem angle_startsWithGreater (rest : List Char) :
    (TokenKind.operator (angle ('>' :: rest)).1).startsWithGreater = true := by
  unfold angle
  split <;> simp_all [TokenKind.startsWithGreater]

/-- Only the spellings with the same first character need to be compared with a text. -/
theorem filter_spells (c : Char) (rest : List Char) :
    vocabulary.filter (spells (c :: rest)) =
      (vocabulary.filter fun entry => entry.1.head? = some c).filter (spells (c :: rest)) := by
  rw [List.filter_filter]
  refine List.filter_congr fun entry hmem => ?_
  by_cases hspells : spells (c :: rest) entry = true
  · obtain ⟨tail, htail⟩ := isPrefixOf_of_spells hspells
    have hne := vocabulary_ne_nil entry hmem
    obtain ⟨first, others, heq⟩ := List.exists_cons_of_ne_nil hne
    rw [heq, List.cons_append] at htail
    simp [hspells, heq, (List.cons.inj htail).1]
  · simp [hspells]

theorem vocabulary_greater :
    vocabulary.filter (fun entry => entry.1.head? = some '>') =
      [(['>', '>', '='], .operator .shiftRightAssign),
        (['>', '>', '>', '='], .operator .shiftRightArithAssign),
        (['>'], .operator .greater), (['>', '='], .operator .greaterEqual),
        (['>', '>'], .operator .shiftRight), (['>', '>', '>'], .operator .shiftRightArith)] := by
  decide

theorem vocabulary_equal :
    vocabulary.filter (fun entry => entry.1.head? = some '=') =
      [(['='], .operator .assign), (['=', '='], .operator .equal)] := by
  decide

theorem spells_symbol {symbol text : List Char} {kind : TokenKind}
    (h : symbol.getLast?.any Char.isAlphanum = false) :
    spells text (symbol, kind) = symbol.isPrefixOf text := by
  simp [spells, splitsWord, h]

theorem classify_greater (rest : List Char) :
    classify ('>' :: rest) =
      (.operator (angle ('>' :: rest)).1, (angle ('>' :: rest)).2) := by
  have hspelling : spelling? ('>' :: rest) =
      some (.operator (angle ('>' :: rest)).1, (angle ('>' :: rest)).2) := by
    rw [spelling?, filter_spells, vocabulary_greater]
    simp only [List.filter_cons, List.filter_nil,
      spells_symbol (show ['>'].getLast?.any Char.isAlphanum = false by decide),
      spells_symbol (show ['>', '>'].getLast?.any Char.isAlphanum = false by decide),
      spells_symbol (show ['>', '='].getLast?.any Char.isAlphanum = false by decide),
      spells_symbol (show ['>', '>', '='].getLast?.any Char.isAlphanum = false by decide),
      spells_symbol (show ['>', '>', '>'].getLast?.any Char.isAlphanum = false by decide),
      spells_symbol (show ['>', '>', '>', '='].getLast?.any Char.isAlphanum = false by decide)]
    -- The first three characters behind `>` decide.
    rcases rest with _ | ⟨a, rest⟩
    · decide
    by_cases hequal : a = '='
    · subst hequal
      simp [List.isPrefixOf, longer, angle]
    by_cases hgreater : a = '>'
    · subst hgreater
      rcases rest with _ | ⟨b, rest⟩
      · decide
      by_cases hequal : b = '='
      · subst hequal
        simp [List.isPrefixOf, longer, angle]
      by_cases hgreater : b = '>'
      · subst hgreater
        rcases rest with _ | ⟨c, rest⟩
        · decide
        by_cases hequal : c = '='
        · subst hequal
          simp [List.isPrefixOf, longer, angle]
        · simp [List.isPrefixOf, longer, angle, hequal, Ne.symm hequal]
      · simp [List.isPrefixOf, longer, angle, hequal, hgreater, Ne.symm hequal, Ne.symm hgreater]
    · simp [List.isPrefixOf, longer, angle, hequal, hgreater, Ne.symm hequal, Ne.symm hgreater]
  rw [classify_cons, hspelling]
  simp [blank?, byteOrderMark, isBlank, comment?, numeral?, startsNumeral, quotation?, identifier?,
    isWordStart]

theorem classify_equal (rest : List Char) :
    classify ('=' :: rest) =
      (.operator (angle ('=' :: rest)).1, (angle ('=' :: rest)).2) := by
  have hspelling : spelling? ('=' :: rest) =
      some (.operator (angle ('=' :: rest)).1, (angle ('=' :: rest)).2) := by
    rw [spelling?, filter_spells, vocabulary_equal]
    simp only [List.filter_cons, List.filter_nil,
      spells_symbol (show ['='].getLast?.any Char.isAlphanum = false by decide),
      spells_symbol (show ['=', '='].getLast?.any Char.isAlphanum = false by decide)]
    rcases rest with _ | ⟨a, rest⟩
    · decide
    by_cases hequal : a = '='
    · subst hequal
      simp [List.isPrefixOf, longer, angle]
    · simp [List.isPrefixOf, longer, angle, hequal, Ne.symm hequal]
  rw [classify_cons, hspelling]
  simp [blank?, byteOrderMark, isBlank, comment?, numeral?, startsNumeral, quotation?, identifier?,
    isWordStart]

theorem angle_greater {rest : List Char} (h : (angle ('>' :: rest)).1 = .greater) :
    (angle ('>' :: rest)).2 = 1 := by
  unfold angle at h ⊢
  split <;> simp_all

theorem angle_shiftRight {rest : List Char} (h : (angle ('>' :: rest)).1 = .shiftRight) :
    ∃ behind, rest = '>' :: behind ∧ (angle ('>' :: rest)).2 = 2 ∧
      angle ('>' :: behind) = (.greater, 1) := by
  unfold angle at h ⊢
  split <;> simp_all

def isAngleChar (c : Char) : Bool :=
  c == '>' || c == '='

theorem classify_angle {c : Char} (rest : List Char) (hc : isAngleChar c = true) :
    classify (c :: rest) = (.operator (angle (c :: rest)).1, (angle (c :: rest)).2) := by
  simp only [isAngleChar, Bool.or_eq_true, beq_iff_eq] at hc
  rcases hc with rfl | rfl
  · exact classify_greater rest
  · exact classify_equal rest

end Lexeme

namespace TokenKind

/-- The operators that are written with `>` and `=` alone. -/
def isAngle : TokenKind → Bool
  | assign | operator .equal => true
  | kind => kind.startsWithGreater

/-- The operators among them in which an equals sign is written. -/
def endsWithEqual : TokenKind → Bool
  | assign | operator .equal | operator .greaterEqual | operator .shiftRightAssign
  | operator .shiftRightArithAssign => true
  | _ => false

end TokenKind

namespace Lexeme

/-- What `angle` answers: an operator written with the characters that it passes. -/
theorem angle_spec {c : Char} (rest : List Char) (hc : isAngleChar c = true) :
    let operator := TokenKind.operator (angle (c :: rest)).1
    let body := (c :: rest).take (angle (c :: rest)).2
    operator.isAngle = true ∧ body.all isAngleChar = true ∧
      (operator.endsWithEqual = true ↔ '=' ∈ body) := by
  simp only [isAngleChar, Bool.or_eq_true, beq_iff_eq] at hc
  rcases hc with rfl | rfl
  all_goals
    unfold angle
    split <;> simp_all [isAngleChar, TokenKind.isAngle, TokenKind.startsWithGreater,
      TokenKind.endsWithEqual]

/-- Behind its first character an operator is not cut shorter. -/
theorem angle_greater_le (text : List Char) : (angle ('>' :: text)).2 ≤ (angle text).2 + 1 := by
  unfold angle
  split <;> split <;> simp_all

end Lexeme

namespace Source

/-- A run of `>` and `=` is cut into operators of its own, whatever stands behind it. -/
theorem tokensAt_angles {run after : Source} (offset : Nat)
    (hrun : run.all Lexeme.isAngleChar = true)
    (hafter : after.head?.any Lexeme.isAngleChar = false) :
    ∃ operators, tokensAt offset (run ++ after) =
        operators ++ tokensAt (offset + size run) after ∧
      (operators = [] → run = []) ∧
      (∀ last, operators.getLast? = some last → last.span.stop = offset + size run) ∧
      Grammar.byteCount operators = size run ∧
      (∀ token ∈ operators, token.kind.isAngle = true) ∧
      ((∃ token ∈ operators, token.kind.endsWithEqual = true) ↔ '=' ∈ run) := by
  induction hlength : run.length using Nat.strongRecOn generalizing run offset with
  | ind length ih =>
      cases run with
      | nil => exact ⟨[], by simp, by simp, by simp, rfl, by simp, by simp⟩
      | cons c rest =>
          have hc : Lexeme.isAngleChar c = true := by
            simp only [List.all_cons, Bool.and_eq_true] at hrun
            exact hrun.1
          have hclassify : Lexeme.classify (c :: rest ++ after) = _ :=
            Lexeme.classify_angle (rest ++ after) hc
          have hspec := Lexeme.angle_spec (rest ++ after) hc
          have hne : c :: rest ++ after ≠ [] := by simp
          have hpos := Lexeme.classify_pos hne
          have hle := Lexeme.classify_le_length (c :: rest ++ after)
          simp only [hclassify] at hpos hle
          rw [← List.cons_append] at hclassify hspec hpos hle
          generalize hangle : Lexeme.angle (c :: rest ++ after) = found at *
          obtain ⟨operator, count⟩ := found
          simp only at hspec hpos hle
          obtain ⟨hkind, hbody, hequal⟩ := hspec
          -- The operator ends within the run, since the text behind the run goes on otherwise.
          have hcount : count ≤ (c :: rest).length := by
            refine Nat.le_of_not_lt fun hlong => ?_
            obtain ⟨d, tail, rfl⟩ : ∃ d tail, after = d :: tail := by
              cases after with
              | nil =>
                  simp only [List.append_nil] at hle
                  omega
              | cons d tail => exact ⟨d, tail, rfl⟩
            have hd : d ∈ (c :: rest ++ d :: tail).take count := by
              rw [List.take_append, List.mem_append]
              right
              obtain ⟨extra, hextra⟩ : ∃ extra, count - (c :: rest).length = extra + 1 :=
                ⟨count - (c :: rest).length - 1, by omega⟩
              rw [hextra, List.take_succ_cons]
              exact List.mem_cons_self
            simp [List.all_eq_true.mp hbody d hd] at hafter
          have htake : (c :: rest ++ after).take count = (c :: rest).take count :=
            List.take_append_of_le_length hcount
          have hdrop : (c :: rest ++ after).drop count = (c :: rest).drop count ++ after :=
            List.drop_append_of_le_length hcount
          have hsplit := List.take_append_drop count (c :: rest)
          have hlast : ((c :: rest).drop count).all Lexeme.isAngleChar = true := by
            rw [← hsplit, List.all_append, Bool.and_eq_true] at hrun
            exact hrun.2
          have hshorter : ((c :: rest).drop count).length < length := by
            rw [← hlength, List.length_drop]
            omega
          obtain ⟨operators, htokens, hnonempty, hstop, hbytes, hkinds, hequals⟩ :=
            ih _ hshorter (offset + size ((c :: rest).take count)) hlast rfl
          have hsignificant : (TokenKind.operator operator).isTrivia = false := rfl
          have hsize : size (c :: rest) =
              size ((c :: rest).take count) + size ((c :: rest).drop count) := by
            rw [← size_append, hsplit]
          refine ⟨⟨.operator operator,
              ⟨offset, offset + size ((c :: rest).take count)⟩,
              String.ofList ((c :: rest).take count)⟩ :: operators, ?_, by simp, ?_, ?_, ?_, ?_⟩
          · rw [tokensAt_eq hne, hclassify, hsize, ← Nat.add_assoc]
            simp only [hsignificant, Bool.false_eq_true, ↓reduceIte]
            rw [htake, hdrop, htokens, List.cons_append]
          · intro last hlast
            cases operators with
            | nil =>
                cases hlast
                rw [hsize, hnonempty rfl]
                rfl
            | cons next others =>
                rw [List.getLast?_cons_cons] at hlast
                rw [hstop last hlast, hsize, Nat.add_assoc]
          · rw [Grammar.byteCount_cons, hbytes, hsize]
            exact congrArg (· + _) (Nat.add_sub_cancel_left _ _)
          · simpa using ⟨hkind, hkinds⟩
          · rw [htake] at hequal
            rw [← hsplit, List.mem_append, ← hequals, ← hequal]
            simp

theorem vocabulary_startsWithGreater :
    ∀ entry ∈ Lexeme.vocabulary, entry.2.startsWithGreater = true →
      entry.1.head? = some '>' := by
  decide

/-- The text of a token that starts with `>` does. -/
theorem Holds.greater_cons {source : Source} {token : Token} {body after : Source}
    (h : Holds source token body after) (hkind : token.kind.startsWithGreater = true) :
    ∃ others, body = '>' :: others := by
  have hvocabulary : token.kind.inVocabulary = true := by
    unfold TokenKind.startsWithGreater at hkind
    split at hkind <;> simp_all [TokenKind.inVocabulary]
  have hhead := vocabulary_startsWithGreater _ (h.mem_vocabulary hvocabulary) hkind
  obtain ⟨c, others, rfl⟩ := List.exists_cons_of_ne_nil h.nonempty
  simp only [List.head?_cons, Option.some.injEq] at hhead
  exact ⟨others, by rw [hhead]⟩

/-- The text behind the first byte of a token that starts with `>`. -/
theorem Holds.found_next {source : Source} {token : Token} {others after : Source}
    (h : Holds source token ('>' :: others) after) :
    source.suffix? (token.span.start + 1) = some (others ++ after) := by
  obtain ⟨before, hsource, hsize⟩ := suffix?_eq_some_iff.mp h.found
  refine suffix?_eq_some_iff.mpr ⟨before ++ ['>'], by simp [hsource], ?_⟩
  rw [size_append, hsize]
  rfl

/-- What is read behind the first byte of an operator reaches as far as the operator. -/
theorem Holds.stop_le_next {source : Source} {token : Token} {c : Char} {others after : Source}
    (h : Holds source token ('>' :: c :: others) after) :
    ∃ next rest, source.tokensFrom (token.span.start + 1) = next :: rest ∧
      token.span.stop ≤ next.span.stop := by
  have hclassify := h.classified
  rw [List.cons_append, Lexeme.classify_greater, Prod.mk.injEq] at hclassify
  have hangle := (@Lexeme.angle_spec '>' (c :: others ++ after) rfl).2.1
  have hlonger := Lexeme.angle_greater_le (c :: others ++ after)
  rw [hclassify.2] at hangle hlonger
  have hc : Lexeme.isAngleChar c = true := List.all_eq_true.mp hangle c (by simp)
  rw [tokensFrom_of_suffix? h.found_next, List.cons_append, tokensAt_eq (by simp),
    Lexeme.classify_angle _ hc]
  refine ⟨_, _, rfl, ?_⟩
  have htake : (c :: (others ++ after)).take (Lexeme.angle (c :: (others ++ after))).2 =
      (c :: others) ++
        after.take ((Lexeme.angle (c :: (others ++ after))).2 - (c :: others).length) := by
    rw [← List.cons_append, List.take_append, List.take_of_length_le]
    simpa using hlonger
  have hone : '>'.utf8Size = 1 := rfl
  rw [h.stop, htake]
  simp only [size_append, size_cons, hone]
  omega

/-- Two readings of the text behind the first byte of an operator: `fresh` is what is read there
anew, and `stale` the rest of what was read together with the operator. -/
structure Resynced (token : Token) (fresh stale : List Token) (freshAngles staleAngles : List Token)
    (common : List Token) : Prop where
  fresh_eq : fresh = freshAngles ++ common
  stop_eq : ∀ other last, freshAngles.getLast? = some other →
    (token :: staleAngles).getLast? = some last → other.span.stop = last.span.stop
  stale_eq : stale = staleAngles ++ common
  freshAngle : ∀ other ∈ freshAngles, other.kind.isAngle = true
  staleAngle : ∀ other ∈ staleAngles, other.kind.isAngle = true
  bytes : Grammar.byteCount freshAngles + 1 = token.span.length + Grammar.byteCount staleAngles
  equal_iff : (∃ other ∈ freshAngles, other.kind.endsWithEqual = true) ↔
    token.kind.endsWithEqual = true ∨ ∃ other ∈ staleAngles, other.kind.endsWithEqual = true

theorem head?_dropWhile_any (test : Char → Bool) (text : List Char) :
    (text.dropWhile test).head?.any test = false := by
  induction text with
  | nil => rfl
  | cons c rest ih =>
      rw [List.dropWhile_cons]
      split
      · exact ih
      · rename_i hc
        simpa using hc

theorem resynced_of_startsWithGreater {source : Source} {offset : Nat} {token : Token}
    {rest : List Token} (h : source.tokensFrom offset = token :: rest)
    (hkind : token.kind.startsWithGreater = true) :
    ∃ freshAngles staleAngles common,
      Resynced token (source.tokensFrom (token.span.start + 1)) rest freshAngles staleAngles
        common := by
  obtain ⟨body, after, hholds, -, hrest⟩ := tokensFrom_eq_cons h
  obtain ⟨others, rfl⟩ := hholds.greater_cons hkind
  set run := (others ++ after).takeWhile Lexeme.isAngleChar with hrun
  set behind := (others ++ after).dropWhile Lexeme.isAngleChar with hbehind
  have hsplit : run ++ behind = others ++ after := List.takeWhile_append_dropWhile
  have hangles : run.all Lexeme.isAngleChar = true := List.all_takeWhile
  have hboundary : behind.head?.any Lexeme.isAngleChar = false := head?_dropWhile_any _ _
  have hfound : source.suffix? token.span.start = some ('>' :: (run ++ behind)) := by
    rw [hholds.found, hsplit, List.cons_append]
  have hnext : source.suffix? (token.span.start + 1) = some (run ++ behind) := by
    rw [hsplit]
    exact hholds.found_next
  have hrun' : ('>' :: run).all Lexeme.isAngleChar = true := by
    simpa [Lexeme.isAngleChar] using hangles
  obtain ⟨fresh, hfresh, -, hfreshStop, hfreshBytes, hfreshAngle, hfreshEqual⟩ :=
    tokensAt_angles (token.span.start + 1) hangles hboundary
  obtain ⟨stale, hstale, hnonempty, hstaleStop, hstaleBytes, hstaleAngle, hstaleEqual⟩ :=
    tokensAt_angles token.span.start hrun' hboundary
  have hwhole : source.tokensFrom token.span.start = token :: rest := by
    rw [hrest, hholds.tokensFrom_start]
  have hoffset : token.span.start + size ('>' :: run) = token.span.start + 1 + size run := by
    rw [size_cons, Nat.add_assoc]
    rfl
  rw [tokensFrom_of_suffix? hfound, ← List.cons_append, hstale, hoffset] at hwhole
  cases stale with
  | nil => exact absurd (hnonempty rfl) (by simp)
  | cons first others =>
      obtain ⟨rfl, hothers⟩ := List.cons.inj hwhole
      refine ⟨fresh, others, _, ?_, ?_, hothers.symm, hfreshAngle, ?_, ?_, ?_⟩
      · rw [tokensFrom_of_suffix? hnext, hfresh]
      · intro other last hother hlast
        rw [hfreshStop other hother, hstaleStop last hlast, hoffset]
      · exact fun other hmem => hstaleAngle other (List.mem_cons_of_mem _ hmem)
      · rw [Grammar.byteCount_cons, size_cons] at hstaleBytes
        rw [hfreshBytes, hstaleBytes, Nat.add_comm]
        rfl
      · rw [hfreshEqual]
        simpa using hstaleEqual.symm

end Source

namespace Grammar.Setting

/-- For tokens that were read from the source, the text behind the first byte of a closing operator
is always as if read anew. -/
theorem afterGreater?_cons {setting : Setting} {offset : Nat} {token : Token} {rest : List Token}
    (h : setting.source.tokensFrom offset = token :: rest) :
    setting.afterGreater? (token :: rest) =
      if token.kind.startsWithGreater then some (setting.source.tokensFrom (token.span.start + 1))
      else none := by
  obtain ⟨body, after, hholds, -, rfl⟩ := Source.tokensFrom_eq_cons h
  by_cases hkind : token.kind.startsWithGreater = true
  · rw [if_pos hkind]
    obtain ⟨others, rfl⟩ := hholds.greater_cons hkind
    have hclassify := hholds.classified
    rw [List.cons_append, Lexeme.classify_greater, Prod.mk.injEq] at hclassify
    obtain ⟨hoperator, hlength⟩ := hclassify
    have hstop := hholds.stop
    by_cases hgreater : token.kind = .greater
    · rw [hgreater] at hoperator
      have hone := Lexeme.angle_greater (TokenKind.operator.inj hoperator)
      obtain rfl : others = [] := by simpa [hone] using hlength.symm
      rw [afterGreater?, hgreater, hstop]
      rfl
    · by_cases hshift : token.kind = .operator .shiftRight
      · rw [hshift] at hoperator
        obtain ⟨behind, hbehind, htwo, hnext⟩ :=
          Lexeme.angle_shiftRight (TokenKind.operator.inj hoperator)
        obtain ⟨c, rfl⟩ : ∃ c, others = [c] := by
          rw [htwo] at hlength
          exact List.length_eq_one_iff.mp (by simpa using hlength.symm)
        simp only [List.cons_append, List.nil_append, List.cons.injEq] at hbehind
        obtain ⟨rfl, rfl⟩ := hbehind
        have hfound := hholds.found_next
        have hsize : Source.size ['>'] = 1 := rfl
        have hend : token.span.stop = token.span.start + 1 + 1 := hstop
        rw [afterGreater?, hshift, Source.tokensFrom_of_suffix? hfound, List.singleton_append,
          Source.tokensAt_eq (by simp), Lexeme.classify_greater, hnext]
        simp only [TokenKind.isTrivia, Bool.false_eq_true, ↓reduceIte, List.take_succ_cons,
          List.take_zero, List.drop_succ_cons, List.drop_zero, hsize, hend]
        rw [← hend, Source.tokensFrom_of_suffix? hholds.found_after]
      · unfold afterGreater?
        dsimp only
        split
        · contradiction
        · contradiction
        · rw [if_pos hkind]
  · rw [if_neg hkind]
    unfold afterGreater?
    dsimp only
    split
    · simp_all [TokenKind.startsWithGreater]
    · simp_all [TokenKind.startsWithGreater]
    · rw [if_neg hkind]

end Grammar.Setting

end ScriptSyntax
