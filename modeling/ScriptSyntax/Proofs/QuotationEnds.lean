import Mathlib.Algebra.Group.Nat.Even
import Mathlib.Order.Bounds.Basic
import ScriptSyntax.Proofs.EncodedText

/-!
# Where quotations end

A quotation ends at the first quote of its kind that an even run of backslashes stands before, and a
heredoc at the next three double quotes.  Both are looked for in the encoded text, byte by byte; the
source is read character by character, with one flag for the backslashes.
-/

namespace ScriptSyntax

/-! ## Quotes and backslashes -/

namespace Lexeme

variable {quote : Char} {seen rest : List Char} {length : Nat}

/-- An even number of backslashes stands at the end of the text. -/
def endsEven (text : List Char) : Bool :=
  (text.rtakeWhile (· = '\\')).length % 2 = 0

theorem endsEven_concat (text : List Char) (c : Char) :
    endsEven (text ++ [c]) = (decide (c ≠ '\\') || !endsEven text) := by
  unfold endsEven
  by_cases hc : c = '\\'
  · rw [List.rtakeWhile_concat_pos _ _ _ (by simpa using hc), List.length_append]
    simp only [List.length_singleton, hc, ne_eq, not_true_eq_false, decide_false, Bool.false_or]
    rw [← decide_not, decide_eq_decide]
    omega
  · rw [List.rtakeWhile_concat_neg _ _ _ (by simpa using hc)]
    simp [hc]

/-- The first quote behind which an even run of backslashes ends what was seen before it. -/
structure FirstQuote (quote : Char) (seen rest before after : List Char) : Prop where
  split : rest = before ++ quote :: after
  even : endsEven (seen ++ before) = true
  first : ∀ other more, rest = other ++ quote :: more → endsEven (seen ++ other) = true →
    before.length ≤ other.length

theorem closing?_eq_some (h : closing? quote (endsEven seen) rest = some length) :
    ∃ before after, FirstQuote quote seen rest before after ∧ length = before.length + 1 := by
  induction rest generalizing seen length with
  | nil => simp [closing?] at h
  | cons c rest ih =>
      rw [closing?] at h
      split at h
      · rename_i hcloses
        obtain ⟨rfl, heven⟩ := hcloses
        refine ⟨[], rest, ⟨rfl, by rwa [List.append_nil], ?_⟩, (Option.some.inj h).symm⟩
        intro other more _ _
        exact Nat.zero_le _
      · rename_i hpasses
        rw [← endsEven_concat] at h
        obtain ⟨inner, hinner, rfl⟩ := Option.map_eq_some_iff.mp h
        obtain ⟨before, after, hfirst, rfl⟩ := ih hinner
        refine ⟨c :: before, after, ⟨by rw [hfirst.split]; rfl, ?_, ?_⟩, rfl⟩
        · rw [List.append_cons]
          exact hfirst.even
        · intro other more hsplit heven
          cases other with
          | nil =>
              rw [List.nil_append, List.cons.injEq] at hsplit
              rw [List.append_nil] at heven
              exact absurd ⟨hsplit.1, heven⟩ hpasses
          | cons d other =>
              rw [List.cons_append, List.cons.injEq] at hsplit
              obtain ⟨rfl, hsplit⟩ := hsplit
              rw [List.append_cons] at heven
              exact Nat.succ_le_succ (hfirst.first other more hsplit heven)

theorem closing?_eq_none (h : closing? quote (endsEven seen) rest = none) {before after : List Char}
    (hsplit : rest = before ++ quote :: after) : endsEven (seen ++ before) = false := by
  induction rest generalizing seen before with
  | nil => simp at hsplit
  | cons c rest ih =>
      rw [closing?] at h
      split at h
      · cases h
      · rename_i hpasses
        rw [← endsEven_concat] at h
        cases before with
        | nil =>
            rw [List.nil_append, List.cons.injEq] at hsplit
            rw [List.append_nil]
            exact Bool.eq_false_iff.mpr fun heven => hpasses ⟨hsplit.1, heven⟩
        | cons d before =>
            rw [List.cons_append, List.cons.injEq] at hsplit
            obtain ⟨rfl, hsplit⟩ := hsplit
            rw [List.append_cons]
            exact ih (Option.map_eq_none_iff.mp h) hsplit

/-- A mark that is looked for is passed over where it first stands, and without it all of the text
is. -/
theorem through_cases {mark : List Char} (hmark : mark ≠ []) (text : List Char) :
    (∃ before after, text = before ++ (mark ++ after) ∧
        through mark text = before.length + mark.length ∧
        ∀ other more, text = other ++ (mark ++ more) → before.length ≤ other.length) ∨
      (through mark text = text.length ∧ ∀ before after, text ≠ before ++ (mark ++ after)) := by
  induction text with
  | nil => exact .inr ⟨rfl, fun before after h => hmark (by simp_all)⟩
  | cons c rest ih =>
      rw [through]
      split
      · rename_i hfound
        obtain ⟨after, hafter⟩ := List.isPrefixOf_iff_prefix.mp hfound
        exact .inl ⟨[], after, hafter.symm, (Nat.zero_add _).symm, fun _ _ _ => Nat.zero_le _⟩
      · rename_i hmissing
        have hlater {other more : List Char} (hsplit : c :: rest = other ++ (mark ++ more)) :
            ∃ tail, other = c :: tail ∧ rest = tail ++ (mark ++ more) := by
          cases other with
          | nil => exact absurd (List.isPrefixOf_iff_prefix.mpr ⟨more, hsplit.symm⟩) hmissing
          | cons d tail =>
              rw [List.cons_append, List.cons.injEq] at hsplit
              exact ⟨tail, by rw [hsplit.1], hsplit.2⟩
        rcases ih with ⟨before, after, hsplit, hlength, hfirst⟩ | ⟨hlength, hnone⟩
        · refine .inl ⟨c :: before, after, by rw [hsplit]; rfl, ?_, ?_⟩
          · rw [hlength, List.length_cons]
            omega
          · intro other more hother
            obtain ⟨tail, rfl, htail⟩ := hlater hother
            exact Nat.succ_le_succ (hfirst tail more htail)
        · refine .inr ⟨by rw [hlength, List.length_cons], ?_⟩
          intro other more hother
          obtain ⟨tail, -, htail⟩ := hlater hother
          exact hnone tail more htail

end Lexeme

/-! ## Ends in the encoded text -/

/-- The byte is the quote, and an even run of backslashes stands between it and the text before that
run; the opening quote, at index 0, is no part of a run. -/
structure ClosesAt (quote : UInt8) (bytes : List UInt8) (index : Nat) : Prop where
  inside : 1 ≤ index
  quoted : bytes[index]? = some quote
  even : Even (((bytes.take index).drop 1).rtakeWhile (· = '\\'.toUInt8)).length

def heredocMark : Source :=
  ['"', '"', '"']

/-- Three double quotes stand in the encoded text, behind those that open it. -/
structure HeredocClosesAt (bytes : List UInt8) (index : Nat) : Prop where
  inside : 3 ≤ index
  marked : heredocMark.bytes <+: bytes.drop index

/-- What is cut off a source that starts with a quote. -/
structure EndsQuotation (quote : Char) (source : Source) (piece : Piece) : Prop where
  closed : ∀ index, IsLeast {i | ClosesAt quote.toUInt8 source.bytes i} index →
    piece.size = index + 1 ∧
      piece.kind =
        if '\n'.toUInt8 ∈ source.bytes.take index then .multilineString else .stringConstant
  unclosed : (∀ index, ¬ClosesAt quote.toUInt8 source.bytes index) →
    piece = ⟨.unterminatedString, source⟩

/-- What is cut off a source that starts with three double quotes. -/
structure EndsHeredoc (source : Source) (piece : Piece) : Prop where
  kind : piece.kind = .heredocString
  closed : ∀ index, IsLeast {i | HeredocClosesAt source.bytes i} index → piece.size = index + 3
  unclosed : (∀ index, ¬HeredocClosesAt source.bytes index) → piece.text = source

open Lexeme

variable {quote : Char} {rest : Source} {index : Nat}

theorem closesAt_iff (hquote : quote.utf8Size = 1) :
    ClosesAt quote.toUInt8 (Source.bytes (quote :: rest)) index ↔
      ∃ before after, rest = before ++ quote :: after ∧ endsEven before = true ∧
        index = Source.size before + 1 := by
  have heven (before after : Source) :
      Even ((((quote.toUInt8 :: Source.bytes (before ++ quote :: after)).take
        (Source.size before + 1)).drop 1).rtakeWhile (· = '\\'.toUInt8)).length ↔
        endsEven before = true := by
    rw [List.take_succ_cons, List.drop_succ_cons, List.drop_zero, Source.bytes_append,
      ← Source.length_bytes, List.take_left, Source.length_rtakeWhile_bytes rfl, Nat.even_iff,
      endsEven, decide_eq_true_iff]
  rw [Source.bytes_cons hquote]
  constructor
  · rintro ⟨hinside, hquoted, hslashes⟩
    obtain ⟨index, rfl⟩ := Nat.exists_eq_add_of_le' hinside
    rw [List.getElem?_cons_succ] at hquoted
    obtain ⟨before, after, rfl, rfl⟩ := (Source.getElem?_bytes_iff hquote).mp hquoted
    exact ⟨before, after, rfl, (heven before after).mp hslashes, rfl⟩
  · rintro ⟨before, after, rfl, hends, rfl⟩
    refine ⟨Nat.le_add_left 1 _, ?_, (heven before after).mpr hends⟩
    rw [List.getElem?_cons_succ]
    exact (Source.getElem?_bytes_iff hquote).mpr ⟨before, after, rfl, rfl⟩

/-- Of two first parts of a text the shorter one takes no more bytes. -/
theorem Source.size_le_of_length_le {first second after more : Source}
    (hsplit : first ++ after = second ++ more) (hlength : first.length ≤ second.length) :
    size first ≤ size second := by
  obtain ⟨tail, rfl⟩ := List.prefix_of_prefix_length_le (List.prefix_append first after)
    (hsplit ▸ List.prefix_append second more) hlength
  rw [size_append]
  exact Nat.le_add_right _ _

theorem endsQuotation_quoted (hquote : quote.utf8Size = 1) (rest : Source) :
    EndsQuotation quote (quote :: rest)
      ⟨(quoted quote rest).1, (quote :: rest).take (quoted quote rest).2⟩ := by
  have hstart : endsEven [] = true := rfl
  unfold quoted
  rw [← hstart]
  cases hclosing : closing? quote (endsEven []) rest with
  | some length =>
      obtain ⟨before, after, hfirst, rfl⟩ := closing?_eq_some hclosing
      have hsplit := hfirst.split
      have hends : ClosesAt quote.toUInt8 (Source.bytes (quote :: rest)) (Source.size before + 1) :=
        (closesAt_iff hquote).mpr ⟨before, after, hsplit, hfirst.even, rfl⟩
      refine ⟨fun index hindex => ?_, fun hnone => absurd hends (hnone _)⟩
      have hleast : index = Source.size before + 1 := by
        refine Nat.le_antisymm (hindex.2 hends) ?_
        obtain ⟨other, more, hother, heven, rfl⟩ := (closesAt_iff hquote).mp hindex.1
        have hlength := hfirst.first other more hother heven
        exact Nat.succ_le_succ
          (Source.size_le_of_length_le (hsplit.symm.trans hother) hlength)
      subst hleast
      have htake : rest.take (before.length + 1) = before ++ [quote] := by
        rw [hsplit, List.append_cons, ← List.length_singleton, ← List.length_append, List.take_left]
      have hbreaks : '\n' ∈ rest.take (before.length + 1) ↔
          '\n'.toUInt8 ∈ (Source.bytes (quote :: rest)).take (Source.size before + 1) := by
        have hbytes : (Source.bytes (quote :: rest)).take (Source.size before + 1) =
            Source.bytes (quote :: before) := by
          rw [Source.bytes_cons hquote, Source.bytes_cons hquote, List.take_succ_cons, hsplit,
            Source.bytes_append, ← Source.length_bytes, List.take_left]
        rw [htake, hbytes, Source.mem_bytes_iff rfl, List.mem_cons, List.mem_append,
          List.mem_singleton, or_comm]
      dsimp only
      refine ⟨?_, if_congr hbreaks rfl rfl⟩
      change Source.size ((quote :: rest).take (before.length + 1 + 1)) = _
      rw [List.take_succ_cons, htake, Source.size_cons, Source.size_append, Source.size_cons,
        Source.size_nil, hquote]
      omega
  | none =>
      refine ⟨fun index hindex => ?_, fun _ => ?_⟩
      · obtain ⟨before, after, hsplit, heven, -⟩ := (closesAt_iff hquote).mp hindex.1
        have hodd := closing?_eq_none hclosing hsplit
        rw [List.nil_append, heven] at hodd
        cases hodd
      · dsimp only
        rw [List.take_of_length_le (by simp)]

theorem size_heredocMark : heredocMark.size = 3 := by
  decide

theorem heredocClosesAt_iff :
    HeredocClosesAt (Source.bytes (heredocMark ++ rest)) index ↔
      ∃ before after, rest = before ++ (heredocMark ++ after) ∧ index = Source.size before + 3 := by
  have hmark : Source.OneByte heredocMark := show ∀ c ∈ heredocMark, c.utf8Size = 1 by decide
  have hdrop (offset : Nat) : (Source.bytes (heredocMark ++ rest)).drop (offset + 3) =
      rest.bytes.drop offset := by
    rw [Nat.add_comm, ← List.drop_drop, ← size_heredocMark, Source.drop_bytes]
  constructor
  · rintro ⟨hinside, hmarked⟩
    obtain ⟨offset, rfl⟩ := Nat.exists_eq_add_of_le' hinside
    rw [hdrop, Source.bytes_prefix_drop_iff (by decide) hmark] at hmarked
    obtain ⟨before, after, hsplit, rfl⟩ := hmarked
    exact ⟨before, after, hsplit, rfl⟩
  · rintro ⟨before, after, hsplit, rfl⟩
    refine ⟨Nat.le_add_left 3 _, ?_⟩
    rw [hdrop, Source.bytes_prefix_drop_iff (by decide) hmark]
    exact ⟨before, after, hsplit, rfl⟩

theorem endsHeredoc_through (rest : Source) :
    EndsHeredoc (heredocMark ++ rest)
      ⟨.heredocString, (heredocMark ++ rest).take (through heredocMark rest + 3)⟩ := by
  have htake (length : Nat) : (heredocMark ++ rest).take (length + 3) =
      heredocMark ++ rest.take length := rfl
  rcases through_cases (show heredocMark ≠ [] by decide) rest with
    ⟨before, after, hsplit, hlength, hfirst⟩ | ⟨hlength, hnone⟩
  · have hends : HeredocClosesAt (Source.bytes (heredocMark ++ rest)) (Source.size before + 3) :=
      heredocClosesAt_iff.mpr ⟨before, after, hsplit, rfl⟩
    refine ⟨rfl, fun index hindex => ?_, fun hnever => absurd hends (hnever _)⟩
    have hleast : index = Source.size before + 3 := by
      refine Nat.le_antisymm (hindex.2 hends) ?_
      obtain ⟨other, more, hother, rfl⟩ := heredocClosesAt_iff.mp hindex.1
      have hlength := hfirst other more hother
      have hshort := Source.size_le_of_length_le (hsplit.symm.trans hother) hlength
      omega
    have hbody : rest.take (before.length + heredocMark.length) = before ++ heredocMark := by
      rw [hsplit, ← List.append_assoc, ← List.length_append, List.take_left]
    change Source.size ((heredocMark ++ rest).take (through heredocMark rest + 3)) = _
    rw [htake, hlength, hbody, Source.size_append, Source.size_append, size_heredocMark, hleast]
    omega
  · refine ⟨rfl, fun index hindex => ?_, fun _ => ?_⟩
    · obtain ⟨before, after, hsplit, -⟩ := heredocClosesAt_iff.mp hindex.1
      exact absurd hsplit (hnone before after)
    · change (heredocMark ++ rest).take (through heredocMark rest + 3) = _
      rw [htake, hlength, List.take_of_length_le (Nat.le_refl _)]

/-! ## Pieces -/

theorem classify_quotation {quote : Char} (hquote : quote = '"' ∨ quote = '\'') (rest : Source)
    {piece : TokenKind × Nat} (h : quotation? (quote :: rest) = some piece) :
    classify (quote :: rest) = piece := by
  rw [classify_cons, h]
  rcases hquote with rfl | rfl <;> rfl

/-- A quotation ends at the first quote of its kind with an even run of backslashes before it, and
is a multiline string if a line break stands inside; without such a quote it is an unterminated
string and takes the rest of the source.  A heredoc ends behind the next three double quotes, or
takes the rest of the source. -/
theorem quotations_end (source : Source) :
    (∀ quote, quote = '"' ∨ quote = '\'' → source.head? = some quote → ¬heredocMark <+: source →
      ∃ piece after, source.FirstPiece piece after ∧ EndsQuotation quote source piece) ∧
    (heredocMark <+: source →
      ∃ piece after, source.FirstPiece piece after ∧ EndsHeredoc source piece) := by
  constructor
  · intro quote hquote hhead hplain
    obtain ⟨rest, rfl⟩ := List.head?_eq_some_iff.mp hhead
    have hquotation : quotation? (quote :: rest) = some (quoted quote rest) := by
      rcases hquote with rfl | rfl
      · unfold quotation?
        split
        · rename_i more hsource
          exact absurd ⟨more, hsource.symm⟩ hplain
        · simp_all
        · simp_all
        · simp_all
      · rfl
    have hclassify := classify_quotation hquote rest hquotation
    have hfirst := Source.firstPiece_classify (List.cons_ne_nil quote rest)
    rw [hclassify] at hfirst
    refine ⟨_, _, hfirst, endsQuotation_quoted ?_ rest⟩
    rcases hquote with rfl | rfl <;> rfl
  · rintro ⟨rest, rfl⟩
    have hclassify : classify (heredocMark ++ rest) =
        (.heredocString, through heredocMark rest + 3) :=
      classify_quotation (.inl rfl) _ rfl
    have hfirst := Source.firstPiece_classify (List.append_ne_nil_of_left_ne_nil
      (show heredocMark ≠ [] by decide) rest)
    rw [hclassify] at hfirst
    exact ⟨_, _, hfirst, endsHeredoc_through rest⟩

/-- Two backslashes escape each other, so the quote behind them ends the string; a heredoc knows no
escape. -/
theorem quotations_end_backslashes :
    (ClosesAt '"'.toUInt8 (Source.bytes "\"é\\\\\" x".toList) 5 ∧
      ∃ piece after, Source.FirstPiece "\"é\\\\\" x".toList piece after ∧
        EndsQuotation '"' "\"é\\\\\" x".toList piece) ∧
    (HeredocClosesAt (Source.bytes "\"\"\"é\\\"\"\"".toList) 6 ∧
      ∃ piece after, Source.FirstPiece "\"\"\"é\\\"\"\"".toList piece after ∧
        EndsHeredoc "\"\"\"é\\\"\"\"".toList piece) := by
  refine ⟨⟨⟨by decide, by decide, by decide⟩, ?_⟩, ⟨⟨by decide, by decide⟩, ?_⟩⟩
  · exact (quotations_end "\"é\\\\\" x".toList).1 '"' (.inl rfl) (by decide) (by decide)
  · exact (quotations_end "\"\"\"é\\\"\"\"".toList).2 (by decide)

end ScriptSyntax
