import Mathlib.Computability.Language
import Mathlib.Data.List.TakeWhile
import ScriptSyntax.Proofs.Lexing

/-!
# Numerals are read as far as they go

The numerals are a language, written here with the operations on languages.  A reader that takes
each part of it greedily takes the longest first part of a text that is a numeral, since no part can
start with a character that may stand in the part before it.
-/

namespace ScriptSyntax.Lexeme

open Computability

/-! ## The numerals -/

/-- The words of one character that are made of these characters. -/
def oneOf (chars : String) : Language Char :=
  {word | ∃ c ∈ chars.toList, word = [c]}

def optional (language : Language Char) : Language Char :=
  1 + language

def digit : Language Char :=
  oneOf "0123456789"

/-- A radix, the marks that select it and its digits. -/
structure Radix where
  base : Nat
  marks : String
  digits : String

def radixes : List Radix :=
  [⟨2, "bB", "01"⟩, ⟨8, "oO", "01234567"⟩, ⟨10, "dD", "0123456789"⟩,
    ⟨16, "xX", "0123456789abcdefABCDEF"⟩]

/-- A zero, the mark of the radix and any number of its digits. -/
def Radix.numerals (radix : Radix) : Language Char :=
  oneOf "0" * (oneOf radix.marks * (oneOf radix.digits)∗)

def bitsNumerals : Language Char :=
  {word | ∃ radix ∈ radixes, word ∈ radix.numerals}

def mantissas : Language Char :=
  digit * digit∗ * optional (oneOf "." * digit∗) + oneOf "." * (digit * digit∗)

def exponents : Language Char :=
  oneOf "eE" * (optional (oneOf "+-") * digit∗)

def decimalNumerals : Language Char :=
  mantissas * optional exponents * optional (oneOf "fF")

def numerals : Language Char :=
  bitsNumerals + decimalNumerals

def EndsInFloatMark (word : List Char) : Prop :=
  word.getLast? = some 'f' ∨ word.getLast? = some 'F'

/-- The word has a point or the mark of an exponent. -/
def HasPointOrExponent (word : List Char) : Prop :=
  '.' ∈ word ∨ 'e' ∈ word ∨ 'E' ∈ word

/-- The kind of a numeral. -/
structure NumeralKind (word : List Char) (kind : TokenKind) : Prop where
  bits : word ∈ bitsNumerals → kind = .bitsConstant
  float : word ∉ bitsNumerals → EndsInFloatMark word → kind = .floatConstant
  double : word ∉ bitsNumerals → ¬EndsInFloatMark word → HasPointOrExponent word →
    kind = .doubleConstant
  int : word ∉ bitsNumerals → ¬EndsInFloatMark word → ¬HasPointOrExponent word →
    kind = .intConstant

/-! ## Longest first parts -/

/-- The first part of that length is in the language, and no longer one is. -/
structure Longest (language : Language Char) (text : List Char) (length : Nat) : Prop where
  mem : text.take length ∈ language
  longest : ∀ other ∈ language, other <+: text → other.length ≤ length

/-- The words are made of these characters. -/
def Within (alphabet : String) (language : Language Char) : Prop :=
  ∀ word ∈ language, ∀ c ∈ word, c ∈ alphabet.toList

/-- Each word starts with one of these characters. -/
def StartsIn (chars : String) (language : Language Char) : Prop :=
  ∀ word ∈ language, ∃ c ∈ chars.toList, ∃ tail, word = c :: tail

/-- No word starts with one of these characters. -/
def Avoids (alphabet : String) (language : Language Char) : Prop :=
  ∀ c ∈ alphabet.toList, ∀ tail, c :: tail ∉ language

section

variable {first second language : Language Char} {alphabet larger chars : String}
  {text rest : List Char} {c : Char} {length more : Nat} {test : Char → Bool}

theorem Within.mul (hfirst : Within alphabet first) (hsecond : Within alphabet second) :
    Within alphabet (first * second) := by
  rintro _ ⟨left, hleft, right, hright, rfl⟩ c hc
  rcases List.mem_append.mp hc with hc | hc
  · exact hfirst left hleft c hc
  · exact hsecond right hright c hc

theorem Within.add (hfirst : Within alphabet first) (hsecond : Within alphabet second) :
    Within alphabet (first + second) := by
  rintro word (hword | hword)
  · exact hfirst word hword
  · exact hsecond word hword

theorem Within.optional (h : Within alphabet language) : Within alphabet (optional language) := by
  rintro word (hword | hword)
  · rintro c hc
    rw [(Language.mem_one word).mp hword] at hc
    cases hc
  · exact h word hword

theorem Within.mono (h : Within alphabet language)
    (hsub : ∀ c ∈ alphabet.toList, c ∈ larger.toList) : Within larger language :=
  fun word hword c hc => hsub c (h word hword c hc)

theorem within_oneOf (h : ∀ c ∈ chars.toList, c ∈ alphabet.toList) :
    Within alphabet (oneOf chars) := by
  rintro _ ⟨c, hc, rfl⟩ d hd
  rw [List.mem_singleton.mp hd]
  exact h c hc

theorem mem_kstar_oneOf {word : List Char} :
    word ∈ (oneOf chars)∗ ↔ ∀ c ∈ word, c ∈ chars.toList := by
  rw [Language.mem_kstar]
  constructor
  · rintro ⟨words, rfl, hwords⟩ c hc
    obtain ⟨word, hmem, hc⟩ := List.mem_flatten.mp hc
    obtain ⟨d, hd, rfl⟩ := hwords word hmem
    rwa [List.mem_singleton.mp hc]
  · intro h
    refine ⟨word.map fun c => [c], (List.flatMap_singleton' word).symm, ?_⟩
    intro piece hpiece
    obtain ⟨c, hc, rfl⟩ := List.mem_map.mp hpiece
    exact ⟨c, h c hc, rfl⟩

theorem within_kstar_oneOf (h : ∀ c ∈ chars.toList, c ∈ alphabet.toList) :
    Within alphabet (oneOf chars)∗ :=
  fun _ hword c hc => h c (mem_kstar_oneOf.mp hword c hc)

theorem mem_oneOf_mul {word : List Char} :
    word ∈ oneOf chars * language ↔ ∃ c ∈ chars.toList, ∃ tail ∈ language, word = c :: tail := by
  constructor
  · rintro ⟨_, ⟨c, hc, rfl⟩, tail, htail, rfl⟩
    exact ⟨c, hc, tail, htail, rfl⟩
  · rintro ⟨c, hc, tail, htail, rfl⟩
    exact ⟨[c], ⟨c, hc, rfl⟩, tail, htail, rfl⟩

theorem startsIn_oneOf : StartsIn chars (oneOf chars) := by
  rintro _ ⟨c, hc, rfl⟩
  exact ⟨c, hc, [], rfl⟩

theorem startsIn_oneOf_mul : StartsIn chars (oneOf chars * language) := by
  intro word hword
  obtain ⟨c, hc, tail, -, rfl⟩ := mem_oneOf_mul.mp hword
  exact ⟨c, hc, tail, rfl⟩

theorem StartsIn.avoids (h : StartsIn chars language)
    (hother : ∀ c ∈ alphabet.toList, c ∉ chars.toList) : Avoids alphabet language := by
  intro c hc tail hmem
  obtain ⟨d, hd, _, heq⟩ := h _ hmem
  rw [List.cons.injEq] at heq
  exact hother c hc (heq.1 ▸ hd)

theorem StartsIn.absent (h : StartsIn chars language)
    (hother : ∀ c ∈ chars.toList, ∀ rest, text ≠ c :: rest) :
    ∀ word ∈ language, ¬word <+: text := by
  rintro word hword ⟨after, rfl⟩
  obtain ⟨c, hc, tail, rfl⟩ := h word hword
  exact hother c hc (tail ++ after) rfl

theorem avoids_kstar_oneOf (h : ∀ c ∈ alphabet.toList, c ∉ chars.toList) :
    Avoids alphabet (oneOf chars)∗ :=
  fun c hc _ hmem => h c hc (mem_kstar_oneOf.mp hmem c List.mem_cons_self)

theorem Avoids.optional (h : Avoids alphabet language) : Avoids alphabet (optional language) := by
  rintro c hc tail (hmem | hmem)
  · cases (Language.mem_one _).mp hmem
  · exact h c hc tail hmem

/-- No longer first part of the first language goes on with the second one. -/
theorem Longest.mul (hfirst : Longest first text length) (hwithin : Within alphabet first)
    (havoids : Avoids alphabet second) (hsecond : Longest second (text.drop length) more) :
    Longest (first * second) text (length + more) := by
  refine ⟨?_, ?_⟩
  · rw [List.take_add]
    exact ⟨_, hfirst.mem, _, hsecond.mem, rfl⟩
  · rintro _ ⟨left, hleft, right, hright, rfl⟩ ⟨after, rfl⟩
    have hle := hfirst.longest left hleft ⟨right ++ after, (List.append_assoc ..).symm⟩
    rw [List.length_append]
    rcases Nat.eq_or_lt_of_le hle with rfl | hlt
    · have hfront : right <+: (left ++ right ++ after).drop left.length := by
        rw [List.append_assoc, List.drop_left]
        exact List.prefix_append right after
      have hrest := hsecond.longest right hright hfront
      omega
    · cases right with
      | nil =>
          rw [List.length_nil]
          omega
      | cons c tail =>
          have hc : c ∈ (left ++ c :: tail ++ after).take length := by
            have hindex : (left ++ c :: tail ++ after)[left.length]? = some c := by simp
            rw [← List.getElem?_take_of_lt hlt] at hindex
            exact List.mem_of_getElem? hindex
          exact absurd hright (havoids c (hwithin _ hfirst.mem c hc) tail)

theorem longest_oneOf_mul (hc : c ∈ chars.toList) (h : Longest language rest length) :
    Longest (oneOf chars * language) (c :: rest) (length + 1) := by
  refine ⟨mem_oneOf_mul.mpr ⟨c, hc, _, h.mem, rfl⟩, ?_⟩
  intro other hother hfront
  obtain ⟨d, -, tail, htail, rfl⟩ := mem_oneOf_mul.mp hother
  exact Nat.succ_le_succ (h.longest tail htail (List.cons_prefix_cons.mp hfront).2)

theorem longest_oneOf (hc : c ∈ chars.toList) (rest : List Char) :
    Longest (oneOf chars) (c :: rest) 1 := by
  refine ⟨⟨c, hc, rfl⟩, ?_⟩
  rintro _ ⟨d, -, rfl⟩ -
  exact Nat.le_refl 1

theorem Longest.optional (h : Longest language text length) :
    Longest (optional language) text length := by
  refine ⟨.inr h.mem, ?_⟩
  rintro other (hother | hother) hfront
  · rw [(Language.mem_one other).mp hother]
    exact Nat.zero_le _
  · exact h.longest other hother hfront

theorem longest_optional_zero (h : ∀ other ∈ language, ¬other <+: text) :
    Longest (Lexeme.optional language) text 0 := by
  refine ⟨.inl ((Language.mem_one _).mpr rfl), ?_⟩
  rintro other (hother | hother) hfront
  · rw [(Language.mem_one other).mp hother]
    exact Nat.le_refl 0
  · exact absurd hfront (h other hother)

theorem longest_optional_absent (h : StartsIn chars language)
    (hother : ∀ c ∈ chars.toList, ∀ rest, text ≠ c :: rest) :
    Longest (Lexeme.optional language) text 0 :=
  longest_optional_zero (h.absent hother)

theorem Longest.add_left (h : Longest first text length)
    (hsecond : ∀ other ∈ second, ¬other <+: text) :
    Longest (first + second) text length := by
  refine ⟨.inl h.mem, ?_⟩
  rintro other (hother | hother) hfront
  · exact h.longest other hother hfront
  · exact absurd hfront (hsecond other hother)

theorem Longest.add_right (h : Longest second text length)
    (hfirst : ∀ other ∈ first, ¬other <+: text) :
    Longest (first + second) text length := by
  rw [add_comm]
  exact h.add_left hfirst

/-- A run of the characters that satisfy a test is as long as it can be. -/
theorem longest_run (htest : ∀ c, test c = true ↔ c ∈ chars.toList) (text : List Char) :
    Longest (oneOf chars)∗ text (run test text) := by
  have htake : text.take (run test text) = text.takeWhile test :=
    (List.prefix_iff_eq_take.mp (List.takeWhile_prefix test)).symm
  refine ⟨?_, ?_⟩
  · rw [htake, mem_kstar_oneOf]
    exact fun c hc => (htest c).mp (List.mem_takeWhile_imp hc)
  · rintro other hother ⟨after, rfl⟩
    have hall : ∀ c ∈ other, test c = true :=
      fun c hc => (htest c).mpr (mem_kstar_oneOf.mp hother c hc)
    rw [run, List.takeWhile_append_of_pos hall, List.length_append]
    exact Nat.le_add_right _ _

end

/-! ## Reading a numeral -/

theorem test_iff_mem {test : Char → Bool} {chars : String}
    (htest : ∀ c, test c = true → c.toNat < 128) (hchars : ∀ c ∈ chars.toList, c.toNat < 128)
    (hall : ∀ n < 128, test (Char.ofNat n) = decide (Char.ofNat n ∈ chars.toList)) (c : Char) :
    test c = true ↔ c ∈ chars.toList := by
  by_cases hsmall : c.toNat < 128
  · have hc := hall c.toNat hsmall
    rw [Char.ofNat_toNat] at hc
    rw [hc, decide_eq_true_iff]
  · exact ⟨fun h => absurd (htest c h) hsmall, fun h => absurd (hchars c h) hsmall⟩

theorem isDigit_iff (c : Char) : c.isDigit = true ↔ c ∈ "0123456789".toList := by
  refine test_iff_mem (fun c hc => ?_) (by decide) (by decide +kernel) c
  simp only [Char.isDigit, Bool.and_eq_true, decide_eq_true_eq] at hc
  exact Nat.lt_of_le_of_lt hc.2 (by decide)

theorem small_of_isDigitIn {radix : Nat} {c : Char} (h : isDigitIn radix c = true) :
    c.toNat < 128 := by
  unfold isDigitIn digitValue? at h
  split_ifs at h with hdecimal hlower hupper
  · exact Nat.lt_of_le_of_lt hdecimal.2 (by decide)
  · exact Nat.lt_of_le_of_lt hlower.2 (by decide)
  · exact Nat.lt_of_le_of_lt hupper.2 (by decide)
  · cases h

variable {text rest : List Char} {language : Language Char} {chars : String}

theorem longest_fraction (text : List Char) :
    Longest (optional (oneOf "." * digit∗)) text (fraction text) := by
  unfold fraction
  split
  · exact (longest_oneOf_mul (by decide) (longest_run isDigit_iff _)).optional
  · rename_i hpoint
    exact longest_optional_absent startsIn_oneOf_mul (by simpa using hpoint)

theorem longest_signedDigits (text : List Char) :
    Longest (optional (oneOf "+-") * digit∗) text (signedDigits text) := by
  have hwithin : Within "+-" (optional (oneOf "+-")) := (within_oneOf (by decide)).optional
  have havoids : Avoids "+-" digit∗ := avoids_kstar_oneOf (by decide)
  have hsigned {sign : Char} (hsign : sign ∈ "+-".toList) (rest : List Char) :
      Longest (optional (oneOf "+-") * digit∗) (sign :: rest) (run Char.isDigit rest + 1) := by
    rw [Nat.add_comm]
    exact (longest_oneOf hsign rest).optional.mul hwithin havoids (longest_run isDigit_iff _)
  unfold signedDigits
  split
  · exact hsigned (by decide) _
  · exact hsigned (by decide) _
  · rename_i hplus hminus
    have hnone : Longest (optional (oneOf "+-")) text 0 :=
      longest_optional_absent startsIn_oneOf (by simpa using ⟨hplus, hminus⟩)
    have h := hnone.mul hwithin havoids (longest_run isDigit_iff _)
    rwa [Nat.zero_add] at h

theorem longest_exponent (text : List Char) :
    Longest (optional exponents) text (exponent text) := by
  unfold exponent
  split
  · exact (longest_oneOf_mul (by decide) (longest_signedDigits _)).optional
  · exact (longest_oneOf_mul (by decide) (longest_signedDigits _)).optional
  · rename_i hlower hupper
    exact longest_optional_absent startsIn_oneOf_mul (by simpa using ⟨hlower, hupper⟩)

theorem longest_digits {c : Char} (hc : c ∈ "0123456789".toList) (rest : List Char) :
    Longest (digit * digit∗) (c :: rest) (run Char.isDigit (c :: rest)) := by
  have hrun : run Char.isDigit (c :: rest) = run Char.isDigit rest + 1 := by
    simp [run, (isDigit_iff c).mpr hc]
  rw [hrun]
  exact longest_oneOf_mul hc (longest_run isDigit_iff rest)

/-- What a text has to start with to be read as a numeral. -/
def numeralOpenings : Language Char :=
  digit + oneOf "." * digit

theorem longest_mantissa {opening : List Char} (hopening : opening ∈ numeralOpenings)
    (hfront : opening <+: text) :
    Longest mantissas text
      (run Char.isDigit text + fraction (text.drop (run Char.isDigit text))) := by
  obtain ⟨after, rfl⟩ := hfront
  rcases hopening with ⟨c, hc, rfl⟩ | hopening
  · have hpoint : ∀ c ∈ "0123456789".toList, c ∉ ".".toList := by decide
    refine Longest.add_left ?_ (startsIn_oneOf_mul.absent fun d hd rest heq => ?_)
    · exact (longest_digits hc after).mul
        ((within_oneOf (by decide)).mul (within_kstar_oneOf (by decide)) : Within "0123456789" _)
        (startsIn_oneOf_mul.avoids hpoint).optional (longest_fraction _)
    · obtain rfl : c = d := (List.cons.inj heq).1
      exact hpoint c hc hd
  · obtain ⟨point, hpoint, _, ⟨c, hc, rfl⟩, rfl⟩ := mem_oneOf_mul.mp hopening
    obtain rfl : point = '.' := by simpa using hpoint
    have hrun : run Char.isDigit (['.', c] ++ after) = 0 := by simp [run]
    rw [hrun, Nat.zero_add, List.drop_zero]
    refine Longest.add_right (longest_oneOf_mul hpoint (longest_digits hc after)) ?_
    rw [mul_assoc]
    refine startsIn_oneOf_mul.absent fun d hd rest heq => ?_
    obtain rfl : '.' = d := (List.cons.inj heq).1
    exact absurd hd (by decide)

theorem within_mantissas : Within "0123456789." mantissas := by
  have hdigits : Within "0123456789." (digit∗) := within_kstar_oneOf (by decide)
  have hdigit : Within "0123456789." digit := within_oneOf (by decide)
  have hpoint : Within "0123456789." (oneOf ".") := within_oneOf (by decide)
  exact ((hdigit.mul hdigits).mul (hpoint.mul hdigits).optional).add
    (hpoint.mul (hdigit.mul hdigits))

theorem within_real : Within "0123456789.eE+-" (mantissas * optional exponents) := by
  have hdigits : Within "0123456789.eE+-" (digit∗) := within_kstar_oneOf (by decide)
  have hsign : Within "0123456789.eE+-" (oneOf "+-") := within_oneOf (by decide)
  have hmark : Within "0123456789.eE+-" (oneOf "eE") := within_oneOf (by decide)
  have hmantissas : Within "0123456789.eE+-" mantissas := within_mantissas.mono (by decide)
  exact hmantissas.mul (hmark.mul (hsign.optional.mul hdigits)).optional

/-- A decimal number up to its float mark. -/
theorem longest_real {opening : List Char} (hopening : opening ∈ numeralOpenings)
    (hfront : opening <+: text) :
    let whole := run Char.isDigit text
    let point := fraction (text.drop whole)
    Longest (mantissas * optional exponents) text
      (whole + point + exponent (text.drop (whole + point))) :=
  (longest_mantissa hopening hfront).mul within_mantissas
    (startsIn_oneOf_mul.avoids (by decide)).optional (longest_exponent _)

/-! ## Kinds -/

theorem mem_bitsNumerals_iff {word : List Char} :
    word ∈ bitsNumerals ↔ ∃ radix ∈ radixes, ∃ mark ∈ radix.marks.toList,
      ∃ tail ∈ (oneOf radix.digits)∗, word = '0' :: mark :: tail := by
  constructor
  · rintro ⟨radix, hradix, hword⟩
    obtain ⟨zero, hzero, _, hrest, rfl⟩ := mem_oneOf_mul.mp hword
    obtain ⟨mark, hmark, tail, htail, rfl⟩ := mem_oneOf_mul.mp hrest
    obtain rfl : zero = '0' := by simpa using hzero
    exact ⟨radix, hradix, mark, hmark, tail, htail, rfl⟩
  · rintro ⟨radix, hradix, mark, hmark, tail, htail, rfl⟩
    refine ⟨radix, hradix, mem_oneOf_mul.mpr ⟨'0', by decide, _, ?_, rfl⟩⟩
    exact mem_oneOf_mul.mpr ⟨mark, hmark, tail, htail, rfl⟩

theorem within_decimal : Within "0123456789.eE+-fF" decimalNumerals := by
  have hreal : Within "0123456789.eE+-fF" (mantissas * optional exponents) :=
    within_real.mono (by decide)
  exact hreal.mul (within_oneOf (by decide)).optional

/-- The mark of a radix stands in no decimal number. -/
theorem mark_not_mem_decimal {radix : Radix} (hradix : radix ∈ radixes) {mark : Char}
    (hmark : mark ∈ radix.marks.toList) {word : List Char} (hword : word ∈ decimalNumerals) :
    mark ∉ word := by
  have hmarks : ∀ radix ∈ radixes, ∀ mark ∈ radix.marks.toList,
      mark ∉ "0123456789.eE+-fF".toList := by decide
  exact fun hmem => hmarks radix hradix mark hmark (within_decimal word hword mark hmem)

theorem not_mem_bitsNumerals {word : List Char} (hword : word ∈ decimalNumerals) :
    word ∉ bitsNumerals := by
  intro hbits
  obtain ⟨radix, hradix, mark, hmark, tail, -, rfl⟩ := mem_bitsNumerals_iff.mp hbits
  exact mark_not_mem_decimal hradix hmark hword (by simp)

/-- The first part of the text that is cut off is as long as the language allows, and of its
kind. -/
structure CutsNumeral (language : Language Char) (text : List Char) (piece : TokenKind × Nat) :
    Prop where
  longest : Longest language text piece.2
  kind : NumeralKind (text.take piece.2) piece.1

theorem mem_take_of_drop {c : Char} {start length : Nat} (h : text.drop start = c :: rest)
    (hlt : start < length) : c ∈ text.take length := by
  have hindex : text[start]? = some c := by
    rw [← Nat.add_zero start, ← List.getElem?_drop, h]
    rfl
  rw [← List.getElem?_take_of_lt hlt] at hindex
  exact List.mem_of_getElem? hindex

theorem exists_point (h : fraction text ≠ 0) : ∃ rest, text = '.' :: rest := by
  unfold fraction at h
  split at h
  · exact ⟨_, rfl⟩
  · exact absurd rfl h

theorem exists_exponentMark (h : exponent text ≠ 0) :
    ∃ rest, text = 'e' :: rest ∨ text = 'E' :: rest := by
  unfold exponent at h
  split at h
  · exact ⟨_, .inl rfl⟩
  · exact ⟨_, .inr rfl⟩
  · exact absurd rfl h

/-- A number without fraction and exponent is made of digits alone. -/
theorem hasPointOrExponent_iff (text : List Char) :
    let whole := run Char.isDigit text
    let point := fraction (text.drop whole)
    let power := exponent (text.drop (whole + point))
    HasPointOrExponent (text.take (whole + point + power)) ↔ point + power ≠ 0 := by
  intro whole point power
  constructor
  · intro h hnone
    have hdigits : text.take (whole + point + power) = text.takeWhile Char.isDigit := by
      rw [Nat.add_assoc, hnone]
      exact (List.prefix_iff_eq_take.mp (List.takeWhile_prefix _)).symm
    have hdigit {c : Char} (hc : c ∈ text.take (whole + point + power)) : c.isDigit = true :=
      List.mem_takeWhile_imp (hdigits ▸ hc)
    rcases h with h | h | h <;> exact absurd (hdigit h) (by decide)
  · intro hsome
    by_cases hpoint : point = 0
    · have hpower : power ≠ 0 := by omega
      obtain ⟨rest, hrest⟩ := exists_exponentMark hpower
      have hlt : whole + point < whole + point + power := by omega
      rcases hrest with hrest | hrest
      · exact .inr (.inl (mem_take_of_drop hrest hlt))
      · exact .inr (.inr (mem_take_of_drop hrest hlt))
    · obtain ⟨rest, hrest⟩ := exists_point hpoint
      exact .inl (mem_take_of_drop hrest (by omega))

theorem cutsNumeral_decimal {opening : List Char} (hopening : opening ∈ numeralOpenings)
    (hfront : opening <+: text) : CutsNumeral decimalNumerals text (decimal text) := by
  have hreal := longest_real hopening hfront
  have hparts := hasPointOrExponent_iff text
  unfold decimal
  set whole := run Char.isDigit text with hwhole
  set point := fraction (text.drop whole) with hpoint
  set power := exponent (text.drop (whole + point)) with hpower
  dsimp only at hreal hparts ⊢
  have havoids : Avoids "0123456789.eE+-" (optional (oneOf "fF")) :=
    (startsIn_oneOf.avoids (by decide)).optional
  have hfloat {mark : Char} {rest : List Char} (hmark : mark ∈ "fF".toList)
      (hdrop : text.drop (whole + point + power) = mark :: rest) :
      CutsNumeral decimalNumerals text (.floatConstant, whole + point + power + 1) := by
    have hlongest : Longest decimalNumerals text (whole + point + power + 1) := by
      refine hreal.mul within_real havoids ?_
      rw [hdrop]
      exact (longest_oneOf hmark rest).optional
    have hends : EndsInFloatMark (text.take (whole + point + power + 1)) := by
      rw [List.take_add, hdrop]
      simpa [EndsInFloatMark] using hmark
    have hbits := not_mem_bitsNumerals hlongest.mem
    exact ⟨hlongest, fun h => absurd h hbits, fun _ _ => rfl, fun _ h => absurd hends h,
      fun _ h => absurd hends h⟩
  split
  · rename_i hdrop
    exact hfloat (by decide) hdrop
  · rename_i hdrop
    exact hfloat (by decide) hdrop
  · rename_i hlower hupper
    have hlongest : Longest decimalNumerals text (whole + point + power) := by
      refine hreal.mul within_real havoids (longest_optional_absent startsIn_oneOf ?_)
      simpa using ⟨hlower, hupper⟩
    have hends : ¬EndsInFloatMark (text.take (whole + point + power)) := by
      have hwithin := within_real _ hreal.mem
      rintro (hlast | hlast)
      · exact absurd (hwithin _ (List.mem_of_getLast? hlast)) (by decide)
      · exact absurd (hwithin _ (List.mem_of_getLast? hlast)) (by decide)
    have hbits := not_mem_bitsNumerals hlongest.mem
    refine ⟨hlongest, fun h => absurd h hbits, fun _ h => absurd h hends, fun _ _ h => ?_,
      fun _ _ h => ?_⟩
    · exact if_neg (hparts.mp h)
    · exact if_pos (not_not.mp fun hsome => h (hparts.mpr hsome))

theorem radix_of_mark : ∀ radix ∈ radixes, ∀ mark ∈ radix.marks.toList,
    radix? mark = some radix.base := by
  decide

theorem radix_unique : ∀ first ∈ radixes, ∀ second ∈ radixes, ∀ mark ∈ first.marks.toList,
    mark ∈ second.marks.toList → first.digits = second.digits := by
  decide

theorem exists_radix {mark : Char} {base : Nat} (h : radix? mark = some base) :
    ∃ radix ∈ radixes, radix.base = base ∧ mark ∈ radix.marks.toList := by
  unfold radix? at h
  split at h <;> cases h <;> decide

theorem isDigitIn_iff : ∀ radix ∈ radixes, ∀ c, isDigitIn radix.base c = true ↔
    c ∈ radix.digits.toList := by
  have hchars : ∀ radix ∈ radixes, ∀ c ∈ radix.digits.toList, c.toNat < 128 := by decide
  have hall : ∀ radix ∈ radixes, ∀ n < 128,
      isDigitIn radix.base (Char.ofNat n) = decide (Char.ofNat n ∈ radix.digits.toList) := by
    decide +kernel
  intro radix hradix
  exact test_iff_mem (fun _ => small_of_isDigitIn) (hchars radix hradix) (hall radix hradix)

theorem cutsNumeral_bits {piece : TokenKind × Nat} (h : bits? text = some piece) :
    CutsNumeral numerals text piece := by
  unfold bits? at h
  split at h
  · rename_i mark rest
    obtain ⟨base, hbase, rfl⟩ := Option.map_eq_some_iff.mp h
    obtain ⟨radix, hradix, rfl, hmark⟩ := exists_radix hbase
    have hlongest : Longest radix.numerals ('0' :: mark :: rest)
        (run (isDigitIn radix.base) rest + 2) :=
      longest_oneOf_mul (by decide)
        (longest_oneOf_mul hmark (longest_run (isDigitIn_iff radix hradix) rest))
    have hbits : ('0' :: mark :: rest).take (run (isDigitIn radix.base) rest + 2) ∈ bitsNumerals :=
      ⟨radix, hradix, hlongest.mem⟩
    refine ⟨⟨.inl hbits, ?_⟩, fun _ => rfl, fun h => absurd hbits h, fun h => absurd hbits h,
      fun h => absurd hbits h⟩
    rintro other (hother | hother) hfront
    · obtain ⟨found, hfound, mark', hmark', tail, htail, rfl⟩ := mem_bitsNumerals_iff.mp hother
      obtain ⟨-, hrest⟩ := List.cons_prefix_cons.mp hfront
      obtain ⟨rfl, -⟩ := List.cons_prefix_cons.mp hrest
      have hdigits := radix_unique found hfound radix hradix mark' hmark' hmark
      refine hlongest.longest _ ?_ hfront
      rw [hdigits] at htail
      have hmarked := mem_oneOf_mul.mpr ⟨mark', hmark, tail, htail, rfl⟩
      exact mem_oneOf_mul.mpr ⟨'0', by decide, _, hmarked, rfl⟩
    · -- A decimal number ends in front of the mark.
      match other, hfront, hother with
      | [], _, _ => exact Nat.zero_le _
      | [_], _, _ => exact Nat.le_add_left 1 _
      | zero :: found :: tail, hfront, hother =>
          obtain ⟨-, hrest⟩ := List.cons_prefix_cons.mp hfront
          obtain ⟨rfl, -⟩ := List.cons_prefix_cons.mp hrest
          exact absurd (by simp) (mark_not_mem_decimal hradix hmark hother)
  · cases h

/-- Without the mark of a radix behind a zero only decimal numbers stand at the start. -/
theorem not_starts_bits (h : bits? text = none) : ∀ other ∈ bitsNumerals, ¬other <+: text := by
  rintro other hother ⟨after, rfl⟩
  obtain ⟨radix, hradix, mark, hmark, tail, -, rfl⟩ := mem_bitsNumerals_iff.mp hother
  simp [bits?, radix_of_mark radix hradix mark hmark] at h

theorem exists_numeral {opening : List Char} (hopening : opening ∈ numeralOpenings)
    (hfront : opening <+: text) :
    ∃ piece, numeral? text = some piece ∧ CutsNumeral numerals text piece := by
  have hstarts : startsNumeral text = true := by
    obtain ⟨after, rfl⟩ := hfront
    rcases hopening with ⟨c, hc, rfl⟩ | hopening
    · have hdigit := (isDigit_iff c).mpr hc
      unfold startsNumeral
      split <;> simp_all
    · obtain ⟨point, hpoint, _, ⟨c, hc, rfl⟩, rfl⟩ := mem_oneOf_mul.mp hopening
      obtain rfl : point = '.' := by simpa using hpoint
      exact (isDigit_iff c).mpr hc
  refine ⟨(bits? text).getD (decimal text), if_pos hstarts, ?_⟩
  cases hbits : bits? text with
  | some piece => exact cutsNumeral_bits hbits
  | none =>
      have hdecimal := cutsNumeral_decimal hopening hfront
      exact ⟨hdecimal.longest.add_right (not_starts_bits hbits), hdecimal.kind⟩

theorem classify_numeral {opening : List Char} (hopening : opening ∈ numeralOpenings)
    (hfront : opening <+: text) {piece : TokenKind × Nat} (h : numeral? text = some piece) :
    classify text = piece := by
  obtain ⟨after, rfl⟩ := hfront
  have hplain {c : Char} (hc : c ∈ ".0123456789".toList) (rest : List Char) :
      blank? (c :: rest) = none ∧ comment? (c :: rest) = none := by
    have hnotBlank : ∀ c ∈ ".0123456789".toList,
        c ≠ byteOrderMark ∧ isBlank c = false ∧ c ≠ '/' := by
      decide
    obtain ⟨hmark, hblank, hslash⟩ := hnotBlank c hc
    refine ⟨by simp [blank?, hmark, hblank], ?_⟩
    unfold comment?
    split <;> simp_all
  have hfirst : ∃ c ∈ ".0123456789".toList, ∃ rest, opening ++ after = c :: rest := by
    have hdigits : ∀ c ∈ "0123456789".toList, c ∈ ".0123456789".toList := by decide
    rcases hopening with ⟨c, hc, rfl⟩ | hopening
    · exact ⟨c, hdigits c hc, after, rfl⟩
    · obtain ⟨point, hpoint, tail, -, rfl⟩ := mem_oneOf_mul.mp hopening
      obtain rfl : point = '.' := by simpa using hpoint
      exact ⟨'.', by decide, tail ++ after, rfl⟩
  obtain ⟨c, hc, rest, hsource⟩ := hfirst
  rw [hsource] at h ⊢
  rw [classify_cons, (hplain hc rest).1, (hplain hc rest).2, h]
  rfl

/-- A text that starts with a digit, or with a point and a digit, is read as far as it is a numeral:
the piece that is cut off is the longest first part in the language, and of its kind. -/
theorem numerals_longest {text opening : List Char} (hopening : opening ∈ numeralOpenings)
    (hfront : opening <+: text) :
    ∃ piece after, Source.FirstPiece text piece after ∧
      numeral? text = some (piece.kind, piece.text.length) ∧ piece.text ∈ numerals ∧
      (∀ other ∈ numerals, other <+: text → other.length ≤ piece.text.length) ∧
      NumeralKind piece.text piece.kind := by
  obtain ⟨piece, hnumeral, hcuts⟩ := exists_numeral hopening hfront
  have hclassify := classify_numeral hopening hfront hnumeral
  have hne : text ≠ [] := by
    rintro rfl
    cases hnumeral
  have hfirst := Source.firstPiece_classify hne
  have hlength := List.length_take_of_le (classify_le_length text)
  rw [hclassify] at hfirst hlength
  refine ⟨_, _, hfirst, ?_, hcuts.longest.mem, ?_, hcuts.kind⟩
  · rw [hlength]
    exact hnumeral
  · rw [hlength]
    exact hcuts.longest.longest

/-- A point, the mark of an exponent and its sign belong to the number also where no digit follows
them. -/
theorem numerals_longest_openExponent :
    ['1'] ∈ numeralOpenings ∧ ['1'] <+: "1.e+x".toList ∧
      ∃ piece after, Source.FirstPiece "1.e+x".toList piece after ∧
        numeral? "1.e+x".toList = some (piece.kind, piece.text.length) ∧ piece.text ∈ numerals ∧
        (∀ other ∈ numerals, other <+: "1.e+x".toList → other.length ≤ piece.text.length) ∧
        NumeralKind piece.text piece.kind := by
  have hopening : ['1'] ∈ numeralOpenings := .inl ⟨'1', by decide, rfl⟩
  have hfront : ['1'] <+: "1.e+x".toList := by decide
  exact ⟨hopening, hfront, numerals_longest hopening hfront⟩

example : numeral? "1.e+x".toList = some (.doubleConstant, 4) := by decide

example : numeral? "0x1e+5".toList = some (.bitsConstant, 4) := by decide

end ScriptSyntax.Lexeme
