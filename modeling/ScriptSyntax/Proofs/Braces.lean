import ScriptSyntax.Proofs.Reading

/-!
# Matching braces

The brace that closes a block is found by counting braces.  Everything that passes over text as a
whole, a capture or the recovery after an error, agrees with the count.
-/

namespace ScriptSyntax.Grammar

def opened (tokens : List Token) : Nat :=
  tokens.countP (·.kind = .openBrace)

def closed (tokens : List Token) : Nat :=
  tokens.countP (·.kind = .closeBrace)

/-- A block begins with an opening brace and ends at the first place where as many braces are closed
as were opened. -/
structure IsBlock (tokens : List Token) : Prop where
  opening : tokens.head?.any (·.kind = .openBrace) = true
  balanced : closed tokens = opened tokens
  first : ∀ taken rest, tokens = taken ++ rest → taken ≠ [] → rest ≠ [] →
    closed taken ≠ opened taken

/-- Whether tokens are a block can be counted out. -/
theorem isBlock_iff {tokens : List Token} :
    IsBlock tokens ↔ tokens.head?.any (·.kind = .openBrace) = true ∧
      closed tokens = opened tokens ∧
      ∀ count < tokens.length, count ≠ 0 →
        closed (tokens.take count) ≠ opened (tokens.take count) := by
  constructor
  · intro h
    refine ⟨h.opening, h.balanced, ?_⟩
    intro count hlt hne
    refine h.first _ (tokens.drop count) (List.take_append_drop count tokens).symm ?_ ?_
    · exact List.ne_nil_of_length_pos (by rw [List.length_take]; omega)
    · exact List.ne_nil_of_length_pos (by rw [List.length_drop]; omega)
  · rintro ⟨hopening, hbalanced, hfirst⟩
    refine ⟨hopening, hbalanced, ?_⟩
    rintro taken rest rfl htaken hrest
    have hsome := List.length_pos_iff.mpr htaken
    have hmore := List.length_pos_iff.mpr hrest
    have hcounts := hfirst taken.length (by rw [List.length_append]; omega) (by omega)
    rwa [List.take_left] at hcounts

instance (tokens : List Token) : Decidable (IsBlock tokens) :=
  decidable_of_iff' _ isBlock_iff

/-- The brace that closes a block; `level` counts the blocks open inside it. -/
def closingBrace? : Nat → List Token → Option Token
  | _, [] => none
  | level, token :: rest =>
      match token.kind, level with
      | .openBrace, level => closingBrace? (level + 1) rest
      | .closeBrace, 0 => some token
      | .closeBrace, level + 1 => closingBrace? level rest
      | _, level => closingBrace? level rest

variable {token close : Token} {tokens rest : List Token} {level : Nat}

theorem closingBrace?_openBrace (h : token.kind = .openBrace) :
    closingBrace? level (token :: rest) = closingBrace? (level + 1) rest := by
  rw [closingBrace?.eq_def]
  simp only [h]

theorem closingBrace?_closeBrace (h : token.kind = .closeBrace) :
    closingBrace? 0 (token :: rest) = some token := by
  rw [closingBrace?.eq_def]
  simp only [h]

theorem closingBrace?_closeBrace_succ (h : token.kind = .closeBrace) :
    closingBrace? (level + 1) (token :: rest) = closingBrace? level rest := by
  rw [closingBrace?.eq_def]
  simp only [h]

theorem closingBrace?_other (hopen : token.kind ≠ .openBrace) (hclose : token.kind ≠ .closeBrace) :
    closingBrace? level (token :: rest) = closingBrace? level rest := by
  rw [closingBrace?.eq_def]
  dsimp only
  split <;> simp_all

theorem closingBrace?_append {passed : List Token}
    (h : ∀ token ∈ passed, token.kind ≠ .openBrace ∧ token.kind ≠ .closeBrace) :
    closingBrace? level (passed ++ rest) = closingBrace? level rest := by
  induction passed with
  | nil => rfl
  | cons token passed ih =>
      obtain ⟨hopen, hclose⟩ := h token List.mem_cons_self
      rw [List.cons_append, closingBrace?_other hopen hclose]
      exact ih fun other hmem => h other (List.mem_cons_of_mem _ hmem)

theorem mem_of_closingBrace? (h : closingBrace? level tokens = some close) :
    close ∈ tokens ∧ close.kind = .closeBrace := by
  induction tokens generalizing level with
  | nil => cases h
  | cons token rest ih =>
      by_cases hopen : token.kind = .openBrace
      · rw [closingBrace?_openBrace hopen] at h
        exact ⟨List.mem_cons_of_mem _ (ih h).1, (ih h).2⟩
      by_cases hclose : token.kind = .closeBrace
      · cases level with
        | zero =>
            rw [closingBrace?_closeBrace hclose] at h
            cases h
            exact ⟨List.mem_cons_self, hclose⟩
        | succ level =>
            rw [closingBrace?_closeBrace_succ hclose] at h
            exact ⟨List.mem_cons_of_mem _ (ih h).1, (ih h).2⟩
      · rw [closingBrace?_other hopen hclose] at h
        exact ⟨List.mem_cons_of_mem _ (ih h).1, (ih h).2⟩

/-- The tokens end with the brace that closes a block in which `level` blocks are open. -/
inductive Closes : Nat → List Token → Prop
  | last {token : Token} (h : token.kind = .closeBrace) : Closes 0 [token]
  | openBrace {token : Token} {rest : List Token} {level : Nat} (h : token.kind = .openBrace)
      (hrest : Closes (level + 1) rest) : Closes level (token :: rest)
  | closeBrace {token : Token} {rest : List Token} {level : Nat} (h : token.kind = .closeBrace)
      (hrest : Closes level rest) : Closes (level + 1) (token :: rest)
  | other {token : Token} {rest : List Token} {level : Nat} (hopen : token.kind ≠ .openBrace)
      (hclose : token.kind ≠ .closeBrace) (hrest : Closes level rest) : Closes level (token :: rest)

theorem closes_of_counts {body : List Token} (hbalanced : closed body = opened body + level + 1)
    (hfirst : ∀ taken rest, body = taken ++ rest → rest ≠ [] →
      closed taken ≠ opened taken + level + 1) : Closes level body := by
  induction body generalizing level with
  | nil => cases hbalanced
  | cons token body ih =>
      have hrest (smaller : Nat) (hbalanced : closed body = opened body + smaller + 1)
          (hlevel : ∀ taken, closed taken = opened taken + smaller + 1 →
            closed (token :: taken) = opened (token :: taken) + level + 1) :
          Closes smaller body := by
        refine ih hbalanced ?_
        intro taken rest hsplit hrest hequal
        exact hfirst (token :: taken) rest (congrArg (token :: ·) hsplit) hrest
          (hlevel taken hequal)
      by_cases hopen : token.kind = .openBrace
      · have hcounts (tokens : List Token) : opened (token :: tokens) = opened tokens + 1 ∧
            closed (token :: tokens) = closed tokens := by
          simp [opened, closed, hopen]
        have hbody := hcounts body
        refine .openBrace hopen (hrest (level + 1) (by omega) ?_)
        intro taken hequal
        have htaken := hcounts taken
        omega
      by_cases hclose : token.kind = .closeBrace
      · have hcounts (tokens : List Token) : opened (token :: tokens) = opened tokens ∧
            closed (token :: tokens) = closed tokens + 1 := by
          simp [opened, closed, hclose]
        cases level with
        | zero =>
            have hnil : body = [] := by
              refine Classical.byContradiction fun hne => ?_
              refine hfirst [token] body rfl hne ?_
              simp [opened, closed, hclose]
            rw [hnil]
            exact .last hclose
        | succ level =>
            have hbody := hcounts body
            refine .closeBrace hclose (hrest level (by omega) ?_)
            intro taken hequal
            have htaken := hcounts taken
            omega
      · have hcounts (tokens : List Token) : opened (token :: tokens) = opened tokens ∧
            closed (token :: tokens) = closed tokens := by
          simp [opened, closed, hopen, hclose]
        have hbody := hcounts body
        refine .other hopen hclose (hrest level (by omega) ?_)
        intro taken hequal
        have htaken := hcounts taken
        omega

theorem Closes.closingBrace? {body : List Token} (h : Closes level body) (behind : List Token) :
    ∃ close, body.getLast? = some close ∧
      Grammar.closingBrace? level (body ++ behind) = some close := by
  have hlast {token close : Token} {rest : List Token} (h : rest.getLast? = some close) :
      (token :: rest).getLast? = some close := by
    rw [List.getLast?_cons, h]
    rfl
  induction h with
  | last h => exact ⟨_, rfl, closingBrace?_closeBrace h⟩
  | openBrace h hrest ih =>
      obtain ⟨close, hclose, hclosing⟩ := ih
      refine ⟨close, hlast hclose, ?_⟩
      rw [List.cons_append, closingBrace?_openBrace h]
      exact hclosing
  | closeBrace h hrest ih =>
      obtain ⟨close, hclose, hclosing⟩ := ih
      refine ⟨close, hlast hclose, ?_⟩
      rw [List.cons_append, closingBrace?_closeBrace_succ h]
      exact hclosing
  | other hopen hclosed hrest ih =>
      obtain ⟨close, hclose, hclosing⟩ := ih
      refine ⟨close, hlast hclose, ?_⟩
      rw [List.cons_append, closingBrace?_other hopen hclosed]
      exact hclosing

theorem Closes.group {body : List Token} (h : Closes level body) (behind : List Token)
    (hstrings : ∀ token ∈ body, token.kind ≠ .unterminatedString) :
    Capture.group .openBrace .closeBrace level (body ++ behind) = ⟨body, behind, .complete⟩ := by
  have hmore {token : Token} {rest : List Token}
      (h : ∀ other ∈ token :: rest, other.kind ≠ .unterminatedString) :
      ∀ other ∈ rest, other.kind ≠ .unterminatedString :=
    fun other hmem => h other (List.mem_cons_of_mem _ hmem)
  induction h with
  | @last token h =>
      have hopen : token.kind ≠ .openBrace := by simp [h]
      rw [List.singleton_append, Capture.group.eq_def]
      dsimp only
      rw [if_neg hopen, if_pos h]
      rfl
  | openBrace h hrest ih =>
      rw [List.cons_append, Capture.group.eq_def]
      dsimp only
      rw [if_pos h, ih (hmore hstrings)]
      rfl
  | @closeBrace token rest level h hrest ih =>
      have hopen : token.kind ≠ .openBrace := by simp [h]
      rw [List.cons_append, Capture.group.eq_def]
      dsimp only
      rw [if_neg hopen, if_pos h, ih (hmore hstrings)]
      rfl
  | other hopen hclose hrest ih =>
      rw [List.cons_append, Capture.group.eq_def]
      dsimp only
      rw [if_neg hopen, if_neg hclose,
        if_neg (hstrings _ List.mem_cons_self), ih (hmore hstrings)]
      rfl

theorem IsBlock.closes {block : List Token} (h : IsBlock block) :
    ∃ first rest, block = first :: rest ∧ first.kind = .openBrace ∧ Closes 0 rest := by
  cases block with
  | nil => cases h.opening
  | cons first rest =>
      have hfirst : first.kind = .openBrace := by simpa using h.opening
      have hcounts (tokens : List Token) : opened (first :: tokens) = opened tokens + 1 ∧
          closed (first :: tokens) = closed tokens := by
        simp [opened, closed, hfirst]
      refine ⟨first, rest, rfl, hfirst, closes_of_counts ?_ ?_⟩
      · have hrest := hcounts rest
        have hequal := h.balanced
        omega
      · intro taken others hsplit hothers hequal
        refine h.first (first :: taken) others (congrArg (first :: ·) hsplit) (by simp) hothers ?_
        have htaken := hcounts taken
        omega

/-! ## Text passed as a whole -/

theorem skipBlock_other (hopen : token.kind ≠ .openBrace) (hclose : token.kind ≠ .closeBrace) :
    skipBlock level (token :: rest) = skipBlock level rest := by
  rw [skipBlock.eq_def]
  dsimp only
  split <;> simp_all

theorem Closes.skipBlock {body : List Token} (h : Closes level body) (behind : List Token) :
    Grammar.skipBlock level (body ++ behind) = behind := by
  induction h with
  | last h =>
      rw [List.singleton_append, skipBlock.eq_def]
      simp only [h]
  | openBrace h hrest ih =>
      rw [List.cons_append, skipBlock.eq_def]
      simp only [h]
      exact ih
  | closeBrace h hrest ih =>
      rw [List.cons_append, skipBlock.eq_def]
      simp only [h]
      exact ih
  | other hopen hclose hrest ih =>
      rw [List.cons_append, skipBlock_other hopen hclose]
      exact ih

theorem closingBrace?_skipBlock (outer : Nat) (tokens : List Token) :
    closingBrace? (level + outer + 1) tokens = closingBrace? outer (skipBlock level tokens) := by
  induction tokens generalizing level with
  | nil => rfl
  | cons token rest ih =>
      by_cases hopen : token.kind = .openBrace
      · have hskip : skipBlock level (token :: rest) = skipBlock (level + 1) rest := by
          rw [skipBlock.eq_def]
          simp only [hopen]
        rw [closingBrace?_openBrace hopen, hskip, ← ih]
        congr 1
        omega
      by_cases hclose : token.kind = .closeBrace
      · rw [closingBrace?_closeBrace_succ hclose, skipBlock.eq_def]
        simp only [hclose]
        cases level with
        | zero => rw [Nat.zero_add]
        | succ level =>
            dsimp only
            rw [← ih]
            congr 1
            omega
      · rw [closingBrace?_other hopen hclose, skipBlock_other hopen hclose, ih]

theorem closingBrace?_nextStop (tokens : List Token) :
    closingBrace? level (nextStop true tokens) = closingBrace? level tokens := by
  unfold nextStop
  conv => rhs; rw [← List.takeWhile_append_dropWhile (p := fun token => !isStop true token) (l := tokens)]
  refine (closingBrace?_append ?_).symm
  intro token hmem
  have hstop := List.all_eq_true.mp List.all_takeWhile token hmem
  simp only [isStop, Bool.not_or, Bool.and_eq_true, Bool.not_eq_true', decide_eq_false_iff_not,
    Bool.true_and] at hstop
  exact ⟨hstop.1.2, hstop.2⟩

/-- Recovering inside a block does not leave it. -/
theorem closingBrace?_resume (tokens : List Token) :
    closingBrace? level (resume true tokens) = closingBrace? level tokens := by
  rw [← closingBrace?_nextStop tokens]
  unfold resume
  cases nextStop true tokens with
  | nil => rfl
  | cons token rest =>
      dsimp only
      split
      · rename_i hkind
        rw [closingBrace?_other] <;> simp [hkind]
      · rename_i hkind
        rw [closingBrace?_openBrace hkind, ← closingBrace?_skipBlock, Nat.zero_add]
      · rfl

/-- A captured block ends at its own brace, unless a string is left open before. -/
theorem closingBrace?_group {outer : Nat}
    (h : closingBrace? (level + outer + 1) tokens = some close) :
    let block := Capture.group .openBrace .closeBrace level tokens
    (block.ending = .complete ∧ closingBrace? outer block.rest = some close) ∨
      (block.ending = .fault .unterminatedString ∧
        ∃ inner, outer < inner ∧ closingBrace? inner block.rest = some close) := by
  induction tokens generalizing level with
  | nil => cases h
  | cons token rest ih =>
      unfold Capture.group
      by_cases hopen : token.kind = .openBrace
      · rw [if_pos hopen]
        rw [closingBrace?_openBrace hopen] at h
        refine ih ?_
        rw [← h]
        congr 1
        omega
      rw [if_neg hopen]
      by_cases hclose : token.kind = .closeBrace
      · rw [if_pos hclose]
        rw [closingBrace?_closeBrace_succ hclose] at h
        cases level with
        | zero =>
            rw [Nat.zero_add] at h
            exact .inl ⟨rfl, h⟩
        | succ level =>
            refine ih ?_
            rw [← h]
            congr 1
            omega
      rw [if_neg hclose]
      by_cases hstring : token.kind = .unterminatedString
      · rw [if_pos hstring]
        exact .inr ⟨rfl, level + outer + 1, by omega, h⟩
      · rw [if_neg hstring]
        rw [closingBrace?_other hopen hclose] at h
        exact ih h

/-- A block that is captured to its end leaves the blocks around it as they are. -/
theorem closingBrace?_of_complete {outer : Nat}
    (h : (Capture.group .openBrace .closeBrace level tokens).ending = .complete) :
    closingBrace? (level + outer + 1) tokens =
      closingBrace? outer (Capture.group .openBrace .closeBrace level tokens).rest := by
  induction tokens generalizing level with
  | nil => cases h
  | cons token rest ih =>
      unfold Capture.group at h ⊢
      by_cases hopen : token.kind = .openBrace
      · rw [if_pos hopen] at h ⊢
        rw [closingBrace?_openBrace hopen, show level + outer + 1 + 1 = level + 1 + outer + 1 by omega]
        exact ih h
      rw [if_neg hopen] at h ⊢
      by_cases hclose : token.kind = .closeBrace
      · rw [if_pos hclose] at h ⊢
        rw [closingBrace?_closeBrace_succ hclose]
        cases level with
        | zero => rw [Nat.zero_add, Capture.rest_take, Capture.rest_stop]
        | succ level =>
            rw [show level + 1 + outer = level + outer + 1 by omega]
            exact ih h
      rw [if_neg hclose] at h ⊢
      rw [closingBrace?_other hopen hclose]
      by_cases hstring : token.kind = .unterminatedString
      · rw [if_pos hstring] at h
        cases h
      · rw [if_neg hstring] at h ⊢
        exact ih h

theorem Setting.Reads.stop_le_of_mem {setting : Setting} {other : Token}
    (h : setting.Reads (token :: rest)) (hmem : other ∈ rest) : token.span.stop ≤ other.span.start := by
  induction rest generalizing token with
  | nil => cases hmem
  | cons next rest ih =>
      obtain ⟨body, after, -, hstart, -⟩ := Source.tokensFrom_eq_cons h.cons.2.symm
      rcases List.mem_cons.mp hmem with rfl | hmem
      · exact hstart
      · have hnext := ih h.tail hmem
        have hlt := h.tail.start_lt_stop
        omega

/-- The tokens up to the last one of a block, which lie in their order. -/
theorem Setting.Reads.before_last {setting : Setting} {block behind : List Token} {last : Token}
    (h : setting.Reads (block ++ behind)) (hlast : block.getLast? = some last) (hmem : token ∈ block) :
    token = last ∨ token.span.stop ≤ last.span.start ∧ token.kind ≠ .unterminatedString := by
  obtain ⟨before, rfl⟩ := List.getLast?_eq_some_iff.mp hlast
  rcases List.mem_append.mp hmem with hmem | hmem
  · obtain ⟨passed, between, rfl⟩ := List.append_of_mem hmem
    have hreads : setting.Reads (token :: (between ++ [last] ++ behind)) := by
      refine h.suffix ⟨passed, ?_⟩
      simp
    have hmember : last ∈ between ++ [last] ++ behind := by simp
    refine .inr ⟨hreads.stop_le_of_mem hmember, ?_⟩
    intro hstring
    rw [hreads.rest_eq_nil hstring] at hmember
    cases hmember
  · exact .inl (List.mem_singleton.mp hmem)

/-- Reading anew behind the first byte of an operator leaves the braces as they are. -/
theorem closingBrace?_afterGreater {setting : Setting} {next : List Token}
    (h : setting.Reads tokens) (hgreater : setting.afterGreater? tokens = some next) :
    closingBrace? level next = closingBrace? level tokens := by
  obtain ⟨token, rest, rfl, hkind, rfl⟩ := h.of_afterGreater? hgreater
  obtain ⟨offset, hoffset⟩ := h
  obtain ⟨freshAngles, staleAngles, common, hsynced⟩ :=
    Source.resynced_of_startsWithGreater hoffset.symm hkind
  have hangle {token : Token} (h : token.kind.isAngle = true) :
      token.kind ≠ .openBrace ∧ token.kind ≠ .closeBrace := by
    refine ⟨?_, ?_⟩ <;>
    · intro hbrace
      rw [hbrace] at h
      cases h
  have hbrace : token.kind ≠ .openBrace ∧ token.kind ≠ .closeBrace := by
    refine ⟨?_, ?_⟩ <;>
    · intro hbrace
      rw [hbrace] at hkind
      cases hkind
  rw [closingBrace?_other hbrace.1 hbrace.2, hsynced.fresh_eq, hsynced.stale_eq,
    closingBrace?_append fun other hmem => hangle (hsynced.freshAngle other hmem),
    closingBrace?_append fun other hmem => hangle (hsynced.staleAngle other hmem)]

end ScriptSyntax.Grammar
